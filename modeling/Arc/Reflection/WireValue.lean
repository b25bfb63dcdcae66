import Mathlib.Data.Int.Notation
import Mathlib.Data.Nat.Notation

/-!
# Values and their wire form

The values read models hold, and `encode`, which turns them into their JSON wire form. Numbers,
the texts of the value types and the order of texts are those of the platform; what is declared
of a class is given by its metadata. An object holds its own properties in order.
-/

namespace Arc.Reflection

/-- A JavaScript value; `date none` is an invalid date, and concepts and objects tell their
class. -/
inductive Value (ν : Type)
  | null
  | undefined
  | boolean (value : Bool)
  | number (value : ν)
  | bigint (value : ℤ)
  | string (value : String)
  | concept (classId : ℕ) (value : Value ν)
  | guid (text : String)
  | date (time : Option ℤ)
  | dateOnly (year month day : ℤ)
  | timeOnly (hour minute second millisecond : ℤ)
  | timeSpan (ticks : ℤ)
  | array (items : List (Value ν))
  | object (classId : ℕ) (properties : List (String × Value ν))

/-- A runtime type: a built-in one, a concept with its value type, or a class. -/
inductive WireType
  | string
  | number
  | boolean
  | guid
  | date
  | dateOnly
  | timeOnly
  | timeSpan
  | array
  | concept (id : ℕ) (valueType : WireType)
  | «class» (id : ℕ)
  deriving DecidableEq, Repr

/-- A declared field; `element` is the type of the elements of an array. -/
structure WireField where
  name : String
  type : WireType
  element : Option WireType := none
  deriving DecidableEq, Repr

/-- What is declared of the classes: their fields with the inherited ones, the classes derived
from a type, the discriminator of a derived class, and the `_bsontype` of the instances of a
driver class. -/
structure TypeMetadata where
  fieldsFor : ℕ → List WireField
  derivedTypesFor : WireType → List ℕ
  derivedType : ℕ → Option String
  bsonType : ℕ → Option String := fun _ => none

/-- What the platform computes: how numbers compare (the sign of their difference, equal for a
difference that is none), how texts compare, how values are converted to text, how the value
types are written, and the case of characters. -/
structure Platform (ν : Type) where
  compareNumbers : ν → ν → Ordering
  localeCompare : String → String → Ordering
  text : Value ν → String
  toISOString : ℤ → String
  dateOnlyText : ℤ → ℤ → ℤ → String
  timeOnlyText : ℤ → ℤ → ℤ → ℤ → String
  timeSpanText : ℤ → String
  toUpperCase : Char → String
  toLowerCase : Char → String

variable {ν : Type} (platform : Platform ν) (metadata : TypeMetadata)

/-- The class of the objects `encode` makes. -/
def plainClass : ℕ := 1

/-- An initial acronym stays, any other first character is lowered. -/
def wireName (name : String) : String :=
  match name.toList with
  | [] => name
  | [first] => platform.toLowerCase first
  | first :: second :: rest =>
      if platform.toUpperCase first = String.singleton first ∧
          platform.toUpperCase second = String.singleton second then name
      else platform.toLowerCase first ++ String.ofList (second :: rest)

/-- Whether a value is assigned to a name: a later one takes the place of an earlier one. -/
def assign {β : Type} (name : String) (value : β) : List (String × β) → List (String × β)
  | [] => [(name, value)]
  | (other, old) :: rest =>
      if other = name then (name, value) :: rest else (other, old) :: assign name value rest

/-- `Object.fromEntries` -/
def fromEntries {β : Type} (entries : List (String × β)) : List (String × β) :=
  entries.foldl (fun object entry => assign entry.1 entry.2 object) []

/-- An entry an object is encoded from: its name, the value, and the wire form of it. -/
structure Entry (ν : Type) where
  name : String
  value : Value ν
  encoded : Except String (Value ν)

def Value.isNull : Value ν → Bool
  | .null => true
  | _ => false

def Value.isUndefined : Value ν → Bool
  | .undefined => true
  | _ => false

/-- The entries that are kept. -/
def Entry.kept (polymorphic : Bool) (entry : Entry ν) : Bool :=
  !entry.value.isUndefined && (!entry.value.isNull || polymorphic) &&
    decide (entry.name ≠ "_derivedTypeId")

/-- The entries of an object: its declared fields if there are any, else its own properties. -/
def declaredEntries (fields : List WireField) (own : List (Entry ν)) : List (Entry ν) :=
  if fields.isEmpty then own
  else fields.map fun field =>
    ((own.find? (·.name = field.name)).getD ⟨field.name, .undefined, .ok .undefined⟩)

/-- The object of the kept entries. -/
def encodeEntries (fields : List WireField) (polymorphic : Bool) (entries : List (Entry ν)) :
    Except String (List (String × Value ν)) := do
  let encoded ← (entries.filter (Entry.kept polymorphic)).mapM fun entry => do
    let value ← entry.encoded
    .ok (if fields.isEmpty then entry.name else wireName platform entry.name, value)
  .ok (fromEntries encoded)

mutual

/-- Convert a value into its wire form; `declared` and `element` are the declared type and the
type of the elements of an array. -/
def encode : Value ν → Option WireType → Option WireType → Except String (Value ν)
  | .concept _ value, _, _ => encode value none none
  | .date (some time), _, _ => .ok (.string (platform.toISOString time))
  | .date none, _, _ => .error "Invalid time value"
  | .guid text, _, _ => .ok (.string text)
  | .dateOnly year month day, _, _ => .ok (.string (platform.dateOnlyText year month day))
  | .timeOnly hour minute second millisecond, _, _ =>
      .ok (.string (platform.timeOnlyText hour minute second millisecond))
  | .timeSpan ticks, _, _ => .ok (.string (platform.timeSpanText ticks))
  | .array items, _, element => do
      let encoded ← encodeItems items element
      .ok (.array encoded)
  | .object classId properties, declared, _ => do
      let fields := metadata.fieldsFor classId
      let polymorphic := declared.any fun type => !(metadata.derivedTypesFor type).isEmpty
      let entries := declaredEntries fields (encodeProperties properties fields)
      let encoded ← encodeEntries platform fields polymorphic entries
      .ok (.object plainClass (match polymorphic, metadata.derivedType classId with
        | true, some id => assign "_derivedTypeId" (.string id) encoded
        | _, _ => encoded))
  | .null, _, _ => .ok .null
  | .undefined, _, _ => .ok .undefined
  | .boolean value, _, _ => .ok (.boolean value)
  | .number value, _, _ => .ok (.number value)
  | .bigint value, _, _ => .ok (.bigint value)
  | .string value, _, _ => .ok (.string value)

def encodeItems : List (Value ν) → Option WireType → Except String (List (Value ν))
  | [], _ => .ok []
  | item :: items, element => do
      let first ← encode item element none
      let rest ← encodeItems items element
      .ok (first :: rest)

/-- The own properties, each with its wire form under its declared type. -/
def encodeProperties : List (String × Value ν) → List WireField → List (Entry ν)
  | [], _ => []
  | (name, value) :: properties, fields =>
      let field := fields.find? (·.name = name)
      ⟨name, value, encode value (field.map WireField.type) (field.bind WireField.element)⟩ ::
        encodeProperties properties fields

end

end Arc.Reflection
