import Mathlib.Data.List.Sort
import Arc.Foundation.Attempt
import Arc.Foundation.PlainObject

/-!
# Snapshots of principals

A principal is a value of a heap: its objects have own properties, and their values refer to
objects. `snapshotPrincipal` copies what it can reach to new objects of the heap, one for each
object, and freezes them. It reads descriptors, which invoke no accessor; what reading a property
invokes is counted.
-/

namespace Arc.Execution

/-- A key of an own property: an array index, another string, or a symbol. -/
inductive PropertyKey
  | index (i : ℕ)
  | name (text : String)
  | symbol (id : ℕ)
  deriving DecidableEq

/-- The values that are no objects. -/
inductive Primitive
  | undefined
  | null
  | boolean (value : Bool)
  | number (bits : UInt64)
  | bigint (value : ℤ)
  | string (value : String)
  deriving DecidableEq

inductive Value
  | primitive (value : Primitive)
  | symbol (id : ℕ)
  | function (id : ℕ)
  | object (address : ℕ)
  deriving DecidableEq

/-- What an own property holds. -/
inductive Slot
  | data (value : Value)
  | accessor (getter : ℕ)
  deriving DecidableEq

structure Property where
  slot : Slot
  enumerable : Bool
  configurable : Bool
  writable : Bool
  deriving DecidableEq

inductive Prototype
  | objectPrototype
  | arrayPrototype
  | null
  | other (id : ℕ)
  deriving DecidableEq

/-- An object with its own properties in the order they were defined. The length of an array is
kept beside them. -/
structure JsObject where
  isArray : Bool
  length : ℕ
  lengthWritable : Bool
  prototype : Prototype
  properties : InsertionMap PropertyKey Property
  extensible : Bool
  bounded : isArray = true → ∀ i, .index i ∈ properties.keys → i < length
  intrinsic : isArray = true → .name "length" ∉ properties.keys

namespace PropertyKey

def index? : PropertyKey → Option ℕ
  | .index i => some i
  | _ => none

def isName : PropertyKey → Bool
  | .name _ => true
  | _ => false

def isSymbol : PropertyKey → Bool
  | .symbol _ => true
  | _ => false

end PropertyKey

/-- The order in which own keys are listed: indices in ascending order, then strings and then
symbols, each in the order they were defined. -/
def ordered (keys : List PropertyKey) : List PropertyKey :=
  ((keys.filterMap PropertyKey.index?).insertionSort (· ≤ ·)).map PropertyKey.index ++
    keys.filter PropertyKey.isName ++ keys.filter PropertyKey.isSymbol

namespace JsObject

/-- The keys of the properties that are kept beside the length, in the order they are listed. -/
def keys (o : JsObject) : List PropertyKey := ordered o.properties.keys

/-- `Reflect.ownKeys`: the length of an array was defined before its other strings. -/
def ownKeys (o : JsObject) : List PropertyKey :=
  if o.isArray then ordered (.name "length" :: o.properties.keys) else ordered o.properties.keys

/-- Whether the object is a plain array or a plain object. -/
def plain (o : JsObject) : Bool :=
  if o.isArray then o.prototype = .arrayPrototype
  else o.prototype = .objectPrototype ∨ o.prototype = .null

/-- `new Array(length)` or `Object.create(prototype)`. -/
def blank (o : JsObject) : JsObject where
  isArray := o.isArray
  length := o.length
  lengthWritable := true
  prototype := o.prototype
  properties := InsertionMap.empty
  extensible := true
  bounded := by simp [InsertionMap.keys]
  intrinsic := by simp [InsertionMap.keys]

end JsObject

/-- What `snapshotPrincipal` throws. -/
inductive SnapshotError
  | unsnapshotableValue
  | maximumDepth
  | unsnapshotableProperty
  | invalidIdentity
  /-- What the language throws. -/
  | typeError
  deriving DecidableEq

def SnapshotError.message : SnapshotError → String
  | .unsnapshotableValue => "Principal contains an unsnapshotable value"
  | .maximumDepth => "Principal claim graph exceeds maximum depth"
  | .unsnapshotableProperty => "Principal contains an unsnapshotable property"
  | .invalidIdentity => "Invalid principal identity"
  | .typeError => "TypeError"

/-- The heap, the copies that were made, and the accessors that were invoked. -/
structure Snapshot where
  heap : List JsObject
  copies : InsertionMap ℕ ℕ
  invoked : List ℕ

abbrev Copier := Attempt Snapshot SnapshotError

namespace JsObject

/-- Whether a property can be defined under the key: a new one in an object that is extensible,
not beyond a length that is fixed, and otherwise one that is configurable. -/
def admits (o : JsObject) (key : PropertyKey) : Bool :=
  match o.properties.get key with
  | some property => property.configurable
  | none => o.extensible && (o.lengthWritable || (key.index?.all fun i => i < o.length))

/-- The length after a key was defined. -/
def grown (o : JsObject) (key : PropertyKey) : ℕ :=
  match key with
  | .index i => if o.isArray then max o.length (i + 1) else o.length
  | _ => o.length

/-- `Object.defineProperty` with a property that can be changed, if it does not throw. The length
of an array is not configurable. -/
def define (o : JsObject) (key : PropertyKey) (value : Value) : Option JsObject :=
  if h : o.isArray = true ∧ key = .name "length" then none
  else if o.admits key then
    some
      { o with
        length := o.grown key
        properties := o.properties.set key ⟨.data value, true, true, true⟩
        bounded := by
          intro harray i hmem
          rcases InsertionMap.mem_keys_set.1 hmem with rfl | hmem
          · simp [grown, harray]
          · have hlt := o.bounded harray i hmem
            cases key <;> simp only [grown, harray, if_true] <;> omega
        intrinsic := by
          intro harray hmem
          rcases InsertionMap.mem_keys_set.1 hmem with hkey | hmem
          · exact h ⟨harray, hkey.symm⟩
          · exact o.intrinsic harray hmem }
  else none

/-- `Object.freeze` -/
def freeze (o : JsObject) : JsObject :=
  { o with
    lengthWritable := false
    properties := o.properties.mapValues fun property =>
      { property with configurable := false, writable := false }
    extensible := false
    bounded := by simpa using o.bounded
    intrinsic := by simpa using o.intrinsic }

def isFrozen (o : JsObject) : Bool :=
  !o.extensible && (!o.isArray || !o.lengthWritable) &&
    o.properties.entries.all fun entry => !entry.2.configurable && !entry.2.writable

end JsObject

/-! ### The copies -/

/-- The object at an address. -/
def load (address : ℕ) : Copier (Option JsObject) := fun s => (.ok s.heap[address]?, s)

/-- A new object of the heap. -/
def allocate (o : JsObject) : Copier ℕ := fun s =>
  (.ok s.heap.length, { s with heap := s.heap ++ [o] })

def copyOf (address : ℕ) : Copier (Option ℕ) := fun s => (.ok (s.copies.get address), s)

def remember (address copy : ℕ) : Copier PUnit :=
  Attempt.change fun s => { s with copies := s.copies.set address copy }

def defineProperty (address : ℕ) (key : PropertyKey) (value : Value) : Copier PUnit := fun s =>
  match s.heap[address]?.bind fun o => o.define key value with
  | some o => (.ok ⟨⟩, { s with heap := s.heap.set address o })
  | none => (.error .typeError, s)

def freezeObject (address : ℕ) : Copier PUnit :=
  Attempt.change fun s => { s with heap := s.heap.modify address JsObject.freeze }

/-- One turn of the loop over the own keys of the object at `address`. -/
def copyProperty (clone : Value → Copier Value) (address copy : ℕ) (array : Bool)
    (key : PropertyKey) : Copier PUnit :=
  -- Array length is the sole intrinsic non-enumerable field allowed.
  if array ∧ key = .name "length" then pure ⟨⟩
  else do
    let object ← load address
    match object.bind fun o => o.properties.get key with
    | some ⟨.data value, true, _, _⟩ =>
        if key.isSymbol then .fail .unsnapshotableProperty
        else do
          let value ← clone value
          defineProperty copy key value
    | _ => .fail .unsnapshotableProperty

/-- `clone`, with the levels that are left up to the maximum depth. -/
def clone : ℕ → Value → Copier Value
  | _, .function _ => .fail .unsnapshotableValue
  | _, .symbol _ => .fail .unsnapshotableValue
  | _, .primitive value => pure (.primitive value)
  | 0, .object _ => .fail .maximumDepth
  | levels + 1, .object address => do
      match ← load address with
      | none => .fail .unsnapshotableValue
      | some object =>
          if !object.plain then .fail .unsnapshotableValue
          else
            match ← copyOf address with
            | some existing => pure (.object existing)
            | none => do
                let copy ← allocate object.blank
                remember address copy
                .forEach (copyProperty (clone levels) address copy object.isArray) object.ownKeys
                freezeObject copy
                pure (.object copy)

/-- Reading a property: an accessor is invoked, and what it answers is not known. -/
def read (address : ℕ) (key : PropertyKey) : Copier (Option Value) := fun s =>
  match s.heap[address]?.bind fun o => o.properties.get key with
  | some ⟨.data value, _, _, _⟩ => (.ok (some value), s)
  | some ⟨.accessor getter, _, _, _⟩ =>
      (.error .typeError, { s with invoked := s.invoked ++ [getter] })
  | none => (.ok none, s)

def isString : Value → Bool
  | .primitive (.string _) => true
  | _ => false

def isBoolean : Value → Bool
  | .primitive (.boolean _) => true
  | _ => false

/-- `roles.every(role => typeof role === 'string')`: the holes of an array are skipped. -/
def everyString (address : ℕ) (o : JsObject) : Copier Bool := do
  match ← read address (.name "every") with
  | some _ => .fail .typeError
  | none => everyIndex address (o.ownKeys.filter fun key => key.index?.isSome)
where
  everyIndex (address : ℕ) : List PropertyKey → Copier Bool
    | [] => pure true
    | key :: keys => do
        match ← read address key with
        | some value => if isString value then everyIndex address keys else pure false
        | none => everyIndex address keys

/-- Whether a copy is a principal. -/
def identified (address : ℕ) : Copier Bool := do
  let id ← read address (.name "id")
  if !id.any isString then pure false
  else do
    let isAuthenticated ← read address (.name "isAuthenticated")
    if !isAuthenticated.any isBoolean then pure false
    else
      match ← read address (.name "roles") with
      | some (.object roles) =>
          match ← load roles with
          | some o => if o.isArray then everyString roles o else pure false
          | none => pure false
      | _ => pure false

/-- Detach and freeze strictly plain principal data for borrowed work. -/
def snapshotPrincipal (principal : Value) : Copier Value := do
  match ← clone 33 principal with
  | .object copy => do
      if ← identified copy then pure (.object copy) else .fail .invalidIdentity
  | .primitive .undefined => .fail .typeError
  | .primitive .null => .fail .typeError
  | _ => .fail .invalidIdentity

end Arc.Execution
