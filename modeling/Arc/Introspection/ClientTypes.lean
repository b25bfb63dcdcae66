import Arc.Foundation.Checks
import Mathlib.Data.Int.Notation
import Mathlib.Data.List.Forall2
import Mathlib.Data.List.Lex
import Mathlib.Order.Nat

/-!
# The types of a client manifest

A client manifest is read from untrusted values: every object is looked at through its own
members only, and what is read is built anew. A type is parsed with the number of levels it may
still have; fields are returned in the order of their names and enum values in their own order,
so that parsing what was parsed gives it back.

The source hands the location of a value down and puts it into the error; here a failure starts
at its own place and each caller puts its part of the location in front.
-/

namespace Arc.Introspection

abbrev Text := List Char

/-- A value handed to the parser. Functions, symbols and objects with another prototype than
the default one are `foreign`. -/
inductive Raw
  | undefined
  | null
  | boolean (value : Bool)
  | number (value : ℤ)
  | string (value : Text)
  | array (items : List Raw)
  | object (members : List (String × Raw))
  | foreign

/-- Read a property. -/
def read (members : List (String × Raw)) (key : String) : Raw :=
  (members.lookup key).getD .undefined

/-- Whether every own key of the object is one of the allowed keys. -/
def hasOnlyKeys (members : List (String × Raw)) (allowed : List String) : Bool :=
  members.all fun member => allowed.contains member.1

structure Failure where
  location : String
  detail : String

/-- The standard client manifest validation error. -/
def Failure.message (failure : Failure) : String :=
  "Client manifest " ++ failure.location ++ ": " ++ failure.detail

section Checks

variable {α : Type}

def fail (detail : String) : Except Failure α := .error ⟨"", detail⟩

/-- Put a part of the location in front of that of a failure. -/
def within (location : String) (result : Except Failure α) : Except Failure α :=
  result.mapError fun failure => ⟨location ++ failure.location, failure.detail⟩

def expect (condition : Prop) [Decidable condition] (detail : String) : Except Failure Unit :=
  require condition ⟨"", detail⟩

@[simp] theorem expect_eq_ok {condition : Prop} [Decidable condition] {detail : String} :
    expect condition detail = .ok () ↔ condition := require_eq_ok

@[simp] theorem within_eq_ok {location : String} {result : Except Failure α} {value : α} :
    within location result = .ok value ↔ result = .ok value := by
  cases result with
  | error failure => simp [within, Except.mapError]
  | ok value' => simp [within, Except.mapError]

/-- Parse the items of an array one after the other. -/
def parseAll (parse : Raw → Except Failure α) : ℕ → List Raw → Except Failure (List α)
  | _, [] => .ok []
  | index, item :: items => do
      let value ← within s!"[{index}]" (parse item)
      let values ← parseAll parse (index + 1) items
      pure (value :: values)

theorem parseAll_eq_ok {parse : Raw → Except Failure α} {index : ℕ} {items : List Raw}
    {values : List α} : parseAll parse index items = .ok values ↔
      List.Forall₂ (fun item value => parse item = .ok value) items values := by
  induction items generalizing index values with
  | nil =>
      rw [parseAll, List.forall₂_nil_left_iff, Except.ok.injEq]
      exact eq_comm
  | cons item items ih =>
      unfold parseAll
      rw [Except.bind_eq_ok]
      constructor
      · rintro ⟨value, hvalue, hrest⟩
        obtain ⟨rest, hparsed, hvalues⟩ := Except.bind_eq_ok.1 hrest
        cases hvalues
        exact .cons (within_eq_ok.1 hvalue) (ih.1 hparsed)
      · rintro (_ | ⟨hvalue, hrest⟩)
        exact ⟨_, within_eq_ok.2 hvalue, Except.bind_eq_ok.2 ⟨_, ih.2 hrest, rfl⟩⟩

/-- A parser that gives back what it parsed, from the raw form of it. -/
def Canonical (parse : Raw → Except Failure α) (toRaw : α → Raw) : Prop :=
  ∀ raw value, parse raw = .ok value → parse (toRaw value) = .ok value

theorem parseAll_map {parse : Raw → Except Failure α} {toRaw : α → Raw} {index : ℕ}
    {values : List α} (h : ∀ value ∈ values, parse (toRaw value) = .ok value) :
    parseAll parse index (values.map toRaw) = .ok values := by
  rw [parseAll_eq_ok, List.forall₂_map_left_iff, List.forall₂_same]
  exact h

theorem exists_of_forall₂ {β γ : Type} {related : β → γ → Prop} {items : List β}
    {values : List γ} (h : List.Forall₂ related items values) {value : γ} (hmem : value ∈ values) :
    ∃ item, related item value := by
  induction h with
  | nil => cases hmem
  | cons hvalue hrest ih =>
      rcases List.mem_cons.1 hmem with rfl | hmem
      · exact ⟨_, hvalue⟩
      · exact ih hmem

/-- What a canonical parser returned for some items is parsed again, in any order. -/
theorem parseAll_again {parse : Raw → Except Failure α} {toRaw : α → Raw}
    (h : Canonical parse toRaw) {index : ℕ} {items : List Raw} {values values' : List α}
    (hparsed : parseAll parse index items = .ok values) (hperm : values'.Perm values)
    (index' : ℕ) : parseAll parse index' (values'.map toRaw) = .ok values' := by
  refine parseAll_map fun value hmem => ?_
  obtain ⟨raw, hraw⟩ := exists_of_forall₂ (parseAll_eq_ok.1 hparsed) (hperm.mem_iff.1 hmem)
  exact h raw value hraw

end Checks

/-! ### Texts -/

/-- The UTF-16 code units of a character. -/
def codeUnits (c : Char) : List ℕ :=
  if c.toNat < 0x10000 then [c.toNat]
  else [0xD800 + (c.toNat - 0x10000) / 0x400, 0xDC00 + (c.toNat - 0x10000) % 0x400]

def units (text : Text) : List ℕ := text.flatMap codeUnits

/-- `text.length`. -/
def unitLength (text : Text) : ℕ := (units text).length

def toLowerCase (text : Text) : Text := text.map Char.toLower

/-- Ordinal comparison, used for deterministic manifest ordering. -/
def ordinalLE (a b : Text) : Bool := decide (units a ≤ units b)

theorem ordinalLE_trans (a b c : Text) (hab : ordinalLE a b = true) (hbc : ordinalLE b c = true) :
    ordinalLE a c = true := by
  unfold ordinalLE at *
  rw [decide_eq_true_iff] at *
  exact le_trans hab hbc

theorem ordinalLE_total (a b : Text) : (ordinalLE a b || ordinalLE b a) = true := by
  unfold ordinalLE
  rw [Bool.or_eq_true, decide_eq_true_iff, decide_eq_true_iff]
  exact le_total _ _

section Sorting

variable {α : Type}

/-- Order by a text. -/
def sortOn (key : α → Text) (list : List α) : List α :=
  list.mergeSort fun a b => ordinalLE (key a) (key b)

theorem sortOn_perm (key : α → Text) (list : List α) : (sortOn key list).Perm list :=
  List.mergeSort_perm _ _

theorem sortOn_nil (key : α → Text) : sortOn key [] = [] := List.mergeSort_nil

/-- What is in order stays as it is. -/
theorem sortOn_sortOn (key : α → Text) (list : List α) :
    sortOn key (sortOn key list) = sortOn key list :=
  List.mergeSort_of_pairwise (List.pairwise_mergeSort
    (fun a b c => ordinalLE_trans (key a) (key b) (key c))
    (fun a b => ordinalLE_total (key a) (key b)) list)

end Sorting

/-! ### Identifiers -/

def isLetter (c : Char) : Bool := ('A' ≤ c ∧ c ≤ 'Z') ∨ ('a' ≤ c ∧ c ≤ 'z')

def isDigit (c : Char) : Bool := '0' ≤ c ∧ c ≤ '9'

/-- `/^[A-Za-z][A-Za-z0-9_]*$/`. -/
def isIdentifier : Text → Bool
  | [] => false
  | c :: rest => isLetter c && rest.all fun c => isLetter c || isDigit c || c == '_'

def prototypeKeys : List String := ["constructor", "prototype", "__proto__"]

def emittedBindings : List String :=
  ["String", "Number", "Boolean", "Object", "Symbol", "Reflect", "TypeError", "Error", "Array",
    "JSON", "Promise", "Date", "Map", "Set", "WeakMap", "WeakSet", "Function", "Proxy", "BigInt",
    "RegExp", "Math", "undefined", "NaN", "Infinity", "globalThis", "field", "Command", "QueryFor",
    "ObservableQueryFor", "QueryHttpMethod", "PropertyDescriptor", "ParameterDescriptor"]

def clientMembers : List String :=
  ["execute", "validate", "perform", "subscribe", "dispose", "route", "roles",
    "propertyDescriptors", "parameterDescriptors", "requestParameters",
    "requiredRequestParameters", "defaultValue", "queryName", "parameters", "paging", "sorting",
    "abortController", "validation", "clear", "revertChanges", "hasChanges", "onPropertyChanged",
    "propertyChanged", "setInitialValues", "setInitialValuesFromCurrentValues", "setOrigin",
    "setApiBasePath", "setMicroservice", "setHttpHeadersCallback", "setHttpMethod", "modelType",
    "enumerable", "then", "toString", "valueOf", "hasOwnProperty"]

def keywords : List String :=
  ["class", "default", "function", "var", "let", "const", "export", "import", "extends",
    "implements", "new", "return", "switch", "case", "if", "else", "void", "null", "true", "false",
    "enum", "interface", "package", "private", "public", "protected", "static", "async", "await",
    "yield", "delete", "in", "instanceof", "this", "super", "try", "catch", "throw", "typeof",
    "with", "do", "while", "for", "break", "continue", "finally", "debugger"]

def forbiddenClassNames : List String :=
  ["eval", "arguments", "string", "number", "boolean", "object", "symbol", "bigint", "any",
    "unknown", "never"]

def isReserved (text : Text) (className : Bool) : Bool :=
  let value := String.ofList text
  keywords.contains value || (className && forbiddenClassNames.contains value) ||
    clientMembers.contains value || emittedBindings.contains value || prototypeKeys.contains value

/-- Validate a single identifier that becomes a generated member or class name. -/
def name (value : Raw) (className : Bool) : Except Failure Text :=
  match value with
  | .string text =>
      if isIdentifier text ∧ unitLength text ≤ 128 ∧ isReserved text className = false then
        .ok text
      else fail "unsafe identifier"
  | _ => fail "unsafe identifier"

/-- `id.split('.').join('_')`. -/
def symbol (id : Text) : Text := List.intercalate ['_'] (id.splitOn '.')

def isSafeQualifiedId (id : Text) : Bool :=
  unitLength id ≤ 180 && !keywords.contains (String.ofList id) &&
    ((id.splitOn '.').all fun part =>
      isIdentifier part && decide (unitLength part ≤ 128) &&
        !prototypeKeys.contains (String.ofList part)) &&
    !emittedBindings.contains (String.ofList (symbol id)) &&
    !forbiddenClassNames.contains (String.ofList (symbol id))

/-- Validate a dotted qualified operation ID. -/
def qualifiedId (value : Raw) : Except Failure Text :=
  match value with
  | .string id => if isSafeQualifiedId id then .ok id else fail "unsafe qualified ID"
  | _ => fail "unsafe qualified ID"

/-! ### Types -/

/-- The name of a field, and whether it may be left out. -/
structure FieldHead where
  name : Text
  optional : Bool

/-- Explicit wire shape. -/
inductive ClientType
  | void
  | string
  | boolean
  | number
  | enum (values : List Text)
  | array (element : ClientType)
  | dto (name : Text) (fields : List (FieldHead × ClientType))

abbrev ClientField := FieldHead × ClientType

/-- Whether the field holds a DTO directly or as an array element. -/
def holdsDto : ClientField → Bool
  | (_, .dto _ _) => true
  | (_, .array (.dto _ _)) => true
  | _ => false

/-- A field as it stands in the manifest. -/
def fieldRaw (head : FieldHead) (type : Raw) : Raw :=
  .object ([("name", .string head.name), ("type", type)] ++
    if head.optional then [("optional", .boolean true)] else [])

mutual

/-- A type as it stands in the manifest. -/
def ClientType.toRaw : ClientType → Raw
  | .void => .object [("kind", .string "void".toList)]
  | .string => .object [("kind", .string "string".toList)]
  | .boolean => .object [("kind", .string "boolean".toList)]
  | .number => .object [("kind", .string "number".toList)]
  | .enum values =>
      .object [("kind", .string "enum".toList), ("values", .array (values.map .string))]
  | .array element => .object [("kind", .string "array".toList), ("element", element.toRaw)]
  | .dto name fields => .object [("kind", .string "dto".toList), ("name", .string name),
      ("fields", .array (fieldsToRaw fields))]

def fieldsToRaw : List (FieldHead × ClientType) → List Raw
  | [] => []
  | (head, type) :: fields => fieldRaw head type.toRaw :: fieldsToRaw fields

end

def ClientField.toRaw (field : ClientField) : Raw := fieldRaw field.1 field.2.toRaw

theorem fieldsToRaw_eq (fields : List ClientField) :
    fieldsToRaw fields = fields.map ClientField.toRaw := by
  induction fields with
  | nil => rfl
  | cons field fields ih =>
      obtain ⟨head, type⟩ := field
      rw [fieldsToRaw, ih]
      rfl

def parseScalar (members : List (String × Raw)) (type : ClientType) : Except Failure ClientType :=
  do
  expect (members.length = 1) "unexpected type metadata"
  pure type

/-- The texts of an array of strings. -/
def asTexts : List Raw → Option (List Text)
  | [] => some []
  | .string text :: items => (asTexts items).map (text :: ·)
  | _ :: _ => none

def areEnumValues (values : List Text) : Bool :=
  values ≠ [] ∧ values.length ≤ 128 ∧ (∀ value ∈ values, unitLength value ≤ 1024) ∧ values.Nodup

def parseEnum (members : List (String × Raw)) : Except Failure ClientType :=
  if hasOnlyKeys members ["kind", "values"] then
    match read members "values" with
    | .array items =>
        match asTexts items with
        | some values =>
            if areEnumValues values then .ok (.enum (sortOn id values))
            else fail "invalid string enum"
        | none => fail "invalid string enum"
    | _ => fail "invalid string enum"
  else fail "invalid string enum"

def isElement : ClientType → Bool
  | .void => false
  | .array _ => false
  | _ => true

def isVoid : ClientType → Bool
  | .void => true
  | _ => false

section Levels

variable (element member : Raw → Except Failure ClientType)

def parseArray (members : List (String × Raw)) : Except Failure ClientType := do
  expect (hasOnlyKeys members ["kind", "element"]) "unexpected array metadata"
  let type ← within ".element" (element (read members "element"))
  expect (isElement type) "unsupported array element"
  pure (.array type)

def parseOptional : Raw → Except Failure Bool
  | .undefined => .ok false
  | .boolean value => .ok value
  | _ => fail "optional must be boolean"

def parseField : Raw → Except Failure ClientField
  | .object members => do
      expect (hasOnlyKeys members ["name", "type", "optional"]) "invalid field"
      let optional ← parseOptional (read members "optional")
      let type ← within ".type" (member (read members "type"))
      expect (isVoid type = false) "void is not a field"
      let name ← name (read members "name") false
      pure (⟨name, optional⟩, type)
  | _ => fail "invalid field"

/-- Parse and validate a list of fields; sorted by name. -/
def fields (value : Raw) : Except Failure (List ClientField) :=
  match value with
  | .array items => do
      expect (items.length ≤ 128) "expected at most 128 fields"
      let result ← parseAll (parseField member) 0 items
      expect ((result.map fun field => toLowerCase field.1.name).Nodup)
        "duplicate or case-colliding field"
      pure (sortOn (fun field => field.1.name) result)
  | _ => fail "expected at most 128 fields"

def parseDto (members : List (String × Raw)) : Except Failure ClientType := do
  expect (hasOnlyKeys members ["kind", "name", "fields"]) "unexpected DTO metadata"
  let typeName ← within ".name" (name (read members "name") true)
  let fields ← within ".fields" (fields member (read members "fields"))
  expect (fields.any holdsDto = false) "nested DTO is unsupported"
  pure (.dto typeName fields)

/-- One level of a type, with parsers for an array's element, one level down, and for the types
of a DTO's fields, two levels down. -/
def parseLevel : Raw → Except Failure ClientType
  | .object members =>
      match read members "kind" with
      | .string kind =>
          if kind = "void".toList then parseScalar members .void
          else if kind = "string".toList then parseScalar members .string
          else if kind = "boolean".toList then parseScalar members .boolean
          else if kind = "number".toList then parseScalar members .number
          else if kind = "enum".toList then parseEnum members
          else if kind = "array".toList then parseArray element members
          else if kind = "dto".toList then parseDto member members
          else fail ("unsupported type " ++ String.ofList kind)
      | _ => fail "unsupported or recursive type"
  | _ => fail "unsupported or recursive type"

end Levels

def tooDeep (_ : Raw) : Except Failure ClientType := fail "unsupported or recursive type"

/-- Parse a type that may have so many levels more; at depth `d` of the source they are `9 - d`. -/
def parseLevels : ℕ → Raw → Except Failure ClientType
  | 0 => tooDeep
  | 1 => parseLevel tooDeep tooDeep
  | levels + 2 => parseLevel (parseLevels (levels + 1)) (parseLevels levels)

/-- Parse and validate an explicit wire type. -/
def parseType : Raw → Except Failure ClientType := parseLevels 9

end Arc.Introspection
