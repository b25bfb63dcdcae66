import Arc.Reflection.WireValue
import Mathlib.Data.List.Basic

/-!
# The schema of a wire type and its decoding

`parse` is what the schema of a type makes of a wire value: `none` rejects it, and defaults are
filled in. `decode` materializes what the schema has admitted. The first property of a name
counts.
-/

namespace Arc.Reflection

/-- Field annotations participating in wire validation and serialization. -/
structure FieldOptions (ν : Type) where
  optional : Bool := false
  nullable : Bool := false
  defaultValue : Option (Value ν) := none
  values : Option (List (Value ν)) := none
  namedFloats : Bool := false

/-- What is declared of the classes, with their names, the annotations of their fields and what
their constructors set. -/
structure WireMetadata (ν : Type) extends TypeMetadata where
  name : ℕ → String
  optionsFor : ℕ → String → FieldOptions ν
  initial : ℕ → List (String × Value ν)

/-- What the platform computes for schemas: which numbers are finite and which are `===`, the
number a text is converted to, which texts the schema of a value type admits, and what they are
parsed as. -/
structure WirePlatform (ν : Type) extends Platform ν where
  isFinite : ν → Bool
  sameNumber : ν → ν → Bool
  numberOf : String → ν
  admits : WireType → String → Bool
  parse : WireType → String → Option (Value ν)

variable {ν : Type}

/-! ### Types -/

/-- The type under the concepts of a type. -/
def WireType.scalar : WireType → WireType
  | .concept _ valueType => valueType.scalar
  | type => type

/-- The value under the concepts of a type. -/
def WireType.construct : WireType → Value ν → Value ν
  | .concept id valueType, value => .concept id (valueType.construct value)
  | _, value => value

/-- The types that are written as texts of their own. -/
def WireType.isValueType : WireType → Bool
  | .guid => true
  | .date => true
  | .dateOnly => true
  | .timeOnly => true
  | .timeSpan => true
  | _ => false

def WireType.name (metadata : WireMetadata ν) : WireType → String
  | .string => "String"
  | .number => "Number"
  | .boolean => "Boolean"
  | .guid => "Guid"
  | .date => "Date"
  | .dateOnly => "DateOnly"
  | .timeOnly => "TimeOnly"
  | .timeSpan => "TimeSpan"
  | .array => "Array"
  | .concept id _ => metadata.name id
  | .class id => metadata.name id

section Schema

variable (platform : WirePlatform ν) (metadata : WireMetadata ν)

/-- The classes derived from a class. -/
def derivedTypesFor (type : ℕ) : List ℕ := metadata.derivedTypesFor (.class type)

/-! ### Schemas that can be constructed -/

/-- `schemaFor` of a type without options does not throw. -/
def isBaseSchema : WireType → Bool
  | .array => false
  | .concept _ valueType => isBaseSchema valueType
  | .class id => !(derivedTypesFor metadata id).isEmpty || !(metadata.fieldsFor id).isEmpty
  | _ => true

/-- `typeof value` is that of a type. -/
def isOfType : WireType → Value ν → Bool
  | .string, .string _ => true
  | .number, .number _ => true
  | .boolean, .boolean _ => true
  | _, _ => false

/-- The values of an enumeration match its type. -/
def isEnumeration (type : WireType) (values : List (Value ν)) : Bool :=
  !values.isEmpty && values.all (isOfType (match type with
    | .concept _ valueType => valueType
    | type => type))

def isSchema (type : WireType) (options : FieldOptions ν) (element : Option WireType) : Bool :=
  isBaseSchema metadata (element.getD type) && options.values.all (isEnumeration type)

def isObjectSchema (type : ℕ) : Bool :=
  (metadata.fieldsFor type).all fun field =>
    isSchema metadata field.type (metadata.optionsFor type field.name) field.element

/-- The classes a discriminator selects of a type. -/
def variants (type : ℕ) : List ℕ :=
  if (metadata.derivedType type).isSome then type :: derivedTypesFor metadata type
  else derivedTypesFor metadata type

/-- The discriminators are unambiguous, and every variant has a schema. -/
def isDerivedSchema (type : ℕ) : Bool :=
  (variants metadata type).all (fun variant => (metadata.derivedType variant).any (· ≠ "")) &&
    decide ((variants metadata type).map metadata.derivedType).Nodup &&
    (variants metadata type).all (isObjectSchema metadata)

/-! ### What a schema admits -/

/-- What the schema of a type makes of a property by name. -/
abbrev Parser (ν : Type) := WireType → FieldOptions ν → Option WireType → Option (Value ν)

/-- A property that is `undefined`. -/
def missing (options : FieldOptions ν) : Option (Value ν) :=
  match options.defaultValue with
  | some value => some value
  | none => if options.optional then some .undefined else none

/-- `===` for the values of an enumeration. -/
def isLiteral : Value ν → Value ν → Bool
  | .string value, .string literal => value = literal
  | .boolean value, .boolean literal => value = literal
  | .number value, .number literal => platform.sameNumber value literal
  | _, _ => false

def namedFloats : List String := ["NaN", "Infinity", "-Infinity"]

/-- The schema of a type that is no concept; `object` is that of a class. -/
def parseScalar (value : Value ν) (type : WireType) (named : Bool)
    (object : ℕ → Option (Value ν)) : Option (Value ν) :=
  match type, value with
  | .string, .string text => some (.string text)
  | .number, .number number => if platform.isFinite number then some (.number number) else none
  | .number, .string text =>
      if named && namedFloats.contains text then some (.string text) else none
  | .boolean, .boolean value => some (.boolean value)
  | .class id, _ => object id
  | type, .string text =>
      if type.isValueType && platform.admits type text then some (.string text) else none
  | _, _ => none

/-- The fields of a class by their wire names; a later field takes the place of an earlier one. -/
def shape (type : ℕ) : List (String × WireField) :=
  fromEntries ((metadata.fieldsFor type).map fun field =>
    (wireName platform.toPlatform field.name, field))

/-- The properties a schema keeps. -/
def parseFields (type : ℕ) (parsers : List (String × Parser ν)) :
    List (String × WireField) → Option (List (String × Value ν))
  | [] => some []
  | (name, field) :: fields =>
      let options := metadata.optionsFor type field.name
      match parsers.lookup name with
      | none => do
          let value ← missing options
          let rest ← parseFields type parsers fields
          if value.isUndefined then some rest else some ((name, value) :: rest)
      | some parse => do
          let value ← parse field.type options field.element
          let rest ← parseFields type parsers fields
          some ((name, value) :: rest)

/-- An object of a class; `discriminator` is its property `_derivedTypeId`, as far as the schema
admits it. -/
def parseObject (type : ℕ) (discriminator : Option (Value ν)) (parsers : List (String × Parser ν)) :
    Option (Value ν) :=
  if isObjectSchema metadata type then do
    let properties ← parseFields metadata type parsers (shape platform metadata type)
    some (.object plainClass (match discriminator with
      | none => properties
      | some discriminator => ("_derivedTypeId", discriminator) :: properties))
  else none

def isDiscriminator (discriminator : Value ν) (type : ℕ) : Bool :=
  match metadata.derivedType type, discriminator with
  | some id, .string text => id = text
  | _, _ => false

/-- `objectSchema` of a class, for the properties of an object. -/
def parseModel (type : ℕ) (discriminator : Value ν) (parsers : List (String × Parser ν)) :
    Option (Value ν) :=
  if (metadata.derivedType type).isNone || discriminator.isUndefined then
    parseObject platform metadata type none parsers
  else if isDiscriminator metadata discriminator type then
    parseObject platform metadata type (some discriminator) parsers
  else none

/-- The schema of a class in a field: one variant for each discriminator, or the class. -/
def parseClass (type : ℕ) (discriminator : Value ν) (parsers : List (String × Parser ν)) :
    Option (Value ν) :=
  if (derivedTypesFor metadata type).isEmpty then
    if (metadata.fieldsFor type).isEmpty then none
    else parseModel platform metadata type discriminator parsers
  else if isDerivedSchema metadata type then
    match (variants metadata type).find? (isDiscriminator metadata discriminator) with
    | some variant => parseObject platform metadata variant (some discriminator) parsers
    | none => none
  else none

mutual

/-- What the schema of a field makes of a value. -/
def parse : Value ν → WireType → FieldOptions ν → Option WireType → Option (Value ν)
  | .undefined, _, options, _ => missing options
  | .null, _, options, _ => if options.nullable then some .null else none
  | .array items, _, options, element =>
      match options.values, element with
      | none, some element => (parseItems items element).map Value.array
      | _, _ => none
  | .object classId properties, type, options, element =>
      match options.values, element with
      | none, none => parseScalar platform (.object classId properties) type.scalar
          options.namedFloats fun type => parseClass platform metadata type
            ((properties.lookup "_derivedTypeId").getD .undefined) (parseProperties properties)
      | _, _ => none
  | value, type, options, element =>
      match options.values, element with
      | some values, _ => if values.any (isLiteral platform value) then some value else none
      | none, some _ => none
      | none, none => parseScalar platform value type.scalar options.namedFloats fun _ => none

def parseItems : List (Value ν) → WireType → Option (List (Value ν))
  | [], _ => some []
  | item :: items, element => do
      let first ← parse item element {} none
      let rest ← parseItems items element
      some (first :: rest)

def parseProperties : List (String × Value ν) → List (String × Parser ν)
  | [] => []
  | (name, value) :: properties =>
      (name, fun type options element => parse value type options element) ::
        parseProperties properties

end

/-- `objectSchema` of a class. -/
def objectSchema (type : ℕ) : Value ν → Option (Value ν)
  | .object _ properties => parseModel platform metadata type
      ((properties.lookup "_derivedTypeId").getD .undefined)
      (parseProperties platform metadata properties)
  | _ => none

/-! ### Decoding -/

/-- What `decode` makes of a property. -/
abbrev Decoder (ν : Type) := WireType → Option WireType → Except String (Value ν)

/-- The class of the instance a wire object is decoded to. -/
def decodedClass (type : ℕ) (discriminator : Value ν) : Except String ℕ :=
  if discriminator.isUndefined then
    if (derivedTypesFor metadata type).isEmpty then .ok type
    else .error s!"Missing Arc derived type: {metadata.name type}"
  else if isDiscriminator metadata discriminator type then .ok type
  else
    match (derivedTypesFor metadata type).find? (isDiscriminator metadata discriminator) with
    | some candidate => .ok candidate
    | none => .error s!"Unknown Arc derived type: {metadata.name type}"

/-- The loop over the fields of an instance. -/
def decodeFields (decoders : List (String × Decoder ν)) :
    List WireField → Except String (List (String × Value ν))
  | [] => .ok []
  | field :: fields =>
      match decoders.lookup (wireName platform.toPlatform field.name) with
      | none => decodeFields decoders fields
      | some decode => do
          let value ← decode field.type field.element
          let rest ← decodeFields decoders fields
          .ok (rest ++ [(field.name, value)])

def decodeObject (type : ℕ) (discriminator : Value ν) (decoders : List (String × Decoder ν)) :
    Except String (Value ν) := do
  let actual ← decodedClass metadata type discriminator
  let properties ← decodeFields platform decoders (metadata.fieldsFor actual)
  .ok (.object actual (properties ++ metadata.initial actual))

/-- `decode` under a type that is no concept; `read` is that of a class. -/
def decodeScalar (value : Value ν) (type : WireType) (read : ℕ → Except String (Value ν)) :
    Except String (Value ν) :=
  match type, value with
  | .array, _ => .error "Array fields require an element type"
  | .number, .string text => .ok (.number (platform.numberOf text))
  | .string, value => .ok value
  | .number, value => .ok value
  | .boolean, value => .ok value
  | .class id, _ => read id
  | type, .string text =>
      match platform.parse type text with
      | some value => .ok value
      | none => .error s!"Invalid {type.name metadata}"
  | type, _ => .error s!"Invalid {type.name metadata}"

mutual

/-- Materialize a value that the schema has admitted. -/
def decode : Value ν → WireType → Option WireType → Except String (Value ν)
  | .null, _, _ => .ok .null
  | .undefined, _, _ => .ok .undefined
  | .array items, _, some element => do
      let decoded ← decodeItems items element
      .ok (.array decoded)
  | _, _, some _ => .error "value.map is not a function"
  | .object classId properties, type, none => do
      let decoded ← decodeScalar platform metadata (.object classId properties) type.scalar
        fun type => decodeObject platform metadata type
          ((properties.lookup "_derivedTypeId").getD .undefined) (decodeProperties properties)
      .ok (type.construct decoded)
  | value, type, none => do
      let decoded ← decodeScalar platform metadata value type.scalar fun type =>
        .error s!"Invalid Arc wire model: {metadata.name type}"
      .ok (type.construct decoded)

def decodeItems : List (Value ν) → WireType → Except String (List (Value ν))
  | [], _ => .ok []
  | item :: items, element => do
      let first ← decode item element none
      let rest ← decodeItems items element
      .ok (first :: rest)

def decodeProperties : List (String × Value ν) → List (String × Decoder ν)
  | [] => []
  | (name, value) :: properties =>
      (name, fun type element => decode value type element) :: decodeProperties properties

end

end Schema

end Arc.Reflection
