import Arc.Drizzle.ColumnCodec

/-!
# The model codec

`DrizzleModelCodec` materializes the declared fields of a model from a row, whose columns Drizzle
has decoded, and converts a command's key to the type of its column.
-/

namespace Arc.Drizzle

/-- The type of a field. -/
inductive FieldType
  | string
  | number
  | boolean
  | date
  | guid
  | dateOnly
  | timeOnly
  | timeSpan
  | array
  | object
  | concept (type : ConceptType)
  | «class» (id : ℕ) (name : String)
  deriving DecidableEq, Repr

structure WireField where
  name : String
  type : FieldType
  deriving DecidableEq, Repr

def FieldType.name : FieldType → String
  | .string => "String"
  | .number => "Number"
  | .boolean => "Boolean"
  | .date => "Date"
  | .guid => "Guid"
  | .dateOnly => "DateOnly"
  | .timeOnly => "TimeOnly"
  | .timeSpan => "TimeSpan"
  | .array => "Array"
  | .object => "Object"
  | .concept type => type.name
  | .class _ name => name

def ConceptCodecKind.constructorName : ConceptCodecKind → String
  | .guid => "Guid"
  | .number => "Number"
  | .string => "String"

variable {T : ValueTypes}

def ColumnValue.isUndefined : ColumnValue T → Bool
  | .undefined => true
  | _ => false

/-- `value == null` -/
def ColumnValue.isNullish : ColumnValue T → Bool
  | .undefined => true
  | .json .null => true
  | _ => false

def ColumnValue.isObject : ColumnValue T → Bool
  | .undefined => false
  | .json (.array _) => true
  | .json (.object _) => true
  | .json _ => false
  | _ => true

/-- `value instanceof type` -/
def ColumnValue.instanceOf : ColumnValue T → FieldType → Bool
  | .guid _, .guid => true
  | .dateOnly _, .dateOnly => true
  | .timeOnly _, .timeOnly => true
  | .timeSpan _, .timeSpan => true
  | .date _, .date => true
  | .json (.array _), .array => true
  | .concept type _, .concept other => type = other
  | .object id, .class other _ => id = other
  | value, .object => value.isObject
  | _, _ => false

/-- The types of primitives and dates, which a value is checked against and never converted
to. -/
def FieldType.isChecked : FieldType → Bool
  | .string => true
  | .number => true
  | .boolean => true
  | .date => true
  | _ => false

/-- Whether a value is of a type that is checked. -/
def ColumnValue.matches : ColumnValue T → FieldType → Bool
  | value, .string => value.isString
  | value, .number => value.isFiniteNumber
  | .json (.boolean _), .boolean => true
  | .date (some _), .date => true
  | _, _ => false

/-- The primitive of a concept of a kind. -/
def ConceptCodecKind.accepts : ConceptCodecKind → ColumnValue T → Bool
  | .number, value => value.isFiniteNumber
  | .string, value => value.isString
  | .guid, .guid _ => true
  | .guid, _ => false

structure DrizzleModelCodec (T : ValueTypes) where
  typeName : String
  fields : List WireField
  columns : String → Option (Column T)

namespace DrizzleModelCodec

section Codec

variable (F : Fundamentals T)

/-- The constructor. -/
def create (typeName : String) (fields : List WireField) (columns : String → Option (Column T)) :
    Except CodecError (DrizzleModelCodec T) :=
  if fields.isEmpty then
    .error (.error ("Drizzle model " ++ typeName ++ " requires @field metadata"))
  else
    match fields.find? fun field => (columns field.name).isNone with
    | some field =>
        .error (.error ("Drizzle model " ++ typeName ++ " has no column for field: " ++ field.name))
    | none => .ok ⟨typeName, fields, columns⟩

/-- A primitive that is read for a concept of a kind. -/
def conceptPrimitive (kind : ConceptCodecKind) (value : ColumnValue T) :
    Except CodecError (ColumnValue T) :=
  match kind, value with
  | .guid, .guid value => .ok (.guid value)
  | .guid, value => parsed (F.parseGuid (stringOf F value)) .guid
  | _, value => .ok value

def convert (field : WireField) (value : ColumnValue T) : Except CodecError (ColumnValue T) :=
  match field.type with
  | .guid => parsed (F.parseGuid (stringOf F value)) .guid
  | .dateOnly => parsed (F.parseDateOnly (stringOf F value)) .dateOnly
  | .timeOnly => parsed (F.parseTimeOnly (stringOf F value)) .timeOnly
  | .timeSpan => parsed (F.parseTimeSpan (stringOf F value)) .timeSpan
  | .concept type =>
      match type.valueType with
      | none =>
          .error (.typeError ("Drizzle concept " ++ type.name ++ " requires static valueType"))
      | some expected => do
          let primitive ← conceptPrimitive F expected value
          if expected.accepts primitive then .ok (.concept type primitive)
          else .error (.typeError
            ("Drizzle field " ++ field.name ++ " requires " ++ expected.constructorName))
  | type =>
      if !type.isChecked then .ok value
      else if value.matches type then .ok value
      else .error (.typeError ("Drizzle field " ++ field.name ++ " requires " ++ type.name))

/-- The value that a field is set to. -/
def fieldValue (field : WireField) (raw : ColumnValue T) : Except CodecError (ColumnValue T) :=
  if raw.isNullish || (!field.type.isChecked && raw.instanceOf field.type) then .ok raw
  else convert F field raw

/-- The fields of a model in turn; the properties of the model are a function of their names. -/
def setFields (row : String → ColumnValue T) :
    List WireField → (String → ColumnValue T) → Except CodecError (String → ColumnValue T)
  | [], model => .ok model
  | field :: fields, model =>
      if (row field.name).isUndefined then
        .error (.error ("Drizzle row is missing field: " ++ field.name))
      else do
        let value ← fieldValue F field (row field.name)
        setFields row fields (Function.update model field.name value)

/-- `initial` is what the constructor of the model sets. -/
def deserialize (codec : DrizzleModelCodec T) (initial row : String → ColumnValue T) :
    Except CodecError (String → ColumnValue T) :=
  setFields F row codec.fields initial

/-- `/^-?\d+$/` -/
def isIntegerText : Units → Bool
  | 0x2D :: digits => !digits.isEmpty && digits.all JsonText.isDigit
  | digits => !digits.isEmpty && digits.all JsonText.isDigit

/-- `Number(key)` for the texts of that pattern. -/
def integerOf : Units → Number
  | 0x2D :: digits => .ofRat (-(JsonText.digitsValue digits : ℚ))
  | digits => .ofRat (JsonText.digitsValue digits)

/-- The type that a key is read as. -/
def keyType : FieldType → FieldType
  | .concept type =>
      match type.valueType with
      | some .guid => .guid
      | some .number => .number
      | some .string => .string
      | none => .object
  | type => type

def keyPrimitive (type : FieldType) (key : Units) : Except CodecError (ColumnValue T) :=
  match type with
  | .number =>
      if !isIntegerText key || !(integerOf key).isSafeInteger then
        .error (.typeError "Invalid Drizzle number key")
      else .ok (.number (integerOf key))
  | .guid =>
      if !F.isGuid key then .error (.typeError "Invalid Drizzle Guid key")
      else parsed (F.parseGuid key) .guid
  | .date => .ok (.date (F.parseDate key))
  | _ => .ok (.string key)

/-- The primitive of a concept, and the text of an identifier. -/
def plain (typed : ColumnValue T) : ColumnValue T :=
  match typed with
  | .concept _ (.guid value) => .string (F.guidText value)
  | .concept _ value => value
  | .guid value => .string (F.guidText value)
  | value => value

/-- `columnType.endsWith('CustomColumn')` -/
def isCustom (columnType : String) : Bool := "CustomColumn".toList.isSuffixOf columnType.toList

/-- Convert a command key to the type expected by its Drizzle column. -/
def keyValue (codec : DrizzleModelCodec T) (name : String) (key : Units) :
    Except CodecError (ColumnValue T) :=
  match codec.fields.find? fun candidate => candidate.name = name with
  | none => .error (.error ("Drizzle model " ++ codec.typeName ++
      " requires @field metadata for primary key: " ++ name))
  | some field => do
      let primitive ← keyPrimitive F (keyType field.type) key
      let typed ← convert F field primitive
      match codec.columns name with
      | none => .error .foreign
      | some column => if isCustom column.columnType then .ok typed else .ok (plain F typed)

end Codec

end DrizzleModelCodec

end Arc.Drizzle
