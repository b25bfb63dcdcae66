import Arc.Foundation.JsonStringify

/-!
# Column codecs

A column codec turns a value into what the driver is given and what the driver returns into a
value. The value types of Fundamentals are parameters, with their texts. A database returns what
was written, a UUID in its canonical text, and a JSON value parsed.
-/

namespace Arc.Drizzle

inductive DrizzleDialect
  | postgreSQL
  | mySQL
  | sqlite
  deriving DecidableEq, Repr

/-- Primitive stored by a Drizzle concept column. -/
inductive ConceptCodecKind
  | guid
  | number
  | string
  deriving DecidableEq, Repr

/-- A concept class; its static `valueType` is a primitive's, or something else. -/
structure ConceptType where
  name : String
  valueType : Option ConceptCodecKind
  deriving DecidableEq, Repr

/-- The value types of Fundamentals. -/
structure ValueTypes where
  Guid : Type
  DateOnly : Type
  TimeOnly : Type
  TimeSpan : Type

/-- A JavaScript value: the values of JSON, those of Fundamentals, dates, of which `date none` is
an invalid one, and the instances of other classes. -/
inductive ColumnValue (T : ValueTypes)
  | undefined
  | json (value : JsonValue)
  | guid (value : T.Guid)
  | dateOnly (value : T.DateOnly)
  | timeOnly (value : T.TimeOnly)
  | timeSpan (value : T.TimeSpan)
  | concept (type : ConceptType) (value : ColumnValue T)
  | date (time : Option ℤ)
  | object (classId : ℕ)

variable {T : ValueTypes}

/-- A string as a value. -/
abbrev ColumnValue.string (text : Units) : ColumnValue T := .json (.string text)

/-- A number as a value. -/
abbrev ColumnValue.number (value : Number) : ColumnValue T := .json (.number value)

/-- What Fundamentals and the platform compute: the texts of the value types and what is read of a
text, the texts of other objects, as strings and as JSON, and the time of a text. -/
structure Fundamentals (T : ValueTypes) where
  guidText : T.Guid → Units
  parseGuid : Units → Option T.Guid
  isGuid : Units → Bool
  dateOnlyText : T.DateOnly → Units
  parseDateOnly : Units → Option T.DateOnly
  timeOnlyText : T.TimeOnly → Units
  parseTimeOnly : Units → Option T.TimeOnly
  timeSpanText : T.TimeSpan → Units
  parseTimeSpan : Units → Option T.TimeSpan
  objectText : ColumnValue T → Units
  objectJson : ColumnValue T → Units
  parseDate : Units → Option ℤ

/-- `toString` and `parse` are inverse, and the text of an identifier is one. -/
structure Fundamentals.Inverse (F : Fundamentals T) : Prop where
  guid : ∀ value, F.parseGuid (F.guidText value) = some value
  isGuid : ∀ value, F.isGuid (F.guidText value) = true
  dateOnly : ∀ value, F.parseDateOnly (F.dateOnlyText value) = some value
  timeOnly : ∀ value, F.parseTimeOnly (F.timeOnlyText value) = some value
  timeSpan : ∀ value, F.parseTimeSpan (F.timeSpanText value) = some value

/-- What a conversion throws; the errors of the parsers and validators are their own. -/
inductive CodecError
  | typeError (message : String)
  | rangeError (message : String)
  | error (message : String)
  | foreign
  deriving DecidableEq, Repr

/-- The types of columns. -/
inductive SqlType
  | uuid
  | char36
  | text
  | varchar (length : Number)
  | real
  | double
  | doublePrecision
  | date
  | time
  | jsonb
  | json
  deriving DecidableEq

structure ColumnCodec (T : ValueTypes) where
  sqlType : SqlType
  toDriver : ColumnValue T → Except CodecError (ColumnValue T)
  fromDriver : ColumnValue T → Except CodecError (ColumnValue T)

/-- What a parser gives, or its error. -/
def parsed {α : Type} (value : Option α) (construct : α → ColumnValue T) :
    Except CodecError (ColumnValue T) :=
  match value with
  | some value => .ok (construct value)
  | none => .error .foreign

/-! ### Texts -/

/-- `String(value)` -/
def stringOf (F : Fundamentals T) : ColumnValue T → Units
  | .undefined => units "undefined"
  | .json .null => units "null"
  | .json (.boolean value) => units (if value then "true" else "false")
  | .json (.number .nan) => units "NaN"
  | .json (.number (.infinite negative)) => units (if negative then "-Infinity" else "Infinity")
  | .json (.number (.finite value)) => JsonText.asciiUnits (Number.finite value).jsonText
  | .json (.string text) => text
  | .guid value => F.guidText value
  | .dateOnly value => F.dateOnlyText value
  | .timeOnly value => F.timeOnlyText value
  | .timeSpan value => F.timeSpanText value
  | value => F.objectText value

/-! ### Codecs -/

section Codecs

variable (F : Fundamentals T)

/-- The parsers of Fundamentals refuse what is no text. -/
def parseText {α : Type} (parse : Units → Option α) (construct : α → ColumnValue T) :
    ColumnValue T → Except CodecError (ColumnValue T)
  | .json (.string text) => parsed (parse text) construct
  | _ => .error .foreign

def guidCodec (dialect : DrizzleDialect) : ColumnCodec T where
  sqlType :=
    match dialect with
    | .postgreSQL => .uuid
    | .mySQL => .char36
    | .sqlite => .text
  toDriver
    | .guid value => .ok (.string (F.guidText value))
    | _ => .error (.typeError "Guid is required")
  fromDriver := parseText F.parseGuid .guid

def dateOnlyCodec : ColumnCodec T where
  sqlType := .date
  toDriver value := .ok (.string (stringOf F value))
  fromDriver := parseText F.parseDateOnly .dateOnly

def timeOnlyCodec : ColumnCodec T where
  sqlType := .time
  toDriver value := .ok (.string (stringOf F value))
  fromDriver := parseText F.parseTimeOnly .timeOnly

def timeSpanCodec : ColumnCodec T where
  sqlType := .text
  toDriver value := .ok (.string (stringOf F value))
  fromDriver := parseText F.parseTimeSpan .timeSpan

/-- `typeof value === 'number' && Number.isFinite(value)` -/
def ColumnValue.isFiniteNumber : ColumnValue T → Bool
  | .json (.number value) => value.isFinite
  | _ => false

/-- `typeof value === 'string'` -/
def ColumnValue.isString : ColumnValue T → Bool
  | .json (.string _) => true
  | _ => false

/-- `concept.value` -/
def ColumnValue.primitive : ColumnValue T → ColumnValue T
  | .concept _ value => value
  | _ => .undefined

def ConceptCodecKind.text : ConceptCodecKind → String
  | .guid => "guid"
  | .number => "number"
  | .string => "string"

/-- A length that a MySQL string concept may have. -/
def isVarcharLength (length : Number) : Bool :=
  length.isSafeInteger && !length.less (.finite 1) && !(Number.finite 65535).less length

def conceptSqlType (kind : ConceptCodecKind) (dialect : DrizzleDialect)
    (varcharLength : Option Number) : SqlType :=
  match kind with
  | .number =>
      match dialect with
      | .sqlite => .real
      | .mySQL => .double
      | .postgreSQL => .doublePrecision
  | .guid => (guidCodec F dialect).sqlType
  | .string =>
      match varcharLength with
      | some length => .varchar length
      | none => .text

def conceptToDriver (kind : ConceptCodecKind) (dialect : DrizzleDialect) (concept : ColumnValue T) :
    Except CodecError (ColumnValue T) :=
  let primitive := concept.primitive
  match kind with
  | .number =>
      if primitive.isFiniteNumber then .ok primitive
      else .error (.typeError "Concept number must be finite")
  | .guid =>
      match primitive with
      | .guid value => (guidCodec F dialect).toDriver (.guid value)
      | primitive =>
          parsed (F.parseGuid (stringOf F primitive)) .guid >>= (guidCodec F dialect).toDriver
  | .string =>
      if primitive.isString then .ok primitive
      else .error (.typeError "Concept string is required")

def conceptFromDriver (type : ConceptType) (kind : ConceptCodecKind) (dialect : DrizzleDialect)
    (raw : ColumnValue T) : Except CodecError (ColumnValue T) :=
  match kind with
  | .guid => (.concept type ·) <$> (guidCodec F dialect).fromDriver (.string (stringOf F raw))
  | .number =>
      if raw.isFiniteNumber then .ok (.concept type raw)
      else .error (.typeError "Concept number must be finite")
  | .string =>
      if raw.isString then .ok (.concept type raw)
      else .error (.typeError "Concept string is required")

/-- String, finite number and UUID-backed concepts retain their concrete runtime type. -/
def conceptCodec (type : ConceptType) (kind : ConceptCodecKind) (dialect : DrizzleDialect)
    (varcharLength : Option Number) : Except CodecError (ColumnCodec T) :=
  if type.valueType ≠ some kind then
    .error (.typeError ("Concept " ++ type.name ++ " does not match " ++ kind.text))
  else if varcharLength.any fun length =>
      dialect != .mySQL || kind != .string || !isVarcharLength length then
    .error (.rangeError
      "varcharLength requires a MySQL string concept and a length between 1 and 65535")
  else
    .ok {
      sqlType := conceptSqlType F kind dialect varcharLength
      toDriver := conceptToDriver F kind dialect
      fromDriver := conceptFromDriver F type kind dialect }

/-- `JSON.stringify(value)`; `undefined` has no text. -/
def stringifyValue : ColumnValue T → ColumnValue T
  | .json value => .string (JsonText.stringify value)
  | .undefined => .undefined
  | value => .string (F.objectJson value)

/-- JSON/JSONB conversions with application-owned runtime validation for untrusted stored
content. -/
def jsonCodec (dialect : DrizzleDialect)
    (validate : ColumnValue T → Except CodecError (ColumnValue T)) : ColumnCodec T where
  sqlType :=
    match dialect with
    | .postgreSQL => .jsonb
    | .mySQL => .json
    | .sqlite => .text
  toDriver value := .ok (stringifyValue F value)
  fromDriver
    | .json (.string text) => parsed (JsonText.parse text) .json >>= validate
    | raw => validate raw

end Codecs

/-! ### Columns -/

/-- The name that Drizzle gives a custom column. -/
def customColumnType : DrizzleDialect → String
  | .postgreSQL => "PgCustomColumn"
  | .mySQL => "MySqlCustomColumn"
  | .sqlite => "SQLiteCustomColumn"

/-- A column, of a codec or of Drizzle's own. -/
structure Column (T : ValueTypes) where
  columnType : String
  codec : Option (ColumnCodec T)

/-- `pgColumn`, `mysqlColumn` and `sqliteColumn` -/
def customColumn (dialect : DrizzleDialect) (codec : ColumnCodec T) : Column T where
  columnType := customColumnType dialect
  codec := some codec

/-- The type of a custom column: SQLite has no dates and times. -/
def dataType (dialect : DrizzleDialect) (codec : ColumnCodec T) : SqlType :=
  if dialect = .sqlite ∧ (codec.sqlType = .date ∨ codec.sqlType = .time) then .text
  else codec.sqlType

/-- A value as it is bound through a column. -/
def Column.bind (column : Column T) (value : ColumnValue T) : Except CodecError (ColumnValue T) :=
  match column.codec with
  | some codec => codec.toDriver value
  | none => .ok value

/-- What the driver returns for what was written into a column of a type. -/
def stored (canonical : Units → Units) : SqlType → ColumnValue T → Except CodecError (ColumnValue T)
  | .uuid, .json (.string text) => .ok (.string (canonical text))
  | .jsonb, .json (.string text) => parsed (JsonText.parse text) .json
  | .json, .json (.string text) => parsed (JsonText.parse text) .json
  | _, value => .ok value

/-- A value that was written into a column and is read back. -/
def Column.roundTrip (canonical : Units → Units) (dialect : DrizzleDialect) (column : Column T)
    (value : ColumnValue T) : Except CodecError (ColumnValue T) :=
  match column.codec with
  | some codec =>
      codec.toDriver value >>= stored canonical (dataType dialect codec) >>= codec.fromDriver
  | none => .ok value

end Arc.Drizzle
