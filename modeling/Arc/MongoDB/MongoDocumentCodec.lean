import Mathlib.Data.Int.Notation
import Mathlib.Data.List.Basic
import Mathlib.Data.Nat.Notation

/-!
# The document codec

`MongoDocumentCodec` stores the instances of a model as documents and reads them back. A value is
stored by the type of its field, but what it is comes first: identifiers, days, times and spans
have their own form, an object that is of a derived type is stored as that type, and most types
are stored as they are. An object holds its own properties, of which the first with a name
counts.
-/

namespace Arc.MongoDB

/-- The sixteen bytes of an identifier. -/
def Guid : Type := { bytes : List UInt8 // bytes.length = 16 }

/-- A runtime type: a built-in one, one of the driver or of geometry, a concept with its value
type, or a class. -/
inductive ModelType
  | string
  | number
  | boolean
  | guid
  | date
  | dateOnly
  | timeOnly
  | timeSpan
  | objectId
  | binary
  | point
  | lineString
  | polygon
  | array
  | concept (id : ℕ) (valueType : ModelType)
  | «class» (id : ℕ)
  deriving DecidableEq, Repr

/-- A JavaScript value; `date none` is an invalid date, and concepts and objects tell their
class. -/
inductive ModelValue (ν : Type)
  | null
  | undefined
  | boolean (value : Bool)
  | number (value : ν)
  | bigint (value : ℤ)
  | string (value : String)
  | concept (classId : ℕ) (value : ModelValue ν)
  | guid (id : Guid)
  | date (time : Option ℤ)
  | dateOnly (year month day : ℤ)
  | timeOnly (hour minute second millisecond : ℤ)
  | timeSpan (ticks : ℤ)
  | objectId (text : String)
  | binary (subType : ℕ) (bytes : List UInt8)
  | decimal128 (text : String)
  | long (value : ℤ)
  | point (longitude latitude : ν)
  | lineString (coordinates : List (ν × ν))
  | polygon (shell : List (ν × ν)) (holes : List (List (ν × ν)))
  | array (items : List (ModelValue ν))
  | object (classId : ℕ) (properties : List (String × ModelValue ν))

/-- The properties of an object or a document. -/
abbrev Properties (ν : Type) := List (String × ModelValue ν)

/-- A declared field; `element` is the type of the elements of an array. -/
structure ModelField where
  name : String
  type : ModelType
  element : Option ModelType := none
  key : Bool := false
  deriving DecidableEq, Repr

/-- What is declared of the classes: their names, their fields with the inherited ones, the
classes derived from them, their discriminators, which are not empty, and what their constructors
set. -/
structure ModelMetadata (ν : Type) where
  name : ℕ → String
  fieldsFor : ℕ → List ModelField
  derivedTypesFor : ℕ → List ℕ
  derivedType : ℕ → Option String
  initial : ℕ → Properties ν

/-- What the platform computes: which numbers are finite and which are `===`, the number that is
exactly a `Decimal128` or a `Long`, the date of a day at noon and of a time on the first day, the
day and the time that the ISO text of a date has, and the texts of spans and identifiers. -/
structure DocumentPlatform (ν : Type) where
  isFinite : ν → Bool
  sameNumber : ν → ν → Bool
  decimalNumber : String → Option ν
  longNumber : ℤ → Option ν
  noonOf : ℤ → ℤ → ℤ → Option ℤ
  dayOf : ℤ → Option (ℤ × ℤ × ℤ)
  dateOf : ℤ → ℤ → ℤ → ℤ → Option ℤ
  clockOf : ℤ → Option (ℤ × ℤ × ℤ × ℤ)
  timeSpanText : ℤ → String
  parseTimeSpan : String → Option ℤ
  parseGuid : String → Option Guid
  toLowerCase : String → String
  text : ModelValue ν → String

variable {ν : Type}

/-! ### Types and values -/

/-- The type under the concepts of a type. -/
def ModelType.scalar : ModelType → ModelType
  | .concept _ valueType => valueType.scalar
  | type => type

def ModelType.valueType? : ModelType → Option ModelType
  | .concept _ valueType => some valueType
  | _ => none

/-- The value under the concepts of a type. -/
def ModelType.construct : ModelType → ModelValue ν → ModelValue ν
  | .concept id valueType, value => .concept id (valueType.construct value)
  | _, value => value

def ModelType.isGeometry : ModelType → Bool
  | .point => true
  | .lineString => true
  | .polygon => true
  | _ => false

/-- The types whose values are stored as they are. -/
def ModelType.isStored : ModelType → Bool
  | .date => true
  | .string => true
  | .number => true
  | .boolean => true
  | .objectId => true
  | .binary => true
  | _ => false

/-- `value == null` -/
def ModelValue.isNullish : ModelValue ν → Bool
  | .null => true
  | .undefined => true
  | _ => false

def ModelValue.isUndefined : ModelValue ν → Bool
  | .undefined => true
  | _ => false

def ModelValue.isPrimitive : ModelValue ν → Bool
  | .boolean _ => true
  | .number _ => true
  | .bigint _ => true
  | .string _ => true
  | _ => false

/-- `value instanceof type` for the types of geometry. -/
def ModelValue.isGeometry : ModelValue ν → ModelType → Bool
  | .point _ _, .point => true
  | .lineString _, .lineString => true
  | .polygon _ _, .polygon => true
  | _, _ => false

/-- The class of documents. -/
def plainClass : ℕ := 1

/-- `Binary.SUBTYPE_UUID` -/
def uuidSubType : ℕ := 4

def ModelType.name (metadata : ModelMetadata ν) : ModelType → String
  | .string => "String"
  | .number => "Number"
  | .boolean => "Boolean"
  | .guid => "Guid"
  | .date => "Date"
  | .dateOnly => "DateOnly"
  | .timeOnly => "TimeOnly"
  | .timeSpan => "TimeSpan"
  | .objectId => "ObjectId"
  | .binary => "Binary"
  | .point => "Point"
  | .lineString => "LineString"
  | .polygon => "Polygon"
  | .array => "Array"
  | .concept id _ => metadata.name id
  | .class id => metadata.name id

/-! ### Geometry -/

section Geometry

variable (platform : DocumentPlatform ν)

def encodePoint (point : ν × ν) : Except String (ModelValue ν) :=
  if platform.isFinite point.1 && platform.isFinite point.2 then
    .ok (.array [.number point.1, .number point.2])
  else .error "Invalid GeoJSON coordinate"

/-- At least four points, the last one the first. -/
def isClosed (ring : List (ν × ν)) : Bool :=
  decide (4 ≤ ring.length) &&
    match ring.head?, ring.getLast? with
    | some first, some last =>
        platform.sameNumber first.1 last.1 && platform.sameNumber first.2 last.2
    | _, _ => false

def encodeRing (ring : List (ν × ν)) : Except String (ModelValue ν) := do
  let coordinates ← ring.mapM (encodePoint platform)
  if isClosed platform ring then .ok (.array coordinates)
  else .error "GeoJSON Polygon rings must be closed"

def geometry (type : String) (coordinates : ModelValue ν) : ModelValue ν :=
  .object plainClass [("type", .string type), ("coordinates", coordinates)]

def encodeGeometry : ModelValue ν → Except String (ModelValue ν)
  | .point longitude latitude => do
      let coordinates ← encodePoint platform (longitude, latitude)
      .ok (geometry "Point" coordinates)
  | .lineString coordinates =>
      if coordinates.length < 2 then .error "GeoJSON LineString requires at least two points"
      else do
        let coordinates ← coordinates.mapM (encodePoint platform)
        .ok (geometry "LineString" (.array coordinates))
  | .polygon shell holes => do
      let rings ← (shell :: holes).mapM (encodeRing platform)
      .ok (geometry "Polygon" (.array rings))
  | _ => .error "Invalid GeoJSON coordinate"

def readPoint : ModelValue ν → Except String (ν × ν)
  | .array [.number longitude, .number latitude] =>
      if platform.isFinite longitude && platform.isFinite latitude then .ok (longitude, latitude)
      else .error "Invalid GeoJSON coordinate"
  | _ => .error "Invalid GeoJSON coordinate"

def readRing : ModelValue ν → Except String (List (ν × ν))
  | .array coordinates =>
      if coordinates.length < 4 then .error "GeoJSON Polygon rings require four points"
      else do
        let points ← coordinates.mapM (readPoint platform)
        if isClosed platform points then .ok points
        else .error "GeoJSON Polygon rings must be closed"
  | _ => .error "GeoJSON Polygon rings require four points"

/-- The `type` and the `coordinates` of a document. -/
def geometryOf : ModelValue ν → Option (String × List (ModelValue ν))
  | .object _ properties =>
      match properties.lookup "type", properties.lookup "coordinates" with
      | some (.string type), some (.array coordinates) => some (type, coordinates)
      | _, _ => none
  | _ => none

def decodeGeometry (metadata : ModelMetadata ν) (type : ModelType) (document : ModelValue ν) :
    Except String (ModelValue ν) :=
  match geometryOf document with
  | none =>
      if document.isPrimitive then .error "Invalid MongoDB GeoJSON geometry"
      else .error s!"Expected GeoJSON {type.name metadata}"
  | some (name, coordinates) =>
      if name ≠ type.name metadata then .error s!"Expected GeoJSON {type.name metadata}"
      else
        match type with
        | .point => do
            let point ← readPoint platform (.array coordinates)
            .ok (.point point.1 point.2)
        | .lineString =>
            if coordinates.length < 2 then .error "GeoJSON LineString requires at least two points"
            else do
              let points ← coordinates.mapM (readPoint platform)
              .ok (.lineString points)
        | _ =>
            match coordinates with
            | [] => .error "GeoJSON Polygon requires a shell"
            | first :: rest => do
                let shell ← readRing platform first
                let holes ← rest.mapM (readRing platform)
                .ok (.polygon shell holes)

end Geometry

/-! ### `encodeObject` and `encodeValue` -/

section Encoding

variable (platform : DocumentPlatform ν) (metadata : ModelMetadata ν)

/-- A property with what `encodeValue` makes of it under a type. -/
structure Content (ν : Type) where
  value : ModelValue ν
  encode : ModelType → Option ModelType → Except String (ModelValue ν)

/-- The loop of `encodeObject`: a later field takes the place of an earlier one. -/
def encodeFields (nameOf : String → String) (contents : List (String × Content ν)) :
    List ModelField → Except String (Properties ν)
  | [] => .ok []
  | field :: fields =>
      match contents.lookup field.name with
      | none => encodeFields nameOf contents fields
      | some content =>
          if content.value.isUndefined then encodeFields nameOf contents fields
          else do
            let encoded ← content.encode field.type field.element
            let rest ← encodeFields nameOf contents fields
            .ok (rest ++ [(nameOf field.name, encoded)])

def encodeObject (nameOf : String → String) (type : ℕ) (contents : List (String × Content ν)) :
    Except String (Properties ν) := do
  let result ← encodeFields nameOf contents (metadata.fieldsFor type)
  match metadata.derivedType type with
  | none => .ok result
  | some derived => .ok (("_derivedTypeId", .string derived) :: result)

/-- `encodeValue` of a value that is no concept, under a type that is none; `store` is
`encodeObject` for a class. -/
def encodeScalar (value : ModelValue ν) (type : ModelType)
    (store : ℕ → Except String (Properties ν)) : Except String (ModelValue ν) :=
  match type, value with
  | .guid, .string text =>
      match platform.parseGuid text with
      | some id => .ok (.binary uuidSubType id.val)
      | none => .error "Invalid MongoDB Guid identity"
  | _, .guid id => .ok (.binary uuidSubType id.val)
  | _, .dateOnly year month day => .ok (.date (platform.noonOf year month day))
  | _, .timeOnly hour minute second millisecond =>
      .ok (.date (platform.dateOf hour minute second millisecond))
  | _, .timeSpan ticks => .ok (.string (platform.timeSpanText ticks))
  | type, value =>
      if type.isGeometry then
        if value.isGeometry type then encodeGeometry platform value
        else .error s!"Expected MongoDB {type.name metadata}"
      else if type.isStored then .ok value
      else
        match type with
        | .class id =>
            if (metadata.fieldsFor id).isEmpty then
              .error s!"Unsupported MongoDB model type: {type.name metadata}"
            else do
              let document ← store id
              .ok (.object plainClass document)
        | _ => .error s!"Unsupported MongoDB model type: {type.name metadata}"

variable (propertyName : String → String)

mutual

def encodeValue : ModelValue ν → ModelType → Option ModelType → Except String (ModelValue ν)
  | .null, _, _ => .ok .null
  | .undefined, _, _ => .ok .undefined
  | .array items, _, some element => do
      let encoded ← encodeItems items element
      .ok (.array encoded)
  | _, _, some _ => .error "value.map is not a function"
  | .concept _ value, type, none =>
      match type.valueType? with
      | some valueType => encodeValue value valueType none
      | none =>
          if value.isNullish then .ok value
          else .error "Cannot read properties of undefined (reading 'prototype')"
  | .object classId properties, type, none =>
      encodeScalar platform metadata (.object classId properties) type.scalar fun type =>
        encodeObject metadata propertyName
          (if (metadata.derivedType classId).isSome then classId else type)
          (encodeProperties properties)
  | value, type, none =>
      encodeScalar platform metadata value type.scalar fun type =>
        if value.isPrimitive then .error "Reflect.get called on non-object"
        else encodeObject metadata propertyName type []

def encodeItems : List (ModelValue ν) → ModelType → Except String (List (ModelValue ν))
  | [], _ => .ok []
  | item :: items, element => do
      let first ← encodeValue item element none
      let rest ← encodeItems items element
      .ok (first :: rest)

def encodeProperties : List (String × ModelValue ν) → List (String × Content ν)
  | [] => []
  | (name, value) :: properties =>
      (name, ⟨value, fun type element => encodeValue value type element⟩) ::
        encodeProperties properties

end

end Encoding

/-! ### `decodeObject` and `decodeValue` -/

section Decoding

variable (platform : DocumentPlatform ν) (metadata : ModelMetadata ν)

/-- What `decodeValue` makes of a property under a type. -/
abbrev Reading (ν : Type) := ModelType → Option ModelType → Except String (ModelValue ν)

def isDerivedType (identifier : ModelValue ν) (candidate : ℕ) : Bool :=
  match metadata.derivedType candidate, identifier with
  | some declared, .string text =>
      if (platform.parseGuid declared).isSome && (platform.parseGuid text).isSome then
        platform.toLowerCase declared = platform.toLowerCase text
      else declared = text
  | _, _ => false

/-- The class of the instance a document is read as. -/
def actualType (type : ℕ) (identifier : ModelValue ν) : Except String ℕ :=
  if identifier.isNullish || (metadata.derivedTypesFor type).isEmpty then .ok type
  else
    match (metadata.derivedTypesFor type).find? (isDerivedType platform metadata identifier) with
    | some actual => .ok actual
    | none => .error s!"Unknown MongoDB derived type: {platform.text identifier}"

/-- The loop of `decodeObject`. -/
def decodeFields (nameOf : String → String) (readings : List (String × Reading ν)) :
    List ModelField → Except String (Properties ν)
  | [] => .ok []
  | field :: fields =>
      match readings.lookup (nameOf field.name) with
      | none => decodeFields nameOf readings fields
      | some decode => do
          let decoded ← decode field.type field.element
          let rest ← decodeFields nameOf readings fields
          .ok (rest ++ [(field.name, decoded)])

def decodeObject (nameOf : String → String) (type : ℕ) (identifier : ModelValue ν)
    (readings : List (String × Reading ν)) : Except String (ModelValue ν) := do
  let actual ← actualType platform metadata type identifier
  let result ← decodeFields nameOf readings (metadata.fieldsFor actual)
  .ok (.object actual (result ++ metadata.initial actual))

/-- `decodeValue` under a type that is no concept; `read` is `decodeObject` for a class. -/
def decodeScalar (value : ModelValue ν) (type : ModelType)
    (read : ℕ → Except String (ModelValue ν)) : Except String (ModelValue ν) :=
  match type, value with
  | .guid, .binary subType bytes =>
      if h : subType = uuidSubType ∧ bytes.length = 16 then .ok (.guid ⟨bytes, h.2⟩)
      else .error "MongoDB Guid requires standard UUID binary"
  | .guid, _ => .error "MongoDB Guid requires standard UUID binary"
  | .dateOnly, .date time =>
      match time.bind platform.dayOf with
      | some (year, month, day) => .ok (.dateOnly year month day)
      | none => .error "Invalid time value"
  | .dateOnly, _ => .error "value.toISOString is not a function"
  | .timeOnly, .date time =>
      match time.bind platform.clockOf with
      | some (hour, minute, second, millisecond) => .ok (.timeOnly hour minute second millisecond)
      | none => .error "Invalid time value"
  | .timeOnly, _ => .error "value.toISOString is not a function"
  | .timeSpan, .string text =>
      match platform.parseTimeSpan text with
      | some ticks => .ok (.timeSpan ticks)
      | none => .error "Invalid time span"
  | .timeSpan, _ => .error "Invalid time span"
  | .point, value => decodeGeometry platform metadata .point value
  | .lineString, value => decodeGeometry platform metadata .lineString value
  | .polygon, value => decodeGeometry platform metadata .polygon value
  | .number, .decimal128 text =>
      match platform.decimalNumber text with
      | some number => .ok (.number number)
      | none =>
          .error "MongoDB number cannot be represented exactly as a JavaScript number"
  | .number, .long value =>
      match platform.longNumber value with
      | some number => .ok (.number number)
      | none =>
          .error "MongoDB number cannot be represented exactly as a JavaScript number"
  | .number, .number value =>
      if platform.isFinite value then .ok (.number value)
      else .error "MongoDB number must be finite"
  | .number, _ => .error "MongoDB number must be finite"
  | .date, value => .ok value
  | .string, value => .ok value
  | .boolean, value => .ok value
  | .objectId, value => .ok value
  | .binary, value => .ok value
  | .class id, _ =>
      if (metadata.fieldsFor id).isEmpty then
        .error s!"Unsupported MongoDB model type: {metadata.name id}"
      else read id
  | type, _ => .error s!"Unsupported MongoDB model type: {type.name metadata}"

variable (propertyName : String → String)

mutual

def decodeValue : ModelValue ν → ModelType → Option ModelType → Except String (ModelValue ν)
  | .null, _, _ => .ok .null
  | .undefined, _, _ => .ok .undefined
  | .array items, _, some element => do
      let decoded ← decodeItems items element
      .ok (.array decoded)
  | _, _, some _ => .error "value.map is not a function"
  | .object classId properties, type, none => do
      let decoded ← decodeScalar platform metadata (.object classId properties) type.scalar
        fun type => decodeObject platform metadata propertyName type
          ((properties.lookup "_derivedTypeId").getD .undefined) (decodeProperties properties)
      .ok (type.construct decoded)
  | value, type, none => do
      let decoded ← decodeScalar platform metadata value type.scalar fun type =>
        decodeObject platform metadata propertyName type .undefined []
      .ok (type.construct decoded)

def decodeItems : List (ModelValue ν) → ModelType → Except String (List (ModelValue ν))
  | [], _ => .ok []
  | item :: items, element => do
      let first ← decodeValue item element none
      let rest ← decodeItems items element
      .ok (first :: rest)

def decodeProperties : List (String × ModelValue ν) → List (String × Reading ν)
  | [] => []
  | (name, value) :: properties =>
      (name, fun type element => decodeValue value type element) :: decodeProperties properties

end

end Decoding

/-! ### The codec -/

/-- A codec of a model: its class, its key, and the names of properties. -/
structure MongoDocumentCodec where
  type : ℕ
  key : String
  ignoreConventions : Bool := false
  propertyName : String → String

namespace MongoDocumentCodec

/-- The constructor. -/
def create (metadata : ModelMetadata ν) (type : ℕ) (ignoreConventions : Bool)
    (propertyName : String → String) : Except String MongoDocumentCodec :=
  let fields := metadata.fieldsFor type
  let keys := fields.filter ModelField.key
  let conventional := fields.find? fun field => field.name = "id" ∨ field.name = "_id"
  if fields.isEmpty && !ignoreConventions then
    .error s!"MongoDB model {metadata.name type} requires @field metadata"
  else if 1 < keys.length then
    .error s!"MongoDB model {metadata.name type} declares multiple keys"
  else if !ignoreConventions && keys.isEmpty && conventional.isNone then
    .error s!"MongoDB model {metadata.name type} requires @key() or an id field"
  else .ok
    { type, ignoreConventions, propertyName
      key := ((keys.head? <|> conventional).map ModelField.name).getD "_id" }

/-- The name of a property of the root. -/
def rootName (codec : MongoDocumentCodec) (name : String) : String :=
  if name = codec.key then "_id" else codec.propertyName name

variable (platform : DocumentPlatform ν) (metadata : ModelMetadata ν) (codec : MongoDocumentCodec)

/-- The property is `null`, or missing. -/
def isMissing (properties : Properties ν) (name : String) : Bool :=
  ((properties.lookup name).getD .undefined).isNullish

/-- Encode an instance of a class. -/
def serialize (classId : ℕ) (value : Properties ν) : Except String (Properties ν) :=
  if codec.ignoreConventions then .ok value
  else if isMissing value codec.key then
    .error s!"MongoDB model {metadata.name codec.type} requires a key value"
  else do
    let document ← encodeObject metadata codec.rootName
      (if (metadata.fieldsFor classId).isEmpty then codec.type else classId)
      (encodeProperties platform metadata codec.propertyName value)
    if isMissing document "_id" then
      .error s!"MongoDB model {metadata.name codec.type} requires a key value"
    else .ok document

/-- Materialize a document as an instance of the model. -/
def deserialize (document : Properties ν) : Except String (ModelValue ν) :=
  if codec.ignoreConventions then
    .ok (.object codec.type (document ++ metadata.initial codec.type))
  else if (document.lookup "_id").isNone then
    .error s!"MongoDB model {metadata.name codec.type} is missing _id"
  else decodeObject platform metadata codec.rootName codec.type
    ((document.lookup "_derivedTypeId").getD .undefined)
    (decodeProperties platform metadata codec.propertyName document)

end MongoDocumentCodec

end Arc.MongoDB
