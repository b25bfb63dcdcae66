import Arc.Queries.ReadModelInterception
import Arc.Reflection.WireValue

/-!
# Queries of a wire type

A query of a wire type encodes what it returns. `render` chooses the path: without interceptors
the data is encoded and the wire form of it is sorted and paged, with interceptors the items
themselves are, and what is left of them is encoded. The value of each object of the heap is its
tree of properties.
-/

namespace Arc.Queries

open Arc.Reflection

variable {ν μ : Type}

/-! ### Sorting by a field -/

/-- The names of the driver types that are sorted by. -/
def bsonScalars : List String :=
  ["ObjectId", "Decimal128", "Long", "Int32", "Double", "Binary", "UUID", "Timestamp"]

/-- The `_bsontype` of an object: its own, or that of its class. -/
def bsonTypeOf (metadata : TypeMetadata) (classId : ℕ) (properties : List (String × Value ν)) :
    Option String :=
  match properties.lookup "_bsontype" with
  | some (.string name) => some name
  | some _ => none
  | none => metadata.bsonType classId

def isScalarSortValue (metadata : TypeMetadata) : Value ν → Bool
  | .concept _ value => isScalarSortValue metadata value
  | .object classId properties =>
      (bsonTypeOf metadata classId properties).any fun name => bsonScalars.contains name
  | .array _ => false
  | _ => true

def unwrap : Value ν → Value ν
  | .concept _ value => unwrap value
  | value => value

/-- `left == null` -/
def isNullish : Value ν → Bool
  | .null => true
  | .undefined => true
  | _ => false

/-- The sign of `compareValues`. -/
def compareValues (platform : Platform ν) (left right : Value ν) : Ordering :=
  match unwrap left, unwrap right with
  | .date (some first), .date (some second) => compare first second
  -- the time of an invalid date is no number, and neither is the difference
  | .date _, .date _ => .eq
  | left, right =>
      if isNullish left then if isNullish right then .eq else .lt
      else if isNullish right then .gt
      else
        match left, right with
        | .dateOnly year month day, .dateOnly year' month' day' =>
            (compare year year').then ((compare month month').then (compare day day'))
        | .timeOnly hour minute second millisecond, .timeOnly hour' minute' second' millisecond' =>
            (compare hour hour').then ((compare minute minute').then
              ((compare second second').then (compare millisecond millisecond')))
        | .timeSpan ticks, .timeSpan ticks' => compare ticks ticks'
        | .number first, .number second => platform.compareNumbers first second
        | .bigint first, .bigint second => compare first second
        | .boolean first, .boolean second => compare first.toNat second.toNat
        | left, right => platform.localeCompare (platform.text left) (platform.text right)

/-- An own property of an object; a concept has its value. -/
def ownValue : Value ν → String → Option (Value ν)
  | .object _ properties, name => properties.lookup name
  | .concept _ value, name => if name = "value" then some value else none
  | _, _ => none

def valueFields (platform : Platform ν) (metadata : TypeMetadata) : Fields (Value ν) (Value ν) where
  get := ownValue
  isScalarSortValue := isScalarSortValue metadata
  compareValues := compareValues platform

/-! ### The definition of a query -/

/-- The value of each object of the heap. -/
abbrev ObjectValues (ν : Type) := ℕ → Value ν

def valueOf (world : World (ObjectValues ν)) : JsValue → Value ν
  | .scalar text => .string text
  | .object reference => world.state reference

def itemFields (platform : Platform ν) (metadata : TypeMetadata)
    (world : World (ObjectValues ν)) : Fields JsValue (Value ν) where
  get := fun item => ownValue (valueOf world item)
  isScalarSortValue := isScalarSortValue metadata
  compareValues := compareValues platform

/-- The field with the wire name of a sort request. -/
def fieldName (platform : Platform ν) (metadata : TypeMetadata) (type : ℕ) (field : String) :
    String :=
  (((metadata.fieldsFor type).find? fun candidate =>
    wireName platform candidate.name = field).map WireField.name).getD field

def encodeItem (platform : Platform ν) (metadata : TypeMetadata) (type : ℕ)
    (world : World (ObjectValues ν)) (item : JsValue) : Except String (Value ν) :=
  encode platform metadata (valueOf world item) (some (.class type)) none

def encodeData (platform : Platform ν) (metadata : TypeMetadata) (type : ℕ)
    (world : World (ObjectValues ν)) : QueryData JsValue → Except String (QueryData (Value ν))
  | .page page => do
      let items ← page.items.mapM (encodeItem platform metadata type world)
      let encoded ← queryPage items page.totalItems page.sorting
      .ok (.page encoded)
  | .array items => do
      let encoded ← items.mapM (encodeItem platform metadata type world)
      .ok (.array encoded)
  | .single value => do
      let encoded ← encode platform metadata (valueOf world value) (some (.class type))
        (some (.class type))
      .ok (.single encoded)

/-- The definition of a query whose wire type is a class. -/
def wireQuery (platform : Platform ν) (metadata : TypeMetadata) (type : ℕ)
    (clientOutput : Option (ClientOutput (Value ν))) :
    QueryDefinition (ObjectValues ν) (Value ν) (Value ν) where
  rawFields := itemFields platform metadata
  fields := valueFields platform metadata
  fieldName := fieldName platform metadata type
  encode := encodeData platform metadata type
  clientOutput := clientOutput

/-- The path of `renderQuery` without interceptors. -/
def renderUnintercepted {ω α β : Type} (definition : QueryDefinition ω α β) (malformed : List μ)
    (correlationId : String) (options : QueryOptions) (world : World ω)
    (data : QueryData JsValue) : Except String (QueryResult (Rendered α) μ) := do
  throwIfCanceled world
  let wire ← definition.encode world data
  match renderQueryData definition.fields definition.clientOutput malformed wire correlationId
      options with
  | some result => .ok result
  | none => .error "Client output does not match"

/-- `renderQuery` once its renderers have run. -/
def render {ω α β : Type} (definition : QueryDefinition ω α β)
    (interceptors : List (ReadModelInterceptor ω)) (tenantId : Option String) (malformed : List μ)
    (correlationId : String) (options : QueryOptions) (world : World ω)
    (data : QueryData JsValue) : Except String (QueryResult (Rendered α) μ) :=
  if interceptors.isEmpty then
    renderUnintercepted definition malformed correlationId options world data
  else renderQuery definition interceptors tenantId malformed correlationId options world data

end Arc.Queries
