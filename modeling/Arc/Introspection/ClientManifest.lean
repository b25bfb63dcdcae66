import Arc.Http.RouteTable
import Arc.Introspection.ClientTypes
import Mathlib.Algebra.GroupWithZero.Nat
import Mathlib.Data.List.Infix

/-!
# The client manifest

A manifest is parsed operation by operation, its sanitized copy is measured, and the operations
are registered one after the other: an operation is refused when its id, its generated symbol or
one of its routes is taken. What is returned is sorted by id.
-/

namespace Arc.Introspection

inductive ClientOperationKind
  | command
  | query
  | observable
  deriving DecidableEq

inductive ClientAuthentication
  | anonymous
  | authenticated
  | default
  deriving DecidableEq

def ClientOperationKind.text : ClientOperationKind → Text
  | .command => "command".toList
  | .query => "query".toList
  | .observable => "observable".toList

def ClientAuthentication.text : ClientAuthentication → Text
  | .anonymous => "anonymous".toList
  | .authenticated => "authenticated".toList
  | .default => "default".toList

structure ClientOperation where
  id : Text
  kind : ClientOperationKind
  route : Text
  methods : List Text
  queryName : Option Text
  roles : List Text
  authentication : ClientAuthentication
  dynamicAuthorization : Bool
  input : List ClientField
  output : ClientType

structure ClientManifest where
  operations : List ClientOperation

/-- An array of strings. -/
def textsRaw (texts : List Text) : Raw := .array (texts.map .string)

/-- An operation as it stands in the manifest. -/
def ClientOperation.toRaw (operation : ClientOperation) : Raw :=
  .object ([("id", .string operation.id), ("kind", .string operation.kind.text),
      ("route", .string operation.route), ("methods", textsRaw operation.methods)] ++
    (match operation.queryName with
      | some queryName => [("queryName", .string queryName)]
      | none => []) ++
    [("roles", textsRaw operation.roles),
      ("authentication", .string operation.authentication.text),
      ("dynamicAuthorization", .boolean operation.dynamicAuthorization),
      ("input", .array (operation.input.map ClientField.toRaw)),
      ("output", operation.output.toRaw)])

/-- A manifest with the given operations. -/
def manifest (operations : List Raw) : Raw :=
  .object [("product", .string "@cratis/arc.core".toList), ("version", .number 1),
    ("operations", .array operations)]

def ClientManifest.toRaw (value : ClientManifest) : Raw :=
  manifest (value.operations.map ClientOperation.toRaw)

/-! ### An operation -/

def operationKeys : List String :=
  ["id", "kind", "route", "methods", "queryName", "roles", "authentication",
    "dynamicAuthorization", "input", "output"]

def observableOnlyArguments : List String := ["waitforfirstresult", "waitforfirstresulttimeout"]

def validateKind : Raw → Except Failure ClientOperationKind
  | .string kind =>
      if kind = "command".toList then .ok .command
      else if kind = "query".toList then .ok .query
      else if kind = "observable".toList then .ok .observable
      else fail "invalid operation kind"
  | _ => fail "invalid operation kind"

def isRouteChar (c : Char) : Bool := isLetter c || isDigit c || c == '/' || c == '_' || c == '-'

/-- `/^\/(?!\/)[a-zA-Z0-9/_-]+$/`. -/
def isFixedRoute : Text → Bool
  | '/' :: c :: rest => c ≠ '/' && (c :: rest).all isRouteChar
  | _ => false

def isSafeRoute (route : Text) : Bool :=
  unitLength route ≤ 1024 && isFixedRoute route && !decide (['.', '.'] <:+: route) &&
    !decide (['/', '/'] <:+: route)

def validateRoute : Raw → Except Failure Text
  | .string route => if isSafeRoute route then .ok route else fail "unsafe fixed route"
  | _ => fail "unsafe fixed route"

def expectedMethods (kind : ClientOperationKind) (declared : Raw) : List Text :=
  if kind = .command then ["POST".toList]
  else
    match declared with
    | .array [_] => ["GET".toList]
    | _ => ["GET".toList, "QUERY".toList]

def validateMethods (kind : ClientOperationKind) (declared : Raw) :
    Except Failure (List Text) :=
  match declared with
  | .array items =>
      if asTexts items = some (expectedMethods kind declared) then
        .ok (expectedMethods kind declared)
      else fail "methods contradict client capabilities"
  | _ => fail "methods contradict client capabilities"

def validateQueryName (kind : ClientOperationKind) (id : Text) : Raw → Except Failure Unit
  | .undefined => expect (kind = .command) "queryName contradicts qualified ID"
  | .string queryName =>
      expect (kind ≠ .command ∧ queryName = id) "queryName contradicts qualified ID"
  | _ => fail "queryName contradicts qualified ID"

def isValidRole (role : Text) : Bool := role ≠ [] ∧ unitLength role ≤ 256

def validateRoles : Raw → Except Failure (List Text)
  | .array items =>
      match asTexts items with
      | some roles =>
          if items.length ≤ 128 ∧ roles.all isValidRole then .ok roles else fail "invalid roles"
      | none => fail "invalid roles"
  | _ => fail "invalid roles"

def validateDynamicAuthorization : Raw → Except Failure Bool
  | .boolean value => .ok value
  | _ => fail "missing dynamic authorization flag"

def validateAuthentication (roles : List Text) : Raw → Except Failure ClientAuthentication
  | .string text =>
      if text = "anonymous".toList ∧ roles = [] then .ok .anonymous
      else if text = "authenticated".toList then .ok .authenticated
      else if text = "default".toList ∧ roles = [] then .ok .default
      else fail "authentication contradicts effective roles"
  | _ => fail "authentication contradicts effective roles"

def isReservedInput (kind : ClientOperationKind) (field : ClientField) : Bool :=
  let lowerCaseName := String.ofList (toLowerCase field.1.name)
  Http.isReservedQueryArgument lowerCaseName ||
    (kind == .observable && observableOnlyArguments.contains lowerCaseName)

def validateInput (kind : ClientOperationKind) (value : Raw) :
    Except Failure (List ClientField) := do
  let input ← within ".input" (fields (parseLevels 8) value)
  expect (kind = .command ∨ input.any (isReservedInput kind) = false)
    "reserved GET query argument"
  pure input

def isScalarOutput : ClientType → Bool
  | .array _ => false
  | .dto _ _ => false
  | _ => true

def validateOutput (kind : ClientOperationKind) (value : Raw) : Except Failure ClientType := do
  let output ← within ".output" (parseType value)
  expect (kind = .command ∨ isScalarOutput output = false)
    "scalar query results can lose false/zero/empty values in published client"
  pure output

/-- Parse and validate one untrusted operation descriptor. -/
def parseClientOperation : Raw → Except Failure ClientOperation
  | .object raw => do
      expect (hasOnlyKeys raw operationKeys) "invalid descriptor"
      let id ← qualifiedId (read raw "id")
      let kind ← validateKind (read raw "kind")
      let route ← validateRoute (read raw "route")
      let methods ← validateMethods kind (read raw "methods")
      validateQueryName kind id (read raw "queryName")
      let roles ← validateRoles (read raw "roles")
      let dynamicAuthorization ← validateDynamicAuthorization (read raw "dynamicAuthorization")
      let authentication ← validateAuthentication roles (read raw "authentication")
      let input ← validateInput kind (read raw "input")
      let output ← validateOutput kind (read raw "output")
      expect (input.any holdsDto = false) "object input unsupported by client binder"
      pure
        { id, kind, route, methods
          queryName := if kind = .command then none else some id
          roles := sortOn (fun role => role) roles
          authentication, dynamicAuthorization, input, output }
  | _ => fail "invalid descriptor"

/-! ### The size of the sanitized copy -/

/-- The length `JSON.stringify` gives a character. -/
def jsonCharLength (c : Char) : ℕ :=
  if c = '"' ∨ c = '\\' ∨ c.toNat = 8 ∨ c.toNat = 9 ∨ c.toNat = 10 ∨ c.toNat = 12 ∨ c.toNat = 13
  then 2
  else if c.toNat < 32 then 6
  else (codeUnits c).length

def jsonTextLength (text : Text) : ℕ := 2 + (text.map jsonCharLength).sum

mutual

/-- The length of `JSON.stringify` of a sanitized value. -/
def jsonLength : Raw → ℕ
  | .undefined => 4
  | .null => 4
  | .boolean value => if value then 4 else 5
  | .number value => (toString value).length
  | .string text => jsonTextLength text
  | .array items => 2 + (items.length - 1) + jsonItems items
  | .object members => 2 + (members.length - 1) + jsonMembers members
  | .foreign => 2

def jsonItems : List Raw → ℕ
  | [] => 0
  | item :: items => jsonLength item + jsonItems items

def jsonMembers : List (String × Raw) → ℕ
  | [] => 0
  | (key, value) :: members => jsonTextLength key.toList + 1 + jsonLength value + jsonMembers members

end

/-! ### The registry -/

/-- IDs, routes and generated symbols already claimed. -/
structure OperationRegistry where
  ids : List Text
  routes : List Text
  symbols : List Text

def validateSuffix : Text := "/validate".toList

/-- `route.replace(/\/validate$/, '')`. -/
def withoutValidate (route : Text) : Text :=
  if validateSuffix <:+ route then route.take (route.length - validateSuffix.length) else route

namespace ClientOperation

def foldedId (operation : ClientOperation) : Text := toLowerCase operation.id

def foldedRoute (operation : ClientOperation) : Text := toLowerCase operation.route

def foldedSymbol (operation : ClientOperation) : Text := toLowerCase (symbol operation.id)

/-- The routes an operation claims. -/
def routes (operation : ClientOperation) : List Text :=
  operation.foldedRoute ::
    if operation.kind = .command then [operation.foldedRoute ++ validateSuffix] else []

end ClientOperation

namespace OperationRegistry

def empty : OperationRegistry := ⟨[], [], []⟩

def collides (registry : OperationRegistry) (operation : ClientOperation) : Bool :=
  registry.ids.contains operation.foldedId ||
    registry.routes.contains operation.foldedRoute ||
    registry.symbols.contains operation.foldedSymbol ||
    registry.routes.contains (operation.foldedRoute ++ validateSuffix) ||
    (operation.kind == .command &&
      registry.routes.contains (withoutValidate operation.foldedRoute))

/-- The registry with what an operation claims. -/
def add (registry : OperationRegistry) (operation : ClientOperation) : OperationRegistry where
  ids := operation.foldedId :: registry.ids
  routes := operation.routes ++ registry.routes
  symbols := operation.foldedSymbol :: registry.symbols

def register (registry : OperationRegistry) (operation : ClientOperation) :
    Except Failure OperationRegistry :=
  if registry.collides operation then
    .error ⟨String.ofList operation.id, "duplicate ID, generated symbol or route"⟩
  else .ok (registry.add operation)

def registerAll : OperationRegistry → List ClientOperation → Except Failure Unit
  | _, [] => .ok ()
  | registry, operation :: operations => do
      let registry ← registry.register operation
      registerAll registry operations

end OperationRegistry

/-! ### The manifest -/

/-- The operations of a value with the root of a manifest. -/
def manifestOperations : Raw → Option (List Raw)
  | .object members =>
      match read members "product", read members "version", read members "operations" with
      | .string product, .number version, .array operations =>
          if product = "@cratis/arc.core".toList ∧ version = 1 ∧ operations ≠ [] ∧
              operations.length ≤ 1024 ∧ hasOnlyKeys members ["product", "version", "operations"]
          then some operations
          else none
      | _, _, _ => none
  | _ => none

/-- Order operations by ID. -/
def sortOperations (operations : List ClientOperation) : List ClientOperation :=
  sortOn ClientOperation.id operations

/-- Parse untrusted JSON without trusting prototypes, aliases, unsupported shapes or version
drift. -/
def validateClientManifest (value : Raw) : Except Failure ClientManifest :=
  match manifestOperations value with
  | some items => do
      let operations ← within "operations" (parseAll parseClientOperation 0 items)
      require (jsonLength (.array (operations.map ClientOperation.toRaw)) ≤ 1024 * 1024)
        ⟨"root", "manifest exceeds 1 MiB"⟩
      OperationRegistry.empty.registerAll operations
      pure ⟨sortOperations operations⟩
  | none => .error ⟨"root", "unsupported product, version or structure"⟩

end Arc.Introspection
