import Arc.Foundation.Checks
import Arc.Foundation.InsertionMap
import Arc.Http.OperationRoutes
import Mathlib.Data.Int.Notation

/-!
# The route table

`createRouteTable` checks the definitions of a server, derives their routes and enters them one
after the other: an operation is refused when its name, its route or the route that validates
it is taken. Acceptance depends on the definitions alone, not on their order.
-/

namespace Arc.Http

/-- The options of a server the route table reads. -/
structure ArcOptions (σ : Type) where
  routePrefix : Option String := none
  segmentsToSkipForRoute : Option ℤ := none
  includeCommandNameInRoute : Option Bool := none
  includeQueryNameInRoute : Option Bool := none
  enableQueryHttpMethod : Option Bool := none
  commands : List (Definition σ) := []
  queries : List (Definition σ) := []
  observableQueries : List (Definition σ) := []
  enableObservableHealth : Bool := false
  hasIdentityDetails : Bool := false
  introspectionEnabled : Option Bool := none
  authorizationPolicies : List (String × AuthorizationPolicyRegistration) := []
  authenticationSchemes : List (String × Bool) := []

structure Operation (σ : Type) where
  definition : Definition σ
  kind : ClientOperationKind
  route : String
  internal : Bool := false

/-- What has been entered so far. -/
structure Registry (σ : Type) where
  names : List String
  routes : InsertionMap String (Operation σ)
  endpoints : InsertionMap String String

structure RouteTable (σ : Type) where
  commands : List (Operation σ)
  queries : List (Operation σ)
  routes : InsertionMap String (Operation σ)
  endpoints : InsertionMap String String

variable {σ : Type}

/-! ### The checks of a definition -/

def isReservedQueryArgument (lowerCaseName : String) : Bool :=
  ["page", "pagesize", "sortby", "sortdirection"].contains lowerCaseName

/-- `fail`. -/
def manifestError (location detail : String) : String := s!"Client manifest {location}: {detail}"

def inspectClientQueryInput (toLowerCase : String → String) (schemas : Schemas σ) (schema : σ)
    (id : String) : Except String Unit :=
  require (∀ key ∈ (schemas.shape schema).getD [], ¬ isReservedQueryArgument (toLowerCase key))
    (manifestError id "reserved GET query argument")

/-- What a definition has to pass before any route is derived. -/
def checkDefinition (toLowerCase : String → String) (schemas : Schemas σ) (options : ArcOptions σ)
    (kind : DefinitionKind) (item : Definition σ) : Except String Unit := do
  if item.hasClientOutput then
    if kind ≠ .command then
      inspectClientQueryInput toLowerCase schemas item.schema (fullyQualifiedName item)
    schemas.inspectClientInput item.schema (fullyQualifiedName item)
  validateAuthorization item.authorization item.name options.authorizationPolicies
    options.authenticationSchemes
  require (¬ (kind = .observableQuery ∧ ((item.authorization.map authorizationRequirements).getD
      []).any fun requirement => !requirement.schemes.isEmpty))
    s!"Authentication schemes on observable query '{item.name}' require per-subscription authentication, which the hub does not support."
  require (((schemas.shape item.schema).getD []).map toLowerCase).Nodup
    s!"Ambiguous Arc argument names: {item.name}"

/-! ### Operations -/

def ArcOptions.prefixPath (options : ArcOptions σ) : String := options.routePrefix.getD "api"

def ArcOptions.skip (options : ArcOptions σ) : ℤ := options.segmentsToSkipForRoute.getD 0

/-- The JSON schema of a definition is converted unless it is given. -/
def inputSchema (schemas : Schemas σ) (kind : ClientOperationKind) (item : Definition σ) :
    Except String Unit :=
  if item.hasWireInputSchema then .ok () else schemas.inputSchema kind item.schema

def operation (schemas : Schemas σ) (kind : ClientOperationKind) (item : Definition σ)
    (route : String) (internal : Bool) : Except String (Operation σ) := do
  inputSchema schemas kind item
  pure ⟨item, kind, route, internal⟩

def commandOperation (schemas : Schemas σ) (item : Definition σ) (route : String) :
    Except String (Operation σ) :=
  operation schemas .command item route false

/-- A query, or an observable query. -/
def queryOperation (schemas : Schemas σ) (item : Definition σ) (route : String) :
    Except String (Operation σ) :=
  operation schemas .query item route false

def observeHealth (schemas : Schemas σ) : Definition σ where
  name := "ObserveHealth"
  «namespace» := some "QueryHealth"
  path := some "/.cratis/queries/health"
  schema := schemas.emptyObject
  authorization := some (.declaration { authenticated := true })

/-- The health query, when it is enabled. -/
def healthOperations (schemas : Schemas σ) (options : ArcOptions σ) :
    Except String (List (Operation σ)) :=
  if options.enableObservableHealth then
    (operation schemas .query (observeHealth schemas) "/.cratis/queries/health" true).map ([·])
  else .ok []

/-! ### The registry -/

def Operation.validateRoute (operation : Operation σ) : String := operation.route ++ "/validate"

/-- The name that has to be unique. -/
def Operation.qualifiedName (toLowerCase : String → String) (operation : Operation σ) : String :=
  toLowerCase (operation.definition.namespace.getD "" ++ "." ++ operation.definition.name)

def builtInEndpoints : List (String × String) :=
  [("/.cratis/commands", "GET"), ("/.cratis/queries", "GET"),
    ("/.cratis/identity-details/schema", "GET"), ("/.cratis/users", "GET"),
    ("/.cratis/tenants", "GET"), ("/openapi.json", "GET"),
    ("/.cratis/queries/ws", "GET"), ("/.cratis/queries/sse", "GET"),
    ("/.cratis/queries/sse/subscribe", "POST"), ("/.cratis/queries/sse/unsubscribe", "POST")]

def reserved : List String := builtInEndpoints.map Prod.fst ++ ["/.cratis/me"]

def discoveryPaths : List String :=
  ["/.cratis/commands", "/.cratis/queries", "/.cratis/identity-details/schema", "/.cratis/users",
    "/.cratis/tenants", "/openapi.json"]

def catalogPaths : List String := ["/.cratis/commands", "/.cratis/queries", "/openapi.json"]

/-- The endpoints that are there before any operation. -/
def initialEndpoints (options : ArcOptions σ) (mapped : Bool) : InsertionMap String String :=
  let endpoints := builtInEndpoints.foldl (fun endpoints entry => endpoints.set entry.1 entry.2)
    InsertionMap.empty
  let endpoints := if options.hasIdentityDetails then endpoints.set "/.cratis/me" "GET" else endpoints
  let endpoints := if mapped then endpoints else discoveryPaths.foldl InsertionMap.delete endpoints
  if options.introspectionEnabled = some false then catalogPaths.foldl InsertionMap.delete endpoints
  else endpoints

def Registry.has (registry : Registry σ) (path : String) : Prop := path ∈ registry.routes.keys

instance (registry : Registry σ) (path : String) : Decidable (registry.has path) :=
  inferInstanceAs (Decidable (path ∈ registry.routes.keys))

/-- Enter an operation under its name and its routes. -/
def Registry.add (registry : Registry σ) (toLowerCase : String → String) (options : ArcOptions σ)
    (operation : Operation σ) : Registry σ :=
  let routes := registry.routes.set operation.route operation
  let endpoints := registry.endpoints.set operation.route
    (if operation.kind = .command then "POST"
      else if options.enableQueryHttpMethod = some false then "GET" else "GET, QUERY")
  { names := operation.qualifiedName toLowerCase :: registry.names
    routes := if operation.kind = .command then routes.set operation.validateRoute operation
      else routes
    endpoints := if operation.kind = .command then endpoints.set operation.validateRoute "POST"
      else endpoints }

/-- One turn of the loop over the operations. -/
def register (toLowerCase : String → String) (options : ArcOptions σ) (registry : Registry σ)
    (operation : Operation σ) : Except String (Registry σ) := do
  let name := operation.qualifiedName toLowerCase
  require (name ∉ registry.names) s!"Duplicate Arc operation: {name}"
  let route := operation.route
  require (¬ (registry.has operation.route ∨ operation.route ∈ reserved ∨
      (operation.kind = .command ∧
        (registry.has operation.validateRoute ∨ operation.validateRoute ∈ reserved))))
    s!"Duplicate Arc route: {route}"
  pure (registry.add toLowerCase options operation)

def createRouteTable (toLowerCase : String → String) (schemas : Schemas σ) (mapped : Bool)
    (options : ArcOptions σ) : Except String (RouteTable σ) := do
  require (options.prefixPath = "" ∨ safePrefix options.prefixPath.toList) "Unsafe Arc prefix"
  require (0 ≤ options.skip ∧ options.skip ≤ 9007199254740991) "Invalid namespace segments to skip"
  options.commands.forM (checkDefinition toLowerCase schemas options .command)
  options.queries.forM (checkDefinition toLowerCase schemas options .query)
  options.observableQueries.forM (checkDefinition toLowerCase schemas options .observableQuery)
  let skip := options.skip.toNat
  let queryDefinitions := options.queries ++ options.observableQueries
  let commands ← options.commands.mapM fun item => do
    let route ← routeFor toLowerCase item options.prefixPath skip
      (includeRouteName item options.commands skip options.includeCommandNameInRoute)
    commandOperation schemas item route
  let queries ← queryDefinitions.mapM fun item => do
    let route ← routeFor toLowerCase item options.prefixPath skip
      (includeRouteName item queryDefinitions skip options.includeQueryNameInRoute)
    queryOperation schemas item route
  let health ← healthOperations schemas options
  let registry ← (commands ++ (queries ++ health)).foldlM (register toLowerCase options)
    ⟨[], InsertionMap.empty, initialEndpoints options mapped⟩
  pure ⟨commands, queries ++ health, registry.routes, registry.endpoints⟩

end Arc.Http
