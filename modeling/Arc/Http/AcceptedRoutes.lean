import Arc.Http.UnambiguousRoutes

/-!
# The accepted route tables

`createRouteTable` succeeds exactly when the definitions pass their own checks, their names,
paths and prefix are safe, and the operations they describe are unambiguous.
-/

namespace Arc.Http

variable {σ : Type} {toLowerCase : String → String} {schemas : Schemas σ} {options : ArcOptions σ}

/-! ### The operations of the options -/

/-- The operation of a definition among those of its kind. -/
def operationOf (toLowerCase : String → String) (options : ArcOptions σ)
    (kind : ClientOperationKind) (definitions : List (Definition σ)) (includeName : Option Bool)
    (item : Definition σ) : Operation σ :=
  ⟨item, kind, routePath toLowerCase item options.prefixPath options.skip.toNat
    (includeRouteName item definitions options.skip.toNat includeName), false⟩

namespace ArcOptions

def commandOperations (toLowerCase : String → String) (options : ArcOptions σ) :
    List (Operation σ) :=
  options.commands.map
    (operationOf toLowerCase options .command options.commands options.includeCommandNameInRoute)

def queryDefinitions (options : ArcOptions σ) : List (Definition σ) :=
  options.queries ++ options.observableQueries

def healthOperations (schemas : Schemas σ) (options : ArcOptions σ) : List (Operation σ) :=
  if options.enableObservableHealth then
    [⟨observeHealth schemas, .query, "/.cratis/queries/health", true⟩]
  else []

def queryOperations (toLowerCase : String → String) (schemas : Schemas σ)
    (options : ArcOptions σ) : List (Operation σ) :=
  options.queryDefinitions.map (operationOf toLowerCase options .query options.queryDefinitions
    options.includeQueryNameInRoute) ++ options.healthOperations schemas

/-- The commands, the queries, the observable queries and the health query. -/
def operations (toLowerCase : String → String) (schemas : Schemas σ) (options : ArcOptions σ) :
    List (Operation σ) :=
  options.commandOperations toLowerCase ++ options.queryOperations toLowerCase schemas

end ArcOptions

/-- The checks of names: the prefix, the segments to skip, and every name and path. -/
structure SafeNames (options : ArcOptions σ) : Prop where
  prefixPath : options.prefixPath = "" ∨ safePrefix options.prefixPath.toList = true
  skip : 0 ≤ options.skip ∧ options.skip ≤ 9007199254740991
  commands : ∀ item ∈ options.commands, item.safeNames = true ∧ item.safePath = true
  queries : ∀ item ∈ options.queryDefinitions, item.safeNames = true ∧ item.safePath = true

/-- Every definition passes its own checks, whatever the others are. -/
structure ChecksPass (toLowerCase : String → String) (schemas : Schemas σ)
    (options : ArcOptions σ) : Prop where
  commands : ∀ item ∈ options.commands,
    checkDefinition toLowerCase schemas options .command item = .ok ()
  queries : ∀ item ∈ options.queries,
    checkDefinition toLowerCase schemas options .query item = .ok ()
  observableQueries : ∀ item ∈ options.observableQueries,
    checkDefinition toLowerCase schemas options .observableQuery item = .ok ()
  commandSchemas : ∀ item ∈ options.commands, item.hasWireInputSchema = false →
    schemas.inputSchema .command item.schema = .ok ()
  querySchemas : ∀ item ∈ options.queryDefinitions, item.hasWireInputSchema = false →
    schemas.inputSchema .query item.schema = .ok ()
  healthSchema : options.enableObservableHealth = true →
    schemas.inputSchema .query schemas.emptyObject = .ok ()

/-! ### From definitions to operations -/

theorem routeFor_eq_ok {item : Definition σ} {routePrefix : String} {skip : ℕ}
    {includeName : Bool} {route : String} :
    routeFor toLowerCase item routePrefix skip includeName = .ok route ↔
      (item.safeNames = true ∧ item.safePath = true) ∧
        route = routePath toLowerCase item routePrefix skip includeName := by
  unfold routeFor
  cases hnames : item.safeNames with
  | false => simp
  | true =>
      cases hpath : item.safePath with
      | false => simp
      | true => simp [eq_comm]

theorem operation_eq_ok {kind : ClientOperationKind} {item : Definition σ} {route : String}
    {internal : Bool} {result : Operation σ} :
    operation schemas kind item route internal = .ok result ↔
      (item.hasWireInputSchema = false → schemas.inputSchema kind item.schema = .ok ()) ∧
        result = ⟨item, kind, route, internal⟩ := by
  rw [operation, Except.bind_unit_eq_ok, inputSchema]
  cases item.hasWireInputSchema with
  | false => simp [pure, Except.pure, eq_comm]
  | true => simp [pure, Except.pure, eq_comm]

/-- The operations of one kind of definitions. -/
theorem operations_eq_ok {kind : ClientOperationKind} {definitions : List (Definition σ)}
    {includeName : Option Bool} {results : List (Operation σ)} :
    (definitions.mapM fun item => do
        let route ← routeFor toLowerCase item options.prefixPath options.skip.toNat
          (includeRouteName item definitions options.skip.toNat includeName)
        operation schemas kind item route false) = .ok results ↔
      (∀ item ∈ definitions, (item.safeNames = true ∧ item.safePath = true) ∧
        (item.hasWireInputSchema = false → schemas.inputSchema kind item.schema = .ok ())) ∧
      results = definitions.map (operationOf toLowerCase options kind definitions includeName) := by
  refine Except.mapM_eq_ok fun item _ result => ?_
  rw [Except.bind_eq_ok]
  constructor
  · rintro ⟨route, hroute, hresult⟩
    obtain ⟨hsafe, rfl⟩ := routeFor_eq_ok.1 hroute
    obtain ⟨hschema, rfl⟩ := operation_eq_ok.1 hresult
    exact ⟨⟨hsafe, hschema⟩, rfl⟩
  · rintro ⟨⟨hsafe, hschema⟩, rfl⟩
    exact ⟨_, routeFor_eq_ok.2 ⟨hsafe, rfl⟩, operation_eq_ok.2 ⟨hschema, rfl⟩⟩

theorem healthOperations_eq_ok {results : List (Operation σ)} :
    healthOperations schemas options = .ok results ↔
      (options.enableObservableHealth = true →
        schemas.inputSchema .query schemas.emptyObject = .ok ()) ∧
      results = options.healthOperations schemas := by
  unfold healthOperations ArcOptions.healthOperations
  cases options.enableObservableHealth with
  | false => simp [eq_comm]
  | true =>
      cases hresult : operation schemas .query (observeHealth schemas)
          "/.cratis/queries/health" true with
      | error error =>
          have hnot : schemas.inputSchema .query schemas.emptyObject ≠ .ok () := fun hschema => by
            rw [operation_eq_ok.2 ⟨fun _ => hschema, rfl⟩] at hresult
            cases hresult
          simp [Except.map, hnot]
      | ok result =>
          obtain ⟨hschema, rfl⟩ := operation_eq_ok.1 hresult
          have hschema : schemas.inputSchema .query schemas.emptyObject = .ok () := hschema rfl
          simp [Except.map, hschema, eq_comm]

/-- The loop starts with no operation. -/
theorem enters_initial {endpoints : InsertionMap String String} {list : List (Operation σ)} :
    Enters toLowerCase ⟨[], InsertionMap.empty, endpoints⟩ list ↔ Unambiguous toLowerCase list := by
  constructor
  · exact Enters.unambiguous
  · intro h
    refine ⟨h, fun _ _ hmem => absurd hmem List.not_mem_nil, fun path _ hhas => ?_⟩
    obtain ⟨operation, hget⟩ := InsertionMap.mem_keys_iff.1 hhas
    cases hget

/-! ### Acceptance -/

/-- What `createRouteTable` accepts, and the table it returns. -/
theorem createRouteTable_eq_ok {mapped : Bool} {table : RouteTable σ} :
    createRouteTable toLowerCase schemas mapped options = .ok table ↔
      (SafeNames options ∧ ChecksPass toLowerCase schemas options ∧
        Unambiguous toLowerCase (options.operations toLowerCase schemas)) ∧
      ∃ registry, registry = (options.operations toLowerCase schemas).foldl
          (Registry.add · toLowerCase options ·)
          ⟨[], InsertionMap.empty, initialEndpoints options mapped⟩ ∧
        table = ⟨options.commandOperations toLowerCase,
          options.queryOperations toLowerCase schemas, registry.routes, registry.endpoints⟩ := by
  unfold createRouteTable commandOperation queryOperation
  rw [Except.bind_unit_eq_ok, require_eq_ok, Except.bind_unit_eq_ok, require_eq_ok,
    Except.bind_unit_eq_ok, Except.forM_eq_ok, Except.bind_unit_eq_ok, Except.forM_eq_ok,
    Except.bind_unit_eq_ok, Except.forM_eq_ok]
  simp only [Except.bind_eq_ok, operations_eq_ok, healthOperations_eq_ok]
  constructor
  · rintro ⟨hstart, hskip, hcommands, hqueries, hobservable, commands, ⟨hcommand, rfl⟩, queries,
      ⟨hquery, rfl⟩, health, ⟨hhealth, rfl⟩, registry, hregistry, htable⟩
    obtain ⟨henters, rfl⟩ := register_all_eq_ok.1 hregistry
    cases htable
    exact ⟨⟨⟨hstart, hskip, fun item hitem => (hcommand item hitem).1,
      fun item hitem => (hquery item hitem).1⟩, ⟨hcommands, hqueries, hobservable,
      fun item hitem => (hcommand item hitem).2, fun item hitem => (hquery item hitem).2, hhealth⟩,
      enters_initial.1 henters⟩, _, rfl, rfl⟩
  · rintro ⟨⟨hsafe, hchecks, hunambiguous⟩, registry, rfl, rfl⟩
    exact ⟨hsafe.prefixPath, hsafe.skip, hchecks.commands, hchecks.queries,
      hchecks.observableQueries, _,
      ⟨fun item hitem => ⟨hsafe.commands item hitem, hchecks.commandSchemas item hitem⟩, rfl⟩, _,
      ⟨fun item hitem => ⟨hsafe.queries item hitem, hchecks.querySchemas item hitem⟩, rfl⟩, _,
      ⟨hchecks.healthSchema, rfl⟩, _,
      register_all_eq_ok.2 ⟨enters_initial.2 hunambiguous, rfl⟩, rfl⟩

/-- The table is accepted. -/
def Accepted (toLowerCase : String → String) (schemas : Schemas σ) (mapped : Bool)
    (options : ArcOptions σ) : Prop :=
  ∃ table, createRouteTable toLowerCase schemas mapped options = .ok table

theorem accepted_iff {mapped : Bool} : Accepted toLowerCase schemas mapped options ↔
    SafeNames options ∧ ChecksPass toLowerCase schemas options ∧
      Unambiguous toLowerCase (options.operations toLowerCase schemas) :=
  ⟨fun ⟨_, h⟩ => (createRouteTable_eq_ok.1 h).1,
    fun h => ⟨_, createRouteTable_eq_ok.2 ⟨h, _, rfl, rfl⟩⟩⟩

/-! ### The order of the definitions -/

namespace ArcOptions

/-- The same options with the definitions listed in another order. -/
def reorder (options : ArcOptions σ) (commands queries observableQueries : List (Definition σ)) :
    ArcOptions σ :=
  { options with commands := commands, queries := queries, observableQueries := observableQueries }

end ArcOptions

theorem includeRouteName_perm {definitions definitions' : List (Definition σ)}
    (h : definitions.Perm definitions') (item : Definition σ) (skip : ℕ)
    (includeName : Option Bool) :
    includeRouteName item definitions skip includeName =
      includeRouteName item definitions' skip includeName := by
  unfold includeRouteName
  rw [(h.filter _).length_eq]

theorem operationOf_perm {definitions definitions' : List (Definition σ)}
    (h : definitions.Perm definitions') {kind : ClientOperationKind} {includeName : Option Bool} :
    (definitions.map (operationOf toLowerCase options kind definitions includeName)).Perm
      (definitions'.map (operationOf toLowerCase options kind definitions' includeName)) := by
  have heq : operationOf toLowerCase options kind definitions includeName =
      operationOf toLowerCase options kind definitions' includeName := by
    funext item
    simp only [operationOf, includeRouteName_perm h]
  rw [heq]
  exact h.map _

theorem Unambiguous.perm {list list' : List (Operation σ)} (hperm : list.Perm list')
    (h : Unambiguous toLowerCase list) : Unambiguous toLowerCase list' where
  names := (hperm.map _).nodup_iff.1 h.names
  routes := (hperm.flatMap_right _).nodup_iff.1 h.routes
  reserved path hpath := h.reserved path ((hperm.flatMap_right _).mem_iff.2 hpath)

/-- Definitions that are accepted are accepted in every other order. -/
theorem Accepted.reorder {mapped : Bool} {commands queries observableQueries : List (Definition σ)}
    (hcommands : commands.Perm options.commands) (hqueries : queries.Perm options.queries)
    (hobservable : observableQueries.Perm options.observableQueries)
    (h : Accepted toLowerCase schemas mapped options) :
    Accepted toLowerCase schemas mapped
      (options.reorder commands queries observableQueries) := by
  obtain ⟨hsafe, hchecks, hunambiguous⟩ := accepted_iff.1 h
  have hdefinitions : (options.reorder commands queries observableQueries).queryDefinitions.Perm
      options.queryDefinitions := hqueries.append hobservable
  refine accepted_iff.2 ⟨⟨hsafe.prefixPath, hsafe.skip,
    fun item hitem => hsafe.commands item (hcommands.mem_iff.1 hitem),
    fun item hitem => hsafe.queries item (hdefinitions.mem_iff.1 hitem)⟩,
    ⟨fun item hitem => hchecks.commands item (hcommands.mem_iff.1 hitem),
    fun item hitem => hchecks.queries item (hqueries.mem_iff.1 hitem),
    fun item hitem => hchecks.observableQueries item (hobservable.mem_iff.1 hitem),
    fun item hitem => hchecks.commandSchemas item (hcommands.mem_iff.1 hitem),
    fun item hitem => hchecks.querySchemas item (hdefinitions.mem_iff.1 hitem),
    hchecks.healthSchema⟩, ?_⟩
  refine hunambiguous.perm ?_
  exact (operationOf_perm hcommands).symm.append
    ((operationOf_perm hdefinitions).symm.append (List.Perm.refl _))

theorem reorder_accepted_iff {mapped : Bool}
    {commands queries observableQueries : List (Definition σ)}
    (hcommands : commands.Perm options.commands) (hqueries : queries.Perm options.queries)
    (hobservable : observableQueries.Perm options.observableQueries) :
    Accepted toLowerCase schemas mapped (options.reorder commands queries observableQueries) ↔
      Accepted toLowerCase schemas mapped options :=
  ⟨fun h => by
      have hback : Accepted toLowerCase schemas mapped
          ((options.reorder commands queries observableQueries).reorder options.commands
            options.queries options.observableQueries) :=
        h.reorder hcommands.symm hqueries.symm hobservable.symm
      exact hback,
    Accepted.reorder hcommands hqueries hobservable⟩

/-- A table is accepted exactly when the names are safe, the definitions pass their own checks
and the operations are unambiguous; the order of the definitions makes no difference; and in an
accepted table a path leads to an operation exactly when it is one of the routes of it. -/
theorem route_table (toLowerCase : String → String) (schemas : Schemas σ) (mapped : Bool)
    (options : ArcOptions σ) :
    (Accepted toLowerCase schemas mapped options ↔
      SafeNames options ∧ ChecksPass toLowerCase schemas options ∧
        Unambiguous toLowerCase (options.operations toLowerCase schemas)) ∧
    (∀ commands queries observableQueries : List (Definition σ),
      commands.Perm options.commands → queries.Perm options.queries →
      observableQueries.Perm options.observableQueries →
      (Accepted toLowerCase schemas mapped (options.reorder commands queries observableQueries) ↔
        Accepted toLowerCase schemas mapped options)) ∧
    ∀ table, createRouteTable toLowerCase schemas mapped options = .ok table →
      table.commands ++ table.queries = options.operations toLowerCase schemas ∧
      ∀ path operation, table.routes.get path = some operation ↔
        operation ∈ options.operations toLowerCase schemas ∧ path ∈ operation.routes := by
  refine ⟨accepted_iff, fun _ _ _ => reorder_accepted_iff, ?_⟩
  intro table htable
  obtain ⟨⟨-, -, hunambiguous⟩, registry, rfl, rfl⟩ := createRouteTable_eq_ok.1 htable
  refine ⟨rfl, fun path operation => ?_⟩
  rw [get_add_all (enters_initial.2 hunambiguous)]
  simp

/-! ### A definition that fails its own checks -/

/-- Schemas of which nothing is refused. -/
def plainSchemas : Schemas Unit where
  shape _ := some []
  inspectClientInput _ _ := .ok ()
  inputSchema _ _ := .ok ()
  emptyObject := ()

/-- One query, for anonymous callers and for authenticated ones. -/
def conflicting : ArcOptions Unit where
  queries := [{
    name := "Orders"
    path := some "/orders"
    schema := ()
    authorization := some (.requirements
      [.declaration { anonymous := true }, .declaration { authenticated := true }]) }]

theorem conflicting_refused : SafeNames conflicting ∧
    Unambiguous String.toLower (conflicting.operations String.toLower plainSchemas) ∧
    ¬ Accepted String.toLower plainSchemas true conflicting := by
  refine ⟨⟨.inr (by decide), by decide, by decide, by decide⟩,
    ⟨List.nodup_singleton _, List.nodup_singleton _, by decide⟩, ?_⟩
  intro h
  have hcheck := (accepted_iff.1 h).2.1.queries _ List.mem_cons_self
  cases hcheck

end Arc.Http
