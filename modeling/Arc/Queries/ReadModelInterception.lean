import Arc.Foundation.Checks
import Arc.Foundation.Traversal
import Arc.Queries.QueryRendering

/-!
# Interception of read models

With read-model interceptors, `renderQuery` sorts and pages the raw items, hands each to the
interceptors of its model, and checks with `assertNoUnreleasedReadModels` what it is about to
encode. The values of a query are objects of a heap, shared and cyclic as they may be; an
interceptor may change the heap and answer whatever it likes.
-/

namespace Arc.Queries

/-! ### Objects -/

/-- A class is compared by identity; its name is for messages. -/
structure ClassType where
  id : ℕ
  name : String
  deriving DecidableEq, Repr

def ClassType.array : ClassType := ⟨0, "Array"⟩

def ClassType.object : ClassType := ⟨1, "Object"⟩

/-- Where a raw storage document came from. -/
structure RawReadModelProvenance where
  model : ClassType
  tenantId : String
  subject : String
  deriving DecidableEq, Repr

inductive JsValue
  | scalar (text : String)
  | object (reference : ℕ)
  deriving DecidableEq, Repr

def JsValue.reference : JsValue → Option ℕ
  | .scalar _ => none
  | .object reference => some reference

/-- An object: its `constructor`, whether it is a leaf type or a buffer view, how it is marked,
and its elements, or the values of its own enumerable properties. -/
structure JsObject where
  classType : Option ClassType
  isLeaf : Bool := false
  provenance : Option RawReadModelProvenance := none
  values : List JsValue := []
  deriving DecidableEq, Repr

/-- The objects there are, whether the query has been canceled, and all else. -/
structure World (ω : Type) where
  objects : List JsObject
  canceled : Bool := false
  state : ω

variable {ω α β ν : Type}

def World.object (world : World ω) (item : JsValue) : Option JsObject :=
  item.reference.bind fun reference => world.objects[reference]?

def World.allocate (world : World ω) (object : JsObject) : JsValue × World ω :=
  (.object world.objects.length, { world with objects := world.objects ++ [object] })

def throwIfCanceled (world : World ω) : Except String Unit :=
  require (world.canceled = false) "Query canceled"

/-! ### Interceptors -/

/-- A scoped transformation of one exact model; every call may change the world. -/
structure ReadModelInterceptor (ω : Type) where
  model : ClassType
  intercept : World ω → ℕ → Except String (JsValue × World ω)
  interceptRawDocument : Option
    (World ω → JsValue → RawReadModelProvenance → Except String (JsValue × World ω)) := none
  isReleased : Option (World ω → ℕ → Except String Bool) := none

/-- The interceptors of its own model, one after the other, on a raw document. -/
def interceptRaw (provenance : RawReadModelProvenance) :
    List (ReadModelInterceptor ω) → JsValue → World ω → Except String (JsValue × World ω)
  | [], item, world => .ok (item, world)
  | handler :: handlers, item, world =>
      let name := provenance.model.name
      match handler.interceptRawDocument with
      | none => .error s!"The {name} read-model interceptor cannot transform raw documents"
      | some call => do
          throwIfCanceled world
          let (item, world) ← call world item provenance
          throwIfCanceled world
          interceptRaw provenance handlers item world

/-- Every interceptor whose model the item is at its turn. -/
def interceptInstances :
    List (ReadModelInterceptor ω) → JsValue → World ω → Except String (JsValue × World ω)
  | [], item, world => .ok (item, world)
  | handler :: handlers, item, world => do
      throwIfCanceled world
      match item, (world.object item).bind JsObject.classType with
      | .object reference, some model =>
          if model = handler.model then do
            let (item, world) ← handler.intercept world reference
            throwIfCanceled world
            interceptInstances handlers item world
          else interceptInstances handlers item world
      | _, _ => interceptInstances handlers item world

/-- The protecting interceptors of the model of the result that do not report it released, once. -/
def interceptUnreleased (model : ClassType) :
    List (ReadModelInterceptor ω) → JsValue → World ω → Except String (JsValue × World ω)
  | [], item, world => .ok (item, world)
  | handler :: handlers, item, world =>
      match handler.isReleased with
      | none => interceptUnreleased model handlers item world
      | some isReleased =>
          if handler.model ≠ model then interceptUnreleased model handlers item world
          else
            match item with
            | .scalar _ => .ok (item, world)
            | .object reference =>
                if (world.object item).bind JsObject.classType ≠ some model then .ok (item, world)
                else do
                  let released ← isReleased world reference
                  if released then interceptUnreleased model handlers item world
                  else do
                    throwIfCanceled world
                    let (item, world) ← handler.intercept world reference
                    throwIfCanceled world
                    interceptUnreleased model handlers item world

/-- What interception has come to: the item, the world, and the raw documents that their
interceptors have passed through. -/
structure Intercepted (ω α : Type) where
  item : α
  world : World ω
  passedThrough : List ℕ

/-- Run the interceptors for one returned item. -/
def interceptReadModel (interceptors : List (ReadModelInterceptor ω)) (tenantId : Option String)
    (item : JsValue) (world : World ω) (passedThrough : List ℕ) :
    Except String (Intercepted ω JsValue) := do
  throwIfCanceled world
  match item.reference, world.object item with
  | some document, some object =>
      match object.provenance with
      | some provenance =>
          let handlers := interceptors.filter (·.model = provenance.model)
          let name := provenance.model.name
          if handlers.isEmpty then .ok ⟨item, world, passedThrough⟩
          else if some provenance.tenantId ≠ tenantId then
            .error s!"Raw {name} document belongs to another tenant"
          else do
            let (result, world) ← interceptRaw provenance handlers item world
            .ok ⟨result, world,
              if result = .object document then document :: passedThrough else passedThrough⟩
      | none => do
          let (item, world) ← interceptInstances interceptors item world
          match world.object item with
          | some ⟨some model, _, none, _⟩ => do
              let (item, world) ← interceptUnreleased model interceptors item world
              .ok ⟨item, world, passedThrough⟩
          | _ => .ok ⟨item, world, passedThrough⟩
  | _, _ => .ok ⟨item, world, passedThrough⟩

/-- One item after the other. -/
def interceptItems (interceptors : List (ReadModelInterceptor ω)) (tenantId : Option String) :
    List JsValue → World ω → List ℕ → Except String (Intercepted ω (List JsValue))
  | [], world, passedThrough => .ok ⟨[], world, passedThrough⟩
  | item :: items, world, passedThrough => do
      let first ← interceptReadModel interceptors tenantId item world passedThrough
      let rest ← interceptItems interceptors tenantId items first.world first.passedThrough
      .ok { rest with item := first.item :: rest.item }

/-! ### The check before encoding -/

/-- A raw document marked as an intercepted model, unless it was passed through. -/
def isUnreleasedRaw (interceptors : List (ReadModelInterceptor ω)) (passedThrough : List ℕ)
    (reference : ℕ) (object : JsObject) : Bool :=
  !passedThrough.contains reference && object.provenance.any fun provenance =>
    interceptors.any (·.model = provenance.model)

/-- `=== true`. -/
def answersTrue : Except String Bool → Bool
  | .ok released => released
  | .error _ => false

/-- An interceptor that protects the class of the object does not answer that it is released. -/
def isUnreleasedInstance (world : World ω) (interceptors : List (ReadModelInterceptor ω))
    (reference : ℕ) (object : JsObject) : Bool :=
  interceptors.any fun handler => object.classType = some handler.model &&
    handler.isReleased.any fun isReleased => !answersTrue (isReleased world reference)

/-- One turn of the loop over the pending objects; a leaf is not descended. -/
def visit (world : World ω) (interceptors : List (ReadModelInterceptor ω))
    (passedThrough : List ℕ) (reference : ℕ) : Except String (List ℕ) :=
  match world.objects[reference]? with
  | none => .ok []
  | some object =>
      let raw := (object.provenance.map fun provenance => provenance.model.name).getD ""
      let model := (object.classType.map ClassType.name).getD ""
      if isUnreleasedRaw interceptors passedThrough reference object then
        .error s!"Raw {raw} documents must be returned directly, in an array, or in a query page; nested or projected raw documents are not supported"
      else if object.isLeaf then .ok []
      else if isUnreleasedInstance world interceptors reference object then
        .error s!"{model} read models must be returned directly, in an array, or in a query page; instances that were not released are not supported"
      else .ok (object.values.filterMap JsValue.reference)

def objectGraph (world : World ω) (interceptors : List (ReadModelInterceptor ω))
    (passedThrough : List ℕ) : Graph ℕ String where
  nodes := Finset.range world.objects.length
  visit := visit world interceptors passedThrough

/-- Fail rather than serve an intercepted read model that was not transformed. -/
def assertNoUnreleasedReadModels (world : World ω) (data : JsValue)
    (interceptors : List (ReadModelInterceptor ω)) (passedThrough : List ℕ) : Except String Unit :=
  (objectGraph world interceptors passedThrough).walk ∅ data.reference.toList

/-! ### Rendering -/

/-- The data as one value: an array and a page are new objects around their items. -/
def materialize (world : World ω) : QueryData JsValue → JsValue × World ω
  | .single value => (value, world)
  | .array items => world.allocate { classType := some .array, values := items }
  | .page page =>
      let (items, world) := world.allocate { classType := some .array, values := page.items }
      match page.sorting with
      | none => world.allocate { classType := some .object, values := [items] }
      | some _ =>
          let (sorting, world) := world.allocate { classType := some .object }
          world.allocate { classType := some .object, values := [items, sorting] }

def queryPage (items : List α) (totalItems : ℕ) (sorting : Option SortRequest) :
    Except String (QueryPage α) :=
  if h : items.length ≤ totalItems then .ok ⟨items, totalItems, sorting, h⟩
  else .error "Invalid query page"

/-- The items of the slots, intercepted. -/
def interceptData (interceptors : List (ReadModelInterceptor ω)) (tenantId : Option String)
    (world : World ω) : QueryData JsValue → Except String (Intercepted ω (QueryData JsValue))
  | .page page => do
      let items ← interceptItems interceptors tenantId page.items world []
      let page ← queryPage items.item page.totalItems page.sorting
      .ok { items with item := .page page }
  | .array list => do
      let items ← interceptItems interceptors tenantId list world []
      .ok { items with item := .array items.item }
  | .single value => do
      let item ← interceptReadModel interceptors tenantId value world []
      .ok { item with item := .single item.item }

/-- Data that has passed the check: what is encoded, and the value it is reached from. -/
structure Served (ω : Type) where
  data : QueryData JsValue
  root : JsValue
  world : World ω
  passedThrough : List ℕ

/-- Intercept the data and check the result. -/
def serve (interceptors : List (ReadModelInterceptor ω)) (tenantId : Option String)
    (world : World ω) (data : QueryData JsValue) : Except String (Served ω) := do
  let intercepted ← interceptData interceptors tenantId world data
  let (root, world) := materialize intercepted.world intercepted.item
  throwIfCanceled world
  assertNoUnreleasedReadModels world root interceptors intercepted.passedThrough
  .ok ⟨intercepted.item, root, world, intercepted.passedThrough⟩

/-- What a query declares: how raw and encoded items are sorted, the raw name of a field, the
encoding, and the output for generated clients. -/
structure QueryDefinition (ω α β : Type) where
  rawFields : World ω → Fields JsValue β
  fields : Fields α β
  fieldName : String → String
  encode : World ω → QueryData JsValue → Except String (QueryData α)
  clientOutput : Option (ClientOutput α)

def QueryData.render : QueryData α → Rendered α
  | .page data => .items data.items
  | .array items => .items items
  | .single value => .single value

/-- The declared output of data that is already paged. -/
def assertClientOutput (clientOutput : Option (ClientOutput α)) :
    Rendered α → Except String (Rendered α)
  | .items items =>
      match ClientOutput.items clientOutput items with
      | some items => .ok (.items items)
      | none => .error "Client output does not match"
  | .single value =>
      match clientOutput with
      | none => .ok (.single value)
      | some output =>
          match output.value value with
          | some value => .ok (.single value)
          | none => .error "Client output does not match"

def rawOptions (definition : QueryDefinition ω α β) (options : QueryOptions) : QueryOptions :=
  { options with sorting := options.sorting.map fun sorting =>
      { sorting with field := definition.fieldName sorting.field } }

/-- `renderQuery` once its renderers have run and its interceptors are resolved. -/
def renderQuery (definition : QueryDefinition ω α β)
    (interceptors : List (ReadModelInterceptor ω)) (tenantId : Option String) (malformed : List ν)
    (correlationId : String) (options : QueryOptions) (world : World ω)
    (data : QueryData JsValue) : Except String (QueryResult (Rendered α) ν) := do
  throwIfCanceled world
  match data with
  | .array items =>
      match renderQueryData (definition.rawFields world) none malformed (.array items)
          correlationId (rawOptions definition options) with
      | none => .error "Client output does not match"
      | some page =>
          match page.isSuccess, page.data with
          | true, some (.items items) => do
              let served ← serve interceptors tenantId world (.array items)
              let wire ← definition.encode served.world served.data
              throwIfCanceled served.world
              let output ← assertClientOutput definition.clientOutput wire.render
              .ok { page with data := some output }
          | _, _ => .ok { page with data := none }
  | data => do
      let served ← serve interceptors tenantId world data
      let wire ← definition.encode served.world served.data
      match renderQueryData definition.fields definition.clientOutput malformed wire correlationId
          options with
      | some result => .ok result
      | none => .error "Client output does not match"

end Arc.Queries
