import Arc.Foundation.StableSort
import Arc.Queries.ReleasedReadModels
import Arc.Queries.WireQueries

/-!
# The two rendering paths

Interceptors that change nothing leave the path of the query changed: the items are sorted by
what they hold, and without interceptors by what their wire form holds. `rendering_paths` says
when the two agree.
-/

namespace Arc.Queries

open Arc.Reflection

variable {ν μ : Type}

/-! ### Interceptors that change nothing -/

section Interception

variable {ω : Type} {world : World ω} {interceptors : List (ReadModelInterceptor ω)}

/-- Every interceptor returns what it is given and reports it released, and there are no raw
documents. -/
structure Unchanging (world : World ω) (interceptors : List (ReadModelInterceptor ω)) : Prop where
  intercept : ∀ handler ∈ interceptors, ∀ world reference,
    handler.intercept world reference = .ok (.object reference, world)
  released : ∀ handler ∈ interceptors, ∀ isReleased, handler.isReleased = some isReleased →
    ∀ world reference, isReleased world reference = .ok true
  unmarked : ∀ object ∈ world.objects, object.provenance = none

theorem throwIfCanceled_eq_ok (h : world.canceled = false) : throwIfCanceled world = .ok () :=
  require_eq_ok.2 h

theorem interceptInstances_unchanged (hcanceled : world.canceled = false)
    (h : ∀ handler ∈ interceptors, ∀ world reference,
      handler.intercept world reference = .ok (.object reference, world)) (item : JsValue) :
    interceptInstances interceptors item world = .ok (item, world) := by
  induction interceptors with
  | nil => rfl
  | cons handler handlers ih =>
      have hrest := ih fun other hother => h other (List.mem_cons_of_mem _ hother)
      refine Except.bind_unit_eq_ok.2 ⟨throwIfCanceled_eq_ok hcanceled, ?_⟩
      cases item with
      | scalar text => exact hrest
      | object reference =>
          cases hmodel : (world.object (.object reference)).bind JsObject.classType with
          | none => exact hrest
          | some model =>
              dsimp only
              split_ifs
              · refine Except.bind_eq_ok.2
                  ⟨_, h handler List.mem_cons_self world reference, ?_⟩
                exact Except.bind_unit_eq_ok.2 ⟨throwIfCanceled_eq_ok hcanceled, hrest⟩
              · exact hrest

theorem interceptUnreleased_unchanged {model : ClassType}
    (h : ∀ handler ∈ interceptors, ∀ isReleased, handler.isReleased = some isReleased →
      ∀ world reference, isReleased world reference = .ok true) (item : JsValue) :
    interceptUnreleased model interceptors item world = .ok (item, world) := by
  induction interceptors with
  | nil => rfl
  | cons handler handlers ih =>
      have hrest := ih fun other hother => h other (List.mem_cons_of_mem _ hother)
      unfold interceptUnreleased
      cases hreleased : handler.isReleased with
      | none => exact hrest
      | some isReleased =>
          dsimp only
          by_cases hmodel : handler.model ≠ model
          · rw [if_pos hmodel]
            exact hrest
          · rw [if_neg hmodel]
            cases item with
            | scalar text => rfl
            | object reference =>
                dsimp only
                split_ifs
                · rfl
                · refine Except.bind_eq_ok.2
                    ⟨true, h handler List.mem_cons_self isReleased hreleased world reference, ?_⟩
                  exact hrest

theorem interceptReadModel_unchanged (hcanceled : world.canceled = false)
    (h : Unchanging world interceptors) (tenantId : Option String) (item : JsValue)
    (passedThrough : List ℕ) :
    interceptReadModel interceptors tenantId item world passedThrough =
      .ok ⟨item, world, passedThrough⟩ := by
  refine Except.bind_unit_eq_ok.2 ⟨throwIfCanceled_eq_ok hcanceled, ?_⟩
  cases item with
  | scalar text => rfl
  | object reference =>
      cases hobject : world.object (.object reference) with
      | none => rfl
      | some object =>
          have hunmarked : object.provenance = none :=
            h.unmarked object (List.mem_of_getElem? hobject)
          dsimp only [JsValue.reference]
          rw [hunmarked]
          refine Except.bind_eq_ok.2
            ⟨_, interceptInstances_unchanged hcanceled h.intercept (.object reference), ?_⟩
          dsimp only
          rw [hobject]
          split
          · exact Except.bind_eq_ok.2
              ⟨_, interceptUnreleased_unchanged h.released (.object reference), rfl⟩
          · rfl

theorem interceptItems_unchanged (hcanceled : world.canceled = false)
    (h : Unchanging world interceptors) (tenantId : Option String) (items : List JsValue)
    (passedThrough : List ℕ) :
    interceptItems interceptors tenantId items world passedThrough =
      .ok ⟨items, world, passedThrough⟩ := by
  induction items with
  | nil => rfl
  | cons item items ih =>
      refine Except.bind_eq_ok.2
        ⟨_, interceptReadModel_unchanged hcanceled h tenantId item passedThrough, ?_⟩
      exact Except.bind_eq_ok.2 ⟨_, ih, rfl⟩

/-- Nothing is unreleased without raw documents and with every instance released. -/
theorem not_unreleased (h : Unchanging world interceptors) {passedThrough : List ℕ}
    {reference : ℕ} : ¬ Unreleased world interceptors passedThrough reference := by
  rintro ⟨object, hget, hinstance | hraw⟩
  · obtain ⟨handler, hhandler, -, isReleased, hisReleased, hnot⟩ := hinstance
    exact hnot (h.released handler hhandler isReleased hisReleased world reference)
  · obtain ⟨-, provenance, hprovenance, -⟩ := hraw
    rw [h.unmarked object (List.mem_of_getElem? hget)] at hprovenance
    cases hprovenance

theorem Unchanging.allocate (h : Unchanging world interceptors) {object : JsObject}
    (hobject : object.provenance = none) :
    Unchanging (world.allocate object).2 interceptors where
  intercept := h.intercept
  released := h.released
  unmarked := by
    intro other hother
    rcases List.mem_append.1 hother with hold | hnew
    · exact h.unmarked other hold
    · rw [List.mem_singleton.1 hnew]
      exact hobject

theorem serve_unchanged (hcanceled : world.canceled = false) (h : Unchanging world interceptors)
    (tenantId : Option String) (items : List JsValue) :
    ∃ served, serve interceptors tenantId world (.array items) = .ok served ∧
      served.data = .array items ∧ served.world.state = world.state ∧
      served.world.canceled = false := by
  refine ⟨_, Except.bind_eq_ok.2 ⟨⟨.array items, world, []⟩, ?_, Except.bind_unit_eq_ok.2 ⟨?_,
    Except.bind_unit_eq_ok.2 ⟨?_, rfl⟩⟩⟩, rfl, rfl, hcanceled⟩
  · exact Except.bind_eq_ok.2 ⟨_, interceptItems_unchanged hcanceled h tenantId items [], rfl⟩
  · exact throwIfCanceled_eq_ok hcanceled
  · rw [assertNoUnreleasedReadModels_eq_ok_iff]
    intro reference _ hunreleased
    exact absurd hunreleased (not_unreleased (h.allocate rfl))

end Interception

/-! ### The wire form of the items -/

/-- How two items compare by a field both have. -/
def Fields.compareBy {α β : Type} (fields : Fields α β) (field : String) (left right : α) :
    Ordering :=
  match fields.get left field, fields.get right field with
  | some first, some second => fields.compareValues first second
  | _, _ => .eq

theorem Fields.before_eq {α β : Type} {fields : Fields α β} {field : String}
    {direction : SortDirection} {left right : α} (hleft : fields.sortable field left = true)
    (hright : fields.sortable field right = true) :
    fields.before ⟨field, direction⟩ left right =
      match direction with
      | .ascending => (fields.compareBy field left right).isLE
      | .descending => (fields.compareBy field left right).isGE := by
  unfold Fields.sortable at hleft hright
  unfold Fields.before Fields.compareBy
  cases hfirst : fields.get left field with
  | none =>
      rw [hfirst] at hleft
      cases hleft
  | some first =>
      cases hsecond : fields.get right field with
      | none =>
          rw [hsecond] at hright
          cases hright
      | some second => rfl

theorem Fields.before_ascending {α β : Type} {fields : Fields α β} {field : String}
    {left right : α} (hleft : fields.sortable field left = true)
    (hright : fields.sortable field right = true) :
    fields.before ⟨field, .ascending⟩ left right = (fields.compareBy field left right).isLE :=
  Fields.before_eq hleft hright

theorem Fields.before_descending {α β : Type} {fields : Fields α β} {field : String}
    {left right : α} (hleft : fields.sortable field left = true)
    (hright : fields.sortable field right = true) :
    fields.before ⟨field, .descending⟩ left right = (fields.compareBy field left right).isGE :=
  Fields.before_eq hleft hright

section Paths

variable (platform : Platform ν) (metadata : TypeMetadata) (type : ℕ)
  (clientOutput : Option (ClientOutput (Value ν))) (world : World (ObjectValues ν))

/-- The wire form of an item, as the declared output of the query has it. -/
def deliver (item : JsValue) : Option (Value ν) :=
  match encodeItem platform metadata type world item with
  | .error _ => none
  | .ok wire =>
      match clientOutput with
      | none => some wire
      | some output => output.item wire

def wireForm (item : JsValue) : Value ν :=
  (deliver platform metadata type clientOutput world item).getD .undefined

/-- Each item is delivered; the items can be sorted by the field where their wire forms can; and
two items compare by the field as their wire forms do. -/
structure Agrees (items : List JsValue) (field : String) : Prop where
  delivered : ∀ item ∈ items,
    (deliver platform metadata type clientOutput world item).isSome = true
  sortable : (∀ item ∈ items, (itemFields platform metadata world).sortable
      (fieldName platform metadata type field) item = true) ↔
    ∀ item ∈ items, (valueFields platform metadata).sortable field
      (wireForm platform metadata type clientOutput world item) = true
  compareBy : (∀ item ∈ items, (itemFields platform metadata world).sortable
      (fieldName platform metadata type field) item = true) →
    ∀ left ∈ items, ∀ right ∈ items, (itemFields platform metadata world).compareBy
        (fieldName platform metadata type field) left right =
      (valueFields platform metadata).compareBy field
        (wireForm platform metadata type clientOutput world left)
        (wireForm platform metadata type clientOutput world right)

variable {platform metadata type clientOutput world}

/-- Items that are all delivered are encoded as their wire forms. -/
theorem encode_delivered {items : List JsValue} (h : ∀ item ∈ items,
    (deliver platform metadata type clientOutput world item).isSome = true) :
    ∃ encoded, items.mapM (encodeItem platform metadata type world) = .ok encoded ∧
      ClientOutput.items clientOutput encoded =
        some (items.map (wireForm platform metadata type clientOutput world)) := by
  induction items with
  | nil =>
      cases clientOutput with
      | none => exact ⟨[], rfl, rfl⟩
      | some output => exact ⟨[], rfl, rfl⟩
  | cons item items ih =>
      obtain ⟨rest, hrest, houtput⟩ := ih fun other hother => h other (List.mem_cons_of_mem _ hother)
      obtain ⟨wire, hwire⟩ := Option.isSome_iff_exists.1 (h item List.mem_cons_self)
      have hform : wireForm platform metadata type clientOutput world item = wire := by
        rw [wireForm, hwire]
        rfl
      rw [List.map_cons, hform]
      unfold deliver at hwire
      cases hitem : encodeItem platform metadata type world item with
      | error error =>
          rw [hitem] at hwire
          cases hwire
      | ok encoded =>
          rw [hitem] at hwire
          refine ⟨encoded :: rest, ?_, ?_⟩
          · rw [List.mapM_cons]
            exact Except.bind_eq_ok.2 ⟨_, hitem, Except.bind_eq_ok.2 ⟨_, hrest, rfl⟩⟩
          · cases clientOutput with
            | none =>
                cases hwire
                cases houtput
                rfl
            | some output =>
                change (encoded :: rest).mapM output.item = _
                rw [List.mapM_cons, show output.item encoded = some wire from hwire,
                  show rest.mapM output.item = _ from houtput]
                rfl

/-- Items that are encoded and match the declared output are delivered. -/
theorem delivered_of_encode {items : List JsValue} {encoded output : List (Value ν)}
    (hencoded : items.mapM (encodeItem platform metadata type world) = .ok encoded)
    (houtput : ClientOutput.items clientOutput encoded = some output) :
    ∀ item ∈ items, (deliver platform metadata type clientOutput world item).isSome = true := by
  induction items generalizing encoded output with
  | nil =>
      intro item hitem
      cases hitem
  | cons item items ih =>
      rw [List.mapM_cons] at hencoded
      obtain ⟨first, hfirst, hencoded⟩ := Except.bind_eq_ok.1 hencoded
      obtain ⟨rest, hrest, hencoded⟩ := Except.bind_eq_ok.1 hencoded
      cases hencoded
      unfold deliver
      cases clientOutput with
      | none =>
          refine List.forall_mem_cons.2 ⟨?_, ih hrest rfl⟩
          rw [hfirst]
          rfl
      | some declared =>
          have hmap : (first :: rest).mapM declared.item = some output := houtput
          rw [List.mapM_cons] at hmap
          obtain ⟨wire, hwire, hmap⟩ := Option.bind_eq_some_iff.1 hmap
          obtain ⟨wires, hwires, -⟩ := Option.bind_eq_some_iff.1 hmap
          refine List.forall_mem_cons.2 ⟨?_, ih hrest hwires⟩
          rw [hfirst]
          exact Option.isSome_iff_exists.2 ⟨wire, hwire⟩

/-! ### What each path renders -/

/-- The page number and the page size of a request. -/
def pageOf (options : QueryOptions) : ℕ := (options.paging.map PageRequest.page).getD 0

def sizeOf (options : QueryOptions) : ℕ := (options.paging.map PageRequest.pageSize).getD 0

/-- What is left of a sorted array. -/
def slice {α : Type} (options : QueryOptions) (offset : ℕ) (sorted : List α) : List α :=
  if sizeOf options = 0 then sorted else (sorted.drop offset).take (sizeOf options)

/-- The page of a sorted array, or the refusal of a request. -/
def arrayPage {α : Type} (malformed : List μ) (correlationId : String) (options : QueryOptions) :
    Option (List α) → QueryResult (Rendered α) μ
  | some sorted =>
      match safeOffset (pageOf options) (sizeOf options) with
      | some offset => queryResult correlationId
          { data := some (.items (slice options offset sorted))
            paging := pagingOf (pageOf options) (sizeOf options) sorted.length }
      | none => refused correlationId malformed
  | none => refused correlationId malformed

theorem arrayPage_some {α : Type} {malformed : List μ} {correlationId : String}
    {options : QueryOptions} {offset : ℕ}
    (h : safeOffset (pageOf options) (sizeOf options) = some offset) (sorted : List α) :
    arrayPage malformed correlationId options (some sorted) = queryResult correlationId
      { data := some (.items (slice options offset sorted))
        paging := pagingOf (pageOf options) (sizeOf options) sorted.length } := by
  unfold arrayPage
  rw [h]

theorem arrayPage_refused {α : Type} {malformed : List μ} {correlationId : String}
    {options : QueryOptions} {sorted : Option (List α)}
    (h : safeOffset (pageOf options) (sizeOf options) = none ∨ sorted = none) :
    arrayPage malformed correlationId options sorted = refused correlationId malformed := by
  cases sorted with
  | none => rfl
  | some sorted =>
      rcases h with hoffset | hnone
      · unfold arrayPage
        rw [hoffset]
      · cases hnone

theorem renderQueryData_array {α β : Type} {fields : Fields α β}
    {clientOutput : Option (ClientOutput α)} {malformed : List μ} {items output : List α}
    (h : ClientOutput.items clientOutput items = some output) (correlationId : String)
    (options : QueryOptions) :
    renderQueryData fields clientOutput malformed (.array items) correlationId options =
      some (arrayPage malformed correlationId options (fields.sort options.sorting output)) := by
  change (ClientOutput.items clientOutput items).map _ = _
  rw [h, Option.map_some]
  refine congrArg some ?_
  cases fields.sort options.sorting output with
  | none => rfl
  | some sorted =>
      unfold arrayPage pageOf sizeOf
      cases safeOffset ((options.paging.map PageRequest.page).getD 0)
          ((options.paging.map PageRequest.pageSize).getD 0) with
      | none => rfl
      | some offset => rfl

theorem renderQueryData_none {α β : Type} {fields : Fields α β}
    {clientOutput : Option (ClientOutput α)} {malformed : List μ} {items : List α}
    (h : ClientOutput.items clientOutput items = none) (correlationId : String)
    (options : QueryOptions) :
    renderQueryData fields clientOutput malformed (.array items) correlationId options = none := by
  change (ClientOutput.items clientOutput items).map _ = _
  rw [h]
  rfl

variable {issue : μ} {correlationId : String} {options : QueryOptions} {items : List JsValue}

theorem renderUnintercepted_eq (hcanceled : world.canceled = false) (h : ∀ item ∈ items,
    (deliver platform metadata type clientOutput world item).isSome = true) :
    renderUnintercepted (wireQuery platform metadata type clientOutput) [issue] correlationId
        options world (.array items) =
      .ok (arrayPage [issue] correlationId options ((valueFields platform metadata).sort
        options.sorting
        (items.map (wireForm platform metadata type clientOutput world)))) := by
  obtain ⟨encoded, hencoded, houtput⟩ := encode_delivered h
  refine Except.bind_unit_eq_ok.2 ⟨throwIfCanceled_eq_ok hcanceled, ?_⟩
  refine Except.bind_eq_ok.2 ⟨.array encoded, Except.bind_eq_ok.2 ⟨_, hencoded, rfl⟩, ?_⟩
  have hrender : renderQueryData (wireQuery platform metadata type clientOutput).fields
      (wireQuery platform metadata type clientOutput).clientOutput [issue] (.array encoded)
      correlationId options = _ := renderQueryData_array houtput correlationId options
  rw [hrender]
  rfl

theorem delivered_of_renderUnintercepted {result : QueryResult (Rendered (Value ν)) μ}
    (h : renderUnintercepted (wireQuery platform metadata type clientOutput) [issue] correlationId
      options world (.array items) = .ok result) : ∀ item ∈ items,
    (deliver platform metadata type clientOutput world item).isSome = true := by
  obtain ⟨-, h⟩ := Except.bind_unit_eq_ok.1 h
  obtain ⟨wire, hwire, h⟩ := Except.bind_eq_ok.1 h
  obtain ⟨encoded, hencoded, hwire⟩ := Except.bind_eq_ok.1 hwire
  cases hwire
  cases houtput : ClientOutput.items clientOutput encoded with
  | some output => exact delivered_of_encode hencoded houtput
  | none =>
      have hrender : renderQueryData (wireQuery platform metadata type clientOutput).fields
          (wireQuery platform metadata type clientOutput).clientOutput [issue] (.array encoded)
          correlationId options = none := renderQueryData_none houtput correlationId options
      rw [hrender] at h
      cases h

variable {interceptors : List (ReadModelInterceptor (ObjectValues ν))} {tenantId : Option String}

theorem renderQuery_refused (hcanceled : world.canceled = false)
    (h : safeOffset (pageOf options) (sizeOf options) = none ∨
      (itemFields platform metadata world).sort
        (rawOptions (wireQuery platform metadata type clientOutput) options).sorting items = none) :
    renderQuery (wireQuery platform metadata type clientOutput) interceptors tenantId [issue]
      correlationId options world (.array items) = .ok (refused correlationId [issue]) := by
  refine Except.bind_unit_eq_ok.2 ⟨throwIfCanceled_eq_ok hcanceled, ?_⟩
  have hpage : renderQueryData ((wireQuery platform metadata type clientOutput).rawFields world)
      none [issue] (.array items) correlationId
      (rawOptions (wireQuery platform metadata type clientOutput) options) =
        some (refused correlationId [issue]) :=
    (renderQueryData_array rfl _ _).trans (congrArg some (arrayPage_refused h))
  dsimp only
  rw [hpage]
  rfl

theorem renderQuery_eq (hcanceled : world.canceled = false)
    (hunchanging : Unchanging world interceptors) {offset : ℕ} {sorted : List JsValue}
    (hoffset : safeOffset (pageOf options) (sizeOf options) = some offset)
    (hsort : (itemFields platform metadata world).sort
      (rawOptions (wireQuery platform metadata type clientOutput) options).sorting items =
        some sorted)
    (h : ∀ item ∈ slice options offset sorted,
      (deliver platform metadata type clientOutput world item).isSome = true) :
    renderQuery (wireQuery platform metadata type clientOutput) interceptors tenantId [issue]
        correlationId options world (.array items) =
      .ok (queryResult correlationId
        { data := some (.items ((slice options offset sorted).map
            (wireForm platform metadata type clientOutput world)))
          paging := pagingOf (pageOf options) (sizeOf options) sorted.length }) := by
  refine Except.bind_unit_eq_ok.2 ⟨throwIfCanceled_eq_ok hcanceled, ?_⟩
  have hpage : renderQueryData ((wireQuery platform metadata type clientOutput).rawFields world)
      none [issue] (.array items) correlationId
      (rawOptions (wireQuery platform metadata type clientOutput) options) =
        some (queryResult correlationId
          { data := some (.items (slice options offset sorted))
            paging := pagingOf (pageOf options) (sizeOf options) sorted.length }) := by
    refine (renderQueryData_array rfl _ _).trans (congrArg some ?_)
    rw [show (wireQuery platform metadata type clientOutput).rawFields world =
      itemFields platform metadata world from rfl, hsort]
    exact arrayPage_some hoffset sorted
  obtain ⟨served, hserved, hdata, hstate, hserving⟩ :=
    serve_unchanged hcanceled hunchanging tenantId (slice options offset sorted)
  obtain ⟨encoded, hencoded, houtput⟩ := encode_delivered h
  have hencode : encodeData platform metadata type served.world served.data =
      .ok (.array encoded) := by
    rw [hdata]
    refine Except.bind_eq_ok.2 ⟨encoded, ?_, rfl⟩
    rw [← hencoded]
    refine congrArg (fun f => (slice options offset sorted).mapM f) (funext fun item => ?_)
    cases item with
    | scalar text => rfl
    | object reference =>
        unfold encodeItem valueOf
        rw [hstate]
  have hassert : assertClientOutput clientOutput (.items encoded) = .ok (.items
      ((slice options offset sorted).map
        (wireForm platform metadata type clientOutput world))) := by
    unfold assertClientOutput
    dsimp only
    rw [houtput]
  dsimp only
  rw [hpage]
  refine Except.bind_eq_ok.2 ⟨served, hserved, Except.bind_eq_ok.2 ⟨_, hencode, ?_⟩⟩
  refine Except.bind_unit_eq_ok.2 ⟨throwIfCanceled_eq_ok hserving, ?_⟩
  exact Except.bind_eq_ok.2 ⟨_, hassert, rfl⟩

/-! ### When the paths agree -/

variable (platform metadata type clientOutput world) in
/-- The items and their wire forms are in order by the field, and items with one wire form are
equal by it. -/
structure Comparable (items : List JsValue) (field : String) : Prop where
  raw : OrderedOn ((itemFields platform metadata world).compareBy
    (fieldName platform metadata type field)) items
  wire : OrderedOn (fun left right => (valueFields platform metadata).compareBy field
    (wireForm platform metadata type clientOutput world left)
    (wireForm platform metadata type clientOutput world right)) items
  injective : ∀ left ∈ items, ∀ right ∈ items,
    wireForm platform metadata type clientOutput world left =
      wireForm platform metadata type clientOutput world right →
    (itemFields platform metadata world).compareBy (fieldName platform metadata type field)
      left right = .eq

theorem Fields.sort_eq {α β : Type} {fields : Fields α β} {field : String}
    {direction : SortDirection} {items : List α}
    (h : ∀ item ∈ items, fields.sortable field item = true) :
    fields.sort (some ⟨field, direction⟩) items =
      some (items.mergeSort (fields.before ⟨field, direction⟩)) :=
  if_pos (List.all_eq_true.2 h)

theorem Fields.sort_eq_none {α β : Type} {fields : Fields α β} {field : String}
    {direction : SortDirection} {items : List α}
    (h : ¬ ∀ item ∈ items, fields.sortable field item = true) :
    fields.sort (some ⟨field, direction⟩) items = none :=
  if_neg fun hall => h (List.all_eq_true.1 hall)

theorem slice_map {α β : Type} (f : α → β) (offset : ℕ) (sorted : List α) :
    slice options offset (sorted.map f) = (slice options offset sorted).map f := by
  unfold slice
  split_ifs
  · rfl
  · rw [List.map_take, List.map_drop]

theorem mem_of_slice {α : Type} {offset : ℕ} {sorted : List α} {item : α}
    (h : item ∈ slice options offset sorted) : item ∈ sorted := by
  unfold slice at h
  split_ifs at h
  · exact h
  · exact List.mem_of_mem_drop (List.mem_of_mem_take h)

variable {field : String} {direction : SortDirection}

/-- The request for the raw items names the raw field. -/
theorem rawOptions_sorting (paging : Option PageRequest) :
    (rawOptions (wireQuery platform metadata type clientOutput)
      ⟨paging, some ⟨field, direction⟩⟩).sorting =
        some ⟨fieldName platform metadata type field, direction⟩ := rfl

/-- With agreeing comparisons, the wire forms of the sorted items are the sorted wire forms. -/
theorem map_sorted (h : Agrees platform metadata type clientOutput world items field)
    (hsortable : ∀ item ∈ items, (itemFields platform metadata world).sortable
      (fieldName platform metadata type field) item = true) :
    (items.mergeSort ((itemFields platform metadata world).before
        ⟨fieldName platform metadata type field, direction⟩)).map
        (wireForm platform metadata type clientOutput world) =
      (items.map (wireForm platform metadata type clientOutput world)).mergeSort
        ((valueFields platform metadata).before ⟨field, direction⟩) := by
  refine List.map_mergeSort fun left hleft right hright => ?_
  have hwire := h.sortable.1 hsortable
  rw [Fields.before_eq (hsortable left hleft) (hsortable right hright),
    Fields.before_eq (hwire left hleft) (hwire right hright),
    h.compareBy hsortable left hleft right hright]

theorem render_same (hunchanging : Unchanging world interceptors)
    (h : Agrees platform metadata type clientOutput world items field)
    (paging : Option PageRequest) :
    renderQuery (wireQuery platform metadata type clientOutput) interceptors tenantId [issue]
        correlationId ⟨paging, some ⟨field, direction⟩⟩ world (.array items) =
      renderUnintercepted (wireQuery platform metadata type clientOutput) [issue] correlationId
        ⟨paging, some ⟨field, direction⟩⟩ world (.array items) := by
  cases hcanceled : world.canceled with
  | true =>
      have herror : throwIfCanceled world = .error "Query canceled" := by
        unfold throwIfCanceled require
        rw [if_neg (by rw [hcanceled]; exact Bool.noConfusion)]
      unfold renderQuery renderUnintercepted
      rw [herror]
      rfl
  | false =>
      rw [renderUnintercepted_eq hcanceled h.delivered]
      by_cases hsortable : ∀ item ∈ items, (itemFields platform metadata world).sortable
          (fieldName platform metadata type field) item = true
      · have hsort : (itemFields platform metadata world).sort
            (some ⟨fieldName platform metadata type field, direction⟩) items = some _ :=
          Fields.sort_eq hsortable
        have hwire : ∀ wire ∈ items.map (wireForm platform metadata type clientOutput world),
            (valueFields platform metadata).sortable field wire = true :=
          List.forall_mem_map.2 (h.sortable.1 hsortable)
        rw [Fields.sort_eq hwire, ← map_sorted h hsortable]
        cases hoffset : safeOffset (pageOf ⟨paging, some ⟨field, direction⟩⟩)
            (sizeOf ⟨paging, some ⟨field, direction⟩⟩) with
        | none =>
            rw [renderQuery_refused hcanceled (.inl hoffset), arrayPage_refused (.inl hoffset)]
        | some offset =>
            have hdelivered : ∀ item ∈ slice ⟨paging, some ⟨field, direction⟩⟩ offset
                (items.mergeSort ((itemFields platform metadata world).before
                  ⟨fieldName platform metadata type field, direction⟩)),
                (deliver platform metadata type clientOutput world item).isSome = true :=
              fun item hitem => h.delivered item (List.mem_mergeSort.1 (mem_of_slice hitem))
            rw [renderQuery_eq hcanceled hunchanging hoffset hsort hdelivered,
              arrayPage_some hoffset, slice_map, List.length_map]
      · have hwire : ¬ ∀ wire ∈ items.map (wireForm platform metadata type clientOutput world),
            (valueFields platform metadata).sortable field wire = true :=
          fun hall => hsortable (h.sortable.2 (List.forall_mem_map.1 hall))
        rw [renderQuery_refused hcanceled (.inr (Fields.sort_eq_none hsortable)),
          Fields.sort_eq_none hwire, arrayPage_refused (.inr rfl)]

/-- With and without the interceptors, each page in each direction is the same. -/
def SamePaths (platform : Platform ν) (metadata : TypeMetadata) (type : ℕ)
    (clientOutput : Option (ClientOutput (Value ν))) (world : World (ObjectValues ν))
    (interceptors : List (ReadModelInterceptor (ObjectValues ν))) (tenantId : Option String)
    (issue : μ) (correlationId : String) (items : List JsValue) (field : String) : Prop :=
  ∀ paging direction,
    render (wireQuery platform metadata type clientOutput) interceptors tenantId [issue]
        correlationId ⟨paging, some ⟨field, direction⟩⟩ world (.array items) =
      render (wireQuery platform metadata type clientOutput) [] tenantId [issue] correlationId
        ⟨paging, some ⟨field, direction⟩⟩ world (.array items)

theorem samePaths_iff (h : interceptors ≠ []) :
    SamePaths platform metadata type clientOutput world interceptors tenantId issue correlationId
      items field ↔ ∀ paging direction,
    renderQuery (wireQuery platform metadata type clientOutput) interceptors tenantId [issue]
        correlationId ⟨paging, some ⟨field, direction⟩⟩ world (.array items) =
      renderUnintercepted (wireQuery platform metadata type clientOutput) [issue] correlationId
        ⟨paging, some ⟨field, direction⟩⟩ world (.array items) := by
  have hempty : interceptors.isEmpty = false := List.isEmpty_eq_false_iff.2 h
  unfold SamePaths render
  rw [hempty]
  exact Iff.rfl

variable (hcanceled : world.canceled = false) (hunchanging : Unchanging world interceptors)
  (hsame : ∀ paging direction,
    renderQuery (wireQuery platform metadata type clientOutput) interceptors tenantId [issue]
        correlationId ⟨paging, some ⟨field, direction⟩⟩ world (.array items) =
      renderUnintercepted (wireQuery platform metadata type clientOutput) [issue] correlationId
        ⟨paging, some ⟨field, direction⟩⟩ world (.array items))

include hcanceled hsame in
/-- A page past the largest integer is refused before anything is encoded. -/
theorem delivered_of_same : ∀ item ∈ items,
    (deliver platform metadata type clientOutput world item).isSome = true := by
  have hpage := hsame (some ⟨maxInt32 + 1, 0⟩) .ascending
  have hoffset : safeOffset (maxInt32 + 1) 0 = none :=
    if_pos (.inl (Nat.lt_succ_self maxInt32))
  rw [renderQuery_refused hcanceled (Or.inl
    (show safeOffset (pageOf ⟨some ⟨maxInt32 + 1, 0⟩, _⟩) _ = none from hoffset))] at hpage
  exact delivered_of_renderUnintercepted hpage.symm

include hcanceled hunchanging hsame in
/-- Without paging, the two paths sort alike or refuse both. -/
theorem sort_of_same (direction : SortDirection) :
    ((itemFields platform metadata world).sort
        (some ⟨fieldName platform metadata type field, direction⟩) items).map
        (List.map (wireForm platform metadata type clientOutput world)) =
      (valueFields platform metadata).sort (some ⟨field, direction⟩)
        (items.map (wireForm platform metadata type clientOutput world)) := by
  have hdelivered := delivered_of_same hcanceled hsame
  have hwhole := hsame none direction
  have hoffset : safeOffset (pageOf ⟨none, some ⟨field, direction⟩⟩)
      (sizeOf ⟨none, some ⟨field, direction⟩⟩) = some 0 := rfl
  rw [renderUnintercepted_eq hcanceled hdelivered] at hwhole
  cases hraw : (itemFields platform metadata world).sort
      (some ⟨fieldName platform metadata type field, direction⟩) items with
  | none =>
      rw [renderQuery_refused hcanceled (.inr hraw)] at hwhole
      cases hwire : (valueFields platform metadata).sort (some ⟨field, direction⟩)
          (items.map (wireForm platform metadata type clientOutput world)) with
      | none => rfl
      | some sorted =>
          rw [hwire, arrayPage_some hoffset] at hwhole
          cases congrArg (Except.map QueryResult.data) hwhole
  | some sorted =>
      have hsorted : ∀ item ∈ slice ⟨none, some ⟨field, direction⟩⟩ 0 sorted,
          (deliver platform metadata type clientOutput world item).isSome = true := by
        intro item hitem
        refine hdelivered item ?_
        unfold Fields.sort at hraw
        dsimp only at hraw
        split_ifs at hraw
        cases hraw
        exact List.mem_mergeSort.1 (mem_of_slice hitem)
      rw [renderQuery_eq hcanceled hunchanging hoffset hraw hsorted] at hwhole
      cases hwire : (valueFields platform metadata).sort (some ⟨field, direction⟩)
          (items.map (wireForm platform metadata type clientOutput world)) with
      | none =>
          rw [hwire] at hwhole
          cases congrArg (Except.map QueryResult.data) hwhole
      | some wires =>
          rw [hwire, arrayPage_some hoffset] at hwhole
          have hdata := congrArg (Except.map QueryResult.data) hwhole
          cases hdata
          rfl

include hcanceled hunchanging hsame in
theorem sortable_of_same : (∀ item ∈ items, (itemFields platform metadata world).sortable
      (fieldName platform metadata type field) item = true) ↔
    ∀ item ∈ items, (valueFields platform metadata).sortable field
      (wireForm platform metadata type clientOutput world item) = true := by
  have hsort := sort_of_same hcanceled hunchanging hsame .ascending
  have hwires : (∀ wire ∈ items.map (wireForm platform metadata type clientOutput world),
      (valueFields platform metadata).sortable field wire = true) ↔
      ∀ item ∈ items, (valueFields platform metadata).sortable field
        (wireForm platform metadata type clientOutput world item) = true :=
    List.forall_mem_map
  rw [← hwires]
  constructor
  · intro hraw
    by_contra hwire
    rw [Fields.sort_eq hraw, Fields.sort_eq_none hwire] at hsort
    cases hsort
  · intro hwire
    by_contra hraw
    rw [Fields.sort_eq hwire, Fields.sort_eq_none hraw] at hsort
    cases hsort

include hcanceled hunchanging hsame in
theorem compareBy_of_same
    (hcomparable : Comparable platform metadata type clientOutput world items field)
    (hsortable : ∀ item ∈ items, (itemFields platform metadata world).sortable
      (fieldName platform metadata type field) item = true)
    {left right : JsValue} (hleft : left ∈ items) (hright : right ∈ items) :
    (itemFields platform metadata world).compareBy (fieldName platform metadata type field)
        left right =
      (valueFields platform metadata).compareBy field
        (wireForm platform metadata type clientOutput world left)
        (wireForm platform metadata type clientOutput world right) := by
  have hwires := (sortable_of_same hcanceled hunchanging hsame).1 hsortable
  -- the sorts by the two `before` are the same in both directions
  have hsorts : ∀ direction, (items.mergeSort ((itemFields platform metadata world).before
        ⟨fieldName platform metadata type field, direction⟩)).map
        (wireForm platform metadata type clientOutput world) =
      (items.mergeSort fun left right => (valueFields platform metadata).before
        ⟨field, direction⟩ (wireForm platform metadata type clientOutput world left)
        (wireForm platform metadata type clientOutput world right)).map
        (wireForm platform metadata type clientOutput world) := by
    intro direction
    have hsort := sort_of_same hcanceled hunchanging hsame direction
    rw [Fields.sort_eq hsortable, Fields.sort_eq (List.forall_mem_map.2 hwires)] at hsort
    refine (Option.some.inj hsort).trans (Eq.symm ?_)
    exact List.map_mergeSort fun _ _ _ _ => rfl
  refine compare_eq_of_sorts (f := wireForm platform metadata type clientOutput world)
    hcomparable.raw hcomparable.wire ?_ ?_ ?_ ?_ hleft hright
  · intro a ha b hb c hc d hd hac hbd
    exact hcomparable.raw.congr ha hb hc hd (hcomparable.injective a ha c hc hac)
      (hcomparable.injective b hb d hd hbd)
  · intro a ha b hb c hc d hd hac hbd
    rw [hac, hbd]
  · have hascending := hsorts .ascending
    rw [mergeSort_congr fun a ha b hb =>
        Fields.before_ascending (hsortable a ha) (hsortable b hb),
      mergeSort_congr fun a ha b hb =>
        Fields.before_ascending (hwires a ha) (hwires b hb)] at hascending
    exact hascending
  · have hdescending := hsorts .descending
    rw [mergeSort_congr fun a ha b hb =>
        (Fields.before_descending (hsortable a ha) (hsortable b hb)).trans
          (hcomparable.raw.isGE_eq ha hb),
      mergeSort_congr fun a ha b hb =>
        (Fields.before_descending (hwires a ha) (hwires b hb)).trans
          (hcomparable.wire.isGE_eq ha hb)] at hdescending
    exact hdescending

/-- Interceptors that change nothing leave every result as it is when the items agree with their
wire forms; and only then, where the comparisons are orders. -/
theorem rendering_paths (hinterceptors : interceptors ≠ [])
    (hunchanging : Unchanging world interceptors) :
    (Agrees platform metadata type clientOutput world items field →
      SamePaths platform metadata type clientOutput world interceptors tenantId issue
        correlationId items field) ∧
    (world.canceled = false → Comparable platform metadata type clientOutput world items field →
      SamePaths platform metadata type clientOutput world interceptors tenantId issue
        correlationId items field →
      Agrees platform metadata type clientOutput world items field) := by
  rw [samePaths_iff hinterceptors]
  constructor
  · intro hagrees paging direction
    exact render_same hunchanging hagrees paging
  · intro hcanceled hcomparable hsame
    exact {
      delivered := delivered_of_same hcanceled hsame
      sortable := sortable_of_same hcanceled hunchanging hsame
      compareBy := fun hsortable left hleft right hright =>
        compareBy_of_same hcanceled hunchanging hsame hcomparable hsortable hleft hright }

end Paths

/-! ### A nullable field -/

/-- A platform for values without numbers, whose texts are ordered by their characters. -/
def textPlatform : Platform ℤ where
  compareNumbers := compare
  localeCompare := compare
  text := fun
    | .string text => text
    | _ => ""
  toISOString := fun _ => ""
  dateOnlyText := fun _ _ _ => ""
  timeOnlyText := fun _ _ _ _ => ""
  timeSpanText := fun _ => ""
  toUpperCase := fun char => String.singleton char.toUpper
  toLowerCase := fun char => String.singleton char.toLower

def author : ClassType := ⟨2, "Author"⟩

/-- Authors have a name. -/
def authorMetadata : TypeMetadata where
  fieldsFor := fun type => if type = 2 then [⟨"name", .string, none⟩] else []
  derivedTypesFor := fun _ => []
  derivedType := fun _ => none

/-- One author for each name. -/
def authors (names : List (Value ℤ)) : World (ObjectValues ℤ) where
  objects := names.map fun _ => { classType := some author }
  state := fun reference => .object 2 [("name", (names[reference]?).getD .undefined)]

/-- It returns the author it is given, released. -/
def unchangedAuthor : ReadModelInterceptor (ObjectValues ℤ) where
  model := author
  intercept := fun world reference => .ok (.object reference, world)
  isReleased := some fun _ _ => .ok true

theorem unchangedAuthor_unchanging (names : List (Value ℤ)) :
    Unchanging (authors names) [unchangedAuthor] where
  intercept := by
    intro handler hhandler world reference
    rw [List.mem_singleton.1 hhandler]
    rfl
  released := by
    intro handler hhandler isReleased hisReleased world reference
    rw [List.mem_singleton.1 hhandler] at hisReleased
    cases hisReleased
    rfl
  unmarked := by
    intro object hobject
    obtain ⟨name, -, rfl⟩ := List.mem_map.1 hobject
    rfl

/-- An author whose name is null is sorted by it with the interceptor, and refused without. -/
theorem null_name_refused_unintercepted :
    Unchanging (authors [.null]) [unchangedAuthor] ∧
      ¬ SamePaths textPlatform authorMetadata 2 none (authors [.null]) [unchangedAuthor] none ()
        "" [.object 0] "name" := by
  refine ⟨unchangedAuthor_unchanging _, fun hsame => ?_⟩
  have hsortable := sortable_of_same rfl (unchangedAuthor_unchanging _)
    ((samePaths_iff (List.cons_ne_nil _ _)).1 hsame)
  have hraw := hsortable.1 (by decide)
  have hwire := hraw (.object 0) List.mem_cons_self
  cases hwire

theorem named_agrees : Agrees textPlatform authorMetadata 2 none
    (authors [.string "b", .string "a"]) [.object 0, .object 1] "name" where
  delivered := by decide
  sortable := by decide
  compareBy := by decide

theorem named_ordered : OrderedOn (fun left right =>
    (valueFields textPlatform authorMetadata).compareBy "name"
      (wireForm textPlatform authorMetadata 2 none (authors [.string "b", .string "a"]) left)
      (wireForm textPlatform authorMetadata 2 none (authors [.string "b", .string "a"]) right))
    [.object 0, .object 1] :=
  ⟨by decide, by decide⟩

theorem named_comparable : Comparable textPlatform authorMetadata 2 none
    (authors [.string "b", .string "a"]) [.object 0, .object 1] "name" where
  raw := ⟨by decide, by decide⟩
  wire := named_ordered
  injective := by
    intro left hleft right hright hwire
    refine (named_agrees.compareBy (by decide) left hleft right hright).trans ?_
    rw [hwire]
    exact named_ordered.refl hright

/-- Named authors are served alike. -/
theorem rendering_paths_named :
    SamePaths textPlatform authorMetadata 2 none (authors [.string "b", .string "a"])
        [unchangedAuthor] none () "" [.object 0, .object 1] "name" ∧
      Agrees textPlatform authorMetadata 2 none (authors [.string "b", .string "a"])
        [.object 0, .object 1] "name" := by
  have hpaths := @rendering_paths ℤ Unit textPlatform authorMetadata 2 none
    (authors [.string "b", .string "a"]) () "" [.object 0, .object 1] [unchangedAuthor] none
    "name" (List.cons_ne_nil _ _) (unchangedAuthor_unchanging _)
  have hsame := hpaths.1 named_agrees
  exact ⟨hsame, hpaths.2 rfl named_comparable hsame⟩

end Arc.Queries
