import Arc.Queries.ReadModelInterception

/-!
# Only released read models are served

The walk of `assertNoUnreleasedReadModels` ends on every heap and fails exactly when it reaches
an object it refuses. It passes over an instance of a leaf type before it asks whether the
instance is released (`MissedLeaf`): apart from those, no query with interceptors encodes an
unreleased object.
-/

namespace Arc.Queries

variable {ω α β ν : Type} {world : World ω} {interceptors : List (ReadModelInterceptor ω)}
  {passedThrough : List ℕ}

/-! ### What must not be served -/

/-- One object names another and is no leaf. -/
def Edge (world : World ω) (source target : ℕ) : Prop :=
  ∃ object, world.objects[source]? = some object ∧ object.isLeaf = false ∧
    JsValue.object target ∈ object.values

/-- The objects reached from a value. -/
def Reachable (world : World ω) (data : JsValue) (reference : ℕ) : Prop :=
  ∃ root, data = .object root ∧ Relation.ReflTransGen (Edge world) root reference

/-- An exact-type instance that a protecting interceptor does not answer to be released. -/
def UnreleasedInstance (world : World ω) (interceptors : List (ReadModelInterceptor ω))
    (reference : ℕ) (object : JsObject) : Prop :=
  ∃ handler ∈ interceptors, object.classType = some handler.model ∧
    ∃ isReleased, handler.isReleased = some isReleased ∧ isReleased world reference ≠ .ok true

/-- A raw document of an intercepted model that was not passed through. -/
def UnreleasedRaw (interceptors : List (ReadModelInterceptor ω)) (passedThrough : List ℕ)
    (reference : ℕ) (object : JsObject) : Prop :=
  reference ∉ passedThrough ∧ ∃ provenance, object.provenance = some provenance ∧
    ∃ handler ∈ interceptors, handler.model = provenance.model

def Unreleased (world : World ω) (interceptors : List (ReadModelInterceptor ω))
    (passedThrough : List ℕ) (reference : ℕ) : Prop :=
  ∃ object, world.objects[reference]? = some object ∧
    (UnreleasedInstance world interceptors reference object ∨
      UnreleasedRaw interceptors passedThrough reference object)

/-- An unreleased instance of a leaf type, which is not a raw document besides. -/
def MissedLeaf (world : World ω) (interceptors : List (ReadModelInterceptor ω))
    (passedThrough : List ℕ) (reference : ℕ) : Prop :=
  ∃ object, world.objects[reference]? = some object ∧ object.isLeaf = true ∧
    UnreleasedInstance world interceptors reference object ∧
    ¬ UnreleasedRaw interceptors passedThrough reference object

theorem answersTrue_iff {answer : Except String Bool} : answersTrue answer = true ↔ answer = .ok true := by
  cases answer with
  | error error => simp [answersTrue]
  | ok released => simp [answersTrue]

theorem isUnreleasedInstance_iff {reference : ℕ} {object : JsObject} :
    isUnreleasedInstance world interceptors reference object = true ↔
      UnreleasedInstance world interceptors reference object := by
  unfold isUnreleasedInstance UnreleasedInstance
  rw [List.any_eq_true]
  refine exists_congr fun handler => and_congr_right fun _ => ?_
  rw [Bool.and_eq_true, decide_eq_true_eq]
  refine and_congr_right fun _ => ?_
  cases handler.isReleased with
  | none => simp
  | some isReleased => simp [← Bool.not_eq_true, answersTrue_iff]

theorem isUnreleasedRaw_iff {reference : ℕ} {object : JsObject} :
    isUnreleasedRaw interceptors passedThrough reference object = true ↔
      UnreleasedRaw interceptors passedThrough reference object := by
  unfold isUnreleasedRaw UnreleasedRaw
  cases object.provenance with
  | none => simp
  | some provenance => simp

theorem unreleased_of_missedLeaf {reference : ℕ}
    (h : MissedLeaf world interceptors passedThrough reference) :
    Unreleased world interceptors passedThrough reference := by
  obtain ⟨object, hget, -, hinstance, -⟩ := h
  exact ⟨object, hget, .inl hinstance⟩

/-! ### The walk -/

theorem unreleased_iff {reference : ℕ} {object : JsObject}
    (hget : world.objects[reference]? = some object) :
    Unreleased world interceptors passedThrough reference ↔
      UnreleasedInstance world interceptors reference object ∨
        UnreleasedRaw interceptors passedThrough reference object := by
  constructor
  · rintro ⟨other, hother, h⟩
    rw [hget] at hother
    cases hother
    exact h
  · exact fun h => ⟨object, hget, h⟩

theorem missedLeaf_iff {reference : ℕ} {object : JsObject}
    (hget : world.objects[reference]? = some object) :
    MissedLeaf world interceptors passedThrough reference ↔
      object.isLeaf = true ∧ UnreleasedInstance world interceptors reference object ∧
        ¬ UnreleasedRaw interceptors passedThrough reference object := by
  constructor
  · rintro ⟨other, hother, h⟩
    rw [hget] at hother
    cases hother
    exact h
  · exact fun h => ⟨object, hget, h⟩

/-- The visit of an object refuses it exactly when it is unreleased and not passed over. -/
theorem visit_eq_ok_iff {reference : ℕ} {object : JsObject}
    (hget : world.objects[reference]? = some object) {next : List ℕ} :
    visit world interceptors passedThrough reference = .ok next ↔
      (Unreleased world interceptors passedThrough reference →
        MissedLeaf world interceptors passedThrough reference) ∧
      next = if object.isLeaf then [] else object.values.filterMap JsValue.reference := by
  rw [unreleased_iff hget, missedLeaf_iff hget, ← isUnreleasedInstance_iff, ← isUnreleasedRaw_iff,
    visit, hget]
  dsimp only
  cases isUnreleasedRaw interceptors passedThrough reference object with
  | true =>
      rw [if_pos rfl]
      exact iff_of_false (fun h => by cases h) fun h => (h.1 (.inr rfl)).2.2 rfl
  | false =>
      rw [if_neg Bool.false_ne_true]
      cases object.isLeaf with
      | true =>
          rw [if_pos rfl, if_pos rfl, Except.ok.injEq, eq_comm]
          refine (and_iff_right fun h => ⟨rfl, ?_, Bool.false_ne_true⟩).symm
          exact h.resolve_right Bool.false_ne_true
      | false =>
          rw [if_neg Bool.false_ne_true, if_neg Bool.false_ne_true]
          cases isUnreleasedInstance world interceptors reference object with
          | true =>
              rw [if_pos rfl]
              exact iff_of_false (fun h => by cases h) fun h =>
                Bool.false_ne_true (h.1 (.inl rfl)).1
          | false =>
              rw [if_neg Bool.false_ne_true, Except.ok.injEq, eq_comm]
              refine (and_iff_right fun h => ?_).symm
              exact absurd (h.elim id id) Bool.false_ne_true

theorem lt_of_visit {reference : ℕ} {object : JsObject}
    (hget : world.objects[reference]? = some object) :
    reference ∈ (objectGraph world interceptors passedThrough).nodes :=
  Finset.mem_range.2 (List.getElem?_eq_some_iff.1 hget).1

/-- The walk follows the edges of the objects it does not refuse. -/
theorem edge_iff {source target : ℕ} : (objectGraph world interceptors passedThrough).Edge source
    target ↔ Edge world source target ∧
      (Unreleased world interceptors passedThrough source →
        MissedLeaf world interceptors passedThrough source) := by
  constructor
  · rintro ⟨hmem, next, hvisit, htarget⟩
    have hlt := Finset.mem_range.1 hmem
    have hget := List.getElem?_eq_getElem hlt
    obtain ⟨hreleased, rfl⟩ := (visit_eq_ok_iff hget).1 hvisit
    refine ⟨⟨_, hget, ?_⟩, hreleased⟩
    split_ifs at htarget with hleaf
    · exact absurd htarget List.not_mem_nil
    · obtain ⟨value, hvalue, hreference⟩ := List.mem_filterMap.1 htarget
      cases value with
      | scalar text => cases hreference
      | object reference =>
          cases hreference
          exact ⟨by simpa using hleaf, hvalue⟩
  · rintro ⟨⟨object, hget, hleaf, hvalue⟩, hreleased⟩
    refine ⟨lt_of_visit hget, _, (visit_eq_ok_iff hget).2 ⟨hreleased, rfl⟩, ?_⟩
    rw [hleaf]
    exact List.mem_filterMap.2 ⟨_, hvalue, rfl⟩

theorem reachable_object {data : JsValue} {reference : ℕ} :
    Reachable world data reference ↔
      ∃ root ∈ data.reference.toList, Relation.ReflTransGen (Edge world) root reference := by
  cases data with
  | scalar text => simp [Reachable, JsValue.reference]
  | object root => simp [Reachable, JsValue.reference]

/-- The check passes exactly when all it reaches is released, or passed over. -/
theorem assertNoUnreleasedReadModels_eq_ok_iff {data : JsValue} :
    assertNoUnreleasedReadModels world data interceptors passedThrough = .ok () ↔
      ∀ reference, Reachable world data reference →
        Unreleased world interceptors passedThrough reference →
        MissedLeaf world interceptors passedThrough reference := by
  have hvisit : ∀ reference, (∃ next, (objectGraph world interceptors passedThrough).visit
      reference = .ok next) ↔ (Unreleased world interceptors passedThrough reference →
        MissedLeaf world interceptors passedThrough reference) := by
    intro reference
    cases hget : world.objects[reference]? with
    | none =>
        refine iff_of_true ⟨[], ?_⟩ ?_
        · change visit world interceptors passedThrough reference = _
          rw [visit, hget]
        · rintro ⟨object, hobject, -⟩
          rw [hget] at hobject
          cases hobject
    | some object =>
        constructor
        · rintro ⟨next, hnext⟩
          exact ((visit_eq_ok_iff hget).1 hnext).1
        · exact fun h => ⟨_, (visit_eq_ok_iff hget).2 ⟨h, rfl⟩⟩
  rw [assertNoUnreleasedReadModels, Graph.walk_eq_ok_iff]
  constructor
  · intro h reference hreachable
    obtain ⟨root, hroot, hpath⟩ := reachable_object.1 hreachable
    -- every object on the way was visited without a refusal
    have hwalked : ∀ target, Relation.ReflTransGen (Edge world) root target →
        Relation.ReflTransGen (objectGraph world interceptors passedThrough).Edge root target := by
      intro target hpath
      induction hpath with
      | refl => exact .refl
      | tail _ hedge ih =>
          obtain ⟨object, hget, -⟩ := id hedge
          have hsource := (hvisit _).1 (h _ ⟨lt_of_visit hget, root, hroot, ih⟩)
          exact ih.tail (edge_iff.2 ⟨hedge, hsource⟩)
    rintro ⟨object, hget, hunreleased⟩
    exact (hvisit _).1 (h _ ⟨lt_of_visit hget, root, hroot, hwalked _ hpath⟩)
      ⟨object, hget, hunreleased⟩
  · rintro h reference ⟨-, root, hroot, hpath⟩
    refine (hvisit _).2 (h _ (reachable_object.2 ⟨root, hroot, ?_⟩))
    exact Relation.ReflTransGen.mono (fun _ _ hedge => (edge_iff.1 hedge).1) _ _ hpath

/-! ### The documents passed through -/

/-- The interceptors of its own model have returned a raw document of the caller's tenant. -/
def PassesThrough (interceptors : List (ReadModelInterceptor ω)) (tenantId : Option String)
    (reference : ℕ) : Prop :=
  ∃ (before after : World ω) (object : JsObject) (provenance : RawReadModelProvenance),
    before.objects[reference]? = some object ∧ object.provenance = some provenance ∧
    some provenance.tenantId = tenantId ∧
    interceptRaw provenance (interceptors.filter (·.model = provenance.model))
      (.object reference) before = .ok (.object reference, after)

/-- The values a query returns: the items of an array or of a page, or the one value. -/
def slots : QueryData α → List α
  | .page page => page.items
  | .array items => items
  | .single value => [value]

variable {tenantId : Option String}

theorem interceptReadModel_passedThrough {item : JsValue} {result : Intercepted ω JsValue}
    (h : interceptReadModel interceptors tenantId item world passedThrough = .ok result)
    {reference : ℕ} (hmem : reference ∈ result.passedThrough) :
    reference ∈ passedThrough ∨
      item = .object reference ∧ PassesThrough interceptors tenantId reference := by
  obtain ⟨-, h⟩ := Except.bind_unit_eq_ok.1 h
  cases item with
  | scalar text =>
      cases h
      exact .inl hmem
  | object document =>
      cases hobject : world.object (.object document) with
      | none =>
          rw [hobject] at h
          cases h
          exact .inl hmem
      | some object =>
          rw [hobject] at h
          dsimp only [JsValue.reference] at h
          cases hprovenance : object.provenance with
          | none =>
              rw [hprovenance] at h
              obtain ⟨⟨replaced, world'⟩, -, h⟩ := Except.bind_eq_ok.1 h
              dsimp only at h
              split at h
              · obtain ⟨⟨released, world''⟩, -, h⟩ := Except.bind_eq_ok.1 h
                cases h
                exact .inl hmem
              · cases h
                exact .inl hmem
          | some provenance =>
              rw [hprovenance] at h
              dsimp only at h
              split_ifs at h with hhandlers htenant
              · cases h
                exact .inl hmem
              · obtain ⟨⟨returned, world'⟩, hraw, h⟩ := Except.bind_eq_ok.1 h
                cases h
                dsimp only at hmem
                split_ifs at hmem with hsame
                · rcases List.mem_cons.1 hmem with rfl | hmem
                  · refine .inr ⟨rfl, world, world', object, provenance, hobject, hprovenance,
                      not_not.1 htenant, ?_⟩
                    rw [hraw, hsame]
                  · exact .inl hmem
                · exact .inl hmem

theorem interceptItems_passedThrough {items : List JsValue}
    {result : Intercepted ω (List JsValue)}
    (h : interceptItems interceptors tenantId items world passedThrough = .ok result)
    {reference : ℕ} (hmem : reference ∈ result.passedThrough) :
    reference ∈ passedThrough ∨
      JsValue.object reference ∈ items ∧ PassesThrough interceptors tenantId reference := by
  induction items generalizing world passedThrough result with
  | nil =>
      cases h
      exact .inl hmem
  | cons item items ih =>
      obtain ⟨first, hfirst, h⟩ := Except.bind_eq_ok.1 h
      obtain ⟨rest, hrest, h⟩ := Except.bind_eq_ok.1 h
      cases h
      rcases ih hrest hmem with hmem | ⟨hitem, hpasses⟩
      · rcases interceptReadModel_passedThrough hfirst hmem with hmem | ⟨rfl, hpasses⟩
        · exact .inl hmem
        · exact .inr ⟨List.mem_cons_self, hpasses⟩
      · exact .inr ⟨List.mem_cons_of_mem _ hitem, hpasses⟩

theorem interceptData_passedThrough {data : QueryData JsValue}
    {result : Intercepted ω (QueryData JsValue)}
    (h : interceptData interceptors tenantId world data = .ok result) :
    ∀ reference ∈ result.passedThrough,
      JsValue.object reference ∈ slots data ∧ PassesThrough interceptors tenantId reference := by
  intro reference hmem
  cases data with
  | page page =>
      obtain ⟨items, hitems, h⟩ := Except.bind_eq_ok.1 h
      obtain ⟨cut, -, h⟩ := Except.bind_eq_ok.1 h
      cases h
      exact (interceptItems_passedThrough hitems hmem).resolve_left List.not_mem_nil
  | array list =>
      obtain ⟨items, hitems, h⟩ := Except.bind_eq_ok.1 h
      cases h
      exact (interceptItems_passedThrough hitems hmem).resolve_left List.not_mem_nil
  | single value =>
      obtain ⟨item, hitem, h⟩ := Except.bind_eq_ok.1 h
      cases h
      obtain ⟨rfl, hpasses⟩ :=
        (interceptReadModel_passedThrough hitem hmem).resolve_left List.not_mem_nil
      exact ⟨List.mem_singleton_self _, hpasses⟩

/-! ### What is encoded -/

theorem Reachable.of_value {source : ℕ} {object : JsObject}
    (hget : world.objects[source]? = some object) (hleaf : object.isLeaf = false) {item : JsValue}
    (hitem : item ∈ object.values) {reference : ℕ} (h : Reachable world item reference) :
    Reachable world (.object source) reference := by
  obtain ⟨root, rfl, hpath⟩ := h
  exact ⟨source, rfl, .head ⟨object, hget, hleaf, hitem⟩ hpath⟩

theorem getElem?_allocate (world : World ω) (object : JsObject) :
    (world.allocate object).2.objects[world.objects.length]? = some object := by
  simp [World.allocate]

theorem getElem?_allocate_of_some {object other : JsObject} {reference : ℕ}
    (h : world.objects[reference]? = some other) :
    (world.allocate object).2.objects[reference]? = some other := by
  change (world.objects ++ [object])[reference]? = some other
  rw [List.getElem?_append_left (List.getElem?_eq_some_iff.1 h).1]
  exact h

/-- What is reached from the data is reached from the value that is checked. -/
theorem reachable_materialize {data : QueryData JsValue} {item : JsValue} (hitem : item ∈ slots data)
    {reference : ℕ} (h : Reachable (materialize world data).2 item reference) :
    Reachable (materialize world data).2 (materialize world data).1 reference := by
  cases data with
  | single value =>
      obtain rfl := List.mem_singleton.1 hitem
      exact h
  | array items => exact h.of_value (getElem?_allocate world _) rfl hitem
  | page page =>
      have hitems := getElem?_allocate world { classType := some .array, values := page.items }
      unfold materialize at h ⊢
      dsimp only at h ⊢
      cases hsorting : page.sorting with
      | none =>
          rw [hsorting] at h
          have harray := h.of_value (getElem?_allocate_of_some hitems) rfl hitem
          exact harray.of_value (getElem?_allocate _ _) rfl List.mem_cons_self
      | some sorting =>
          rw [hsorting] at h
          have harray := h.of_value
            (getElem?_allocate_of_some (getElem?_allocate_of_some hitems)) rfl hitem
          exact harray.of_value (getElem?_allocate _ _) rfl List.mem_cons_self

/-- Data that is served has passed the check. -/
theorem serve_eq_ok {data : QueryData JsValue} {served : Served ω}
    (h : serve interceptors tenantId world data = .ok served) :
    (∀ reference ∈ served.passedThrough,
      JsValue.object reference ∈ slots data ∧ PassesThrough interceptors tenantId reference) ∧
    ∀ item ∈ slots served.data, ∀ reference, Reachable served.world item reference →
      Unreleased served.world interceptors served.passedThrough reference →
      MissedLeaf served.world interceptors served.passedThrough reference := by
  obtain ⟨intercepted, hintercepted, h⟩ := Except.bind_eq_ok.1 h
  obtain ⟨-, h⟩ := Except.bind_unit_eq_ok.1 h
  obtain ⟨hchecked, h⟩ := Except.bind_unit_eq_ok.1 h
  cases h
  refine ⟨interceptData_passedThrough hintercepted, fun item hitem reference hreachable => ?_⟩
  exact assertNoUnreleasedReadModels_eq_ok_iff.1 hchecked reference
    (reachable_materialize hitem hreachable)

/-! ### Rendered queries -/

theorem mem_of_sort {fields : Fields α β} {sorting : Option SortRequest} {items sorted : List α}
    (h : fields.sort sorting items = some sorted) {item : α} (hitem : item ∈ sorted) :
    item ∈ items := by
  cases sorting with
  | none =>
      cases h
      exact hitem
  | some sorting =>
      dsimp only [Fields.sort] at h
      split_ifs at h
      cases h
      exact List.mem_mergeSort.1 hitem

theorem mem_of_queryResult {correlationId : String} {values : QueryResultValues (Rendered α) ν}
    {data : Rendered α} (h : (queryResult correlationId values).data = some data) :
    values.data = some data := by
  dsimp only [queryResult] at h
  split_ifs at h
  exact h

/-- A page of an array holds items of the array. -/
theorem mem_of_renderQueryData {fields : Fields α β} {malformed : List ν} {correlationId : String}
    {options : QueryOptions} {items list : List α} {page : QueryResult (Rendered α) ν}
    (h : renderQueryData fields none malformed (.array items) correlationId options = some page)
    (hdata : page.data = some (.items list)) {item : α} (hitem : item ∈ list) : item ∈ items := by
  cases h
  dsimp only at hdata
  split at hdata
  · next hsort _ =>
      have hlist := mem_of_queryResult hdata
      cases hlist
      refine mem_of_sort hsort ?_
      split_ifs at hitem
      · exact hitem
      · exact List.mem_of_mem_drop (List.mem_of_mem_take hitem)
  · have hlist := mem_of_queryResult hdata
    cases hlist

/-- What `renderQuery` encodes is served from the slots of the data. -/
theorem renderQuery_eq_ok {definition : QueryDefinition ω α β} {malformed : List ν}
    {correlationId : String} {options : QueryOptions} {data : QueryData JsValue}
    {result : QueryResult (Rendered α) ν}
    (h : renderQuery definition interceptors tenantId malformed correlationId options world data =
      .ok result) (hdata : result.data ≠ none) :
    ∃ (list : QueryData JsValue) (served : Served ω) (wire : QueryData α),
      (∀ item ∈ slots list, item ∈ slots data) ∧
      serve interceptors tenantId world list = .ok served ∧
      definition.encode served.world served.data = .ok wire := by
  obtain ⟨-, h⟩ := Except.bind_unit_eq_ok.1 h
  cases data with
  | array items =>
      dsimp only at h
      split at h
      · cases h
      · next page hpage =>
          split at h
          · next list hsuccess hlist =>
              obtain ⟨served, hserved, h⟩ := Except.bind_eq_ok.1 h
              obtain ⟨wire, hwire, -⟩ := Except.bind_eq_ok.1 h
              refine ⟨.array list, served, wire, fun item hitem => ?_, hserved, hwire⟩
              exact mem_of_renderQueryData hpage hlist hitem
          · cases h
            exact absurd rfl hdata
  | page page =>
      obtain ⟨served, hserved, h⟩ := Except.bind_eq_ok.1 h
      obtain ⟨wire, hwire, -⟩ := Except.bind_eq_ok.1 h
      exact ⟨_, served, wire, fun _ hitem => hitem, hserved, hwire⟩
  | single value =>
      obtain ⟨served, hserved, h⟩ := Except.bind_eq_ok.1 h
      obtain ⟨wire, hwire, -⟩ := Except.bind_eq_ok.1 h
      exact ⟨_, served, wire, fun _ hitem => hitem, hserved, hwire⟩

/-- A protected class that extends `Map`. -/
def secrets : ClassType := ⟨2, "Secrets"⟩

def secretsInterceptor (released : Bool) : ReadModelInterceptor Unit where
  model := secrets
  intercept := fun world reference => .ok (.object reference, world)
  isReleased := some fun _ _ => .ok released

/-- An object with an instance of the protected class in a field. -/
def secretsWorld : World Unit where
  objects := [⟨some .object, false, none, [.object 1]⟩, ⟨some secrets, true, none, []⟩]
  state := ()

/-- A query that encodes its data as it is. -/
def secretsQuery : QueryDefinition Unit JsValue String where
  rawFields := fun _ => ⟨fun _ _ => none, fun _ => true, compare⟩
  fields := ⟨fun _ _ => none, fun _ => true, compare⟩
  fieldName := id
  encode := fun _ data => .ok data
  clientOutput := none

end Arc.Queries
