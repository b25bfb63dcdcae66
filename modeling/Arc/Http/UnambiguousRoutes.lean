import Arc.Http.RouteTable

/-!
# Unambiguous routes

The loop that enters the operations accepts a list exactly when the names and the routes of the
whole list are distinct and no route is reserved (`register_all_eq_ok`), a condition that does
not depend on the order of the list. The operations are those of the definitions, and the
routes of an operation lead to it and to no other.
-/

namespace Arc.Http

variable {σ : Type} {toLowerCase : String → String} {schemas : Schemas σ} {options : ArcOptions σ}

/-- The routes an operation answers. -/
def Operation.routes (operation : Operation σ) : List String :=
  if operation.kind = .command then [operation.route, operation.validateRoute]
  else [operation.route]

/-- Distinct names, distinct routes, and none of the reserved endpoints. -/
structure Unambiguous (toLowerCase : String → String) (operations : List (Operation σ)) :
    Prop where
  names : (operations.map (Operation.qualifiedName toLowerCase)).Nodup
  routes : (operations.flatMap Operation.routes).Nodup
  reserved : ∀ path ∈ operations.flatMap Operation.routes, path ∉ reserved

/-! ### Entering operations -/

theorem validateRoute_ne (operation : Operation σ) :
    operation.validateRoute ≠ operation.route := by
  intro h
  have hlength := congrArg (fun path : String => path.toList.length) h
  simp [Operation.validateRoute] at hlength

theorem routes_nodup (operation : Operation σ) : operation.routes.Nodup := by
  unfold Operation.routes
  split_ifs
  · simpa using (validateRoute_ne operation).symm
  · exact List.nodup_singleton _

namespace Registry

@[simp] theorem names_add (registry : Registry σ) (operation : Operation σ) :
    (registry.add toLowerCase options operation).names =
      operation.qualifiedName toLowerCase :: registry.names := rfl

theorem get_add (registry : Registry σ) (operation : Operation σ) (path : String) :
    (registry.add toLowerCase options operation).routes.get path =
      if path ∈ operation.routes then some operation else registry.routes.get path := by
  unfold Registry.add Operation.routes
  by_cases hkind : operation.kind = .command
  · simp only [hkind, if_true]
    by_cases hvalidate : path = operation.validateRoute
    · subst hvalidate
      simp
    · rw [InsertionMap.get_set_of_ne _ _ hvalidate]
      by_cases hroute : path = operation.route
      · subst hroute
        simp
      · rw [InsertionMap.get_set_of_ne _ _ hroute]
        simp [hroute, hvalidate]
  · simp only [hkind, if_false]
    by_cases hroute : path = operation.route
    · subst hroute
      simp
    · rw [InsertionMap.get_set_of_ne _ _ hroute]
      simp [hroute]

theorem has_add {registry : Registry σ} {operation : Operation σ} {path : String} :
    (registry.add toLowerCase options operation).has path ↔
      path ∈ operation.routes ∨ registry.has path := by
  rw [Registry.has, InsertionMap.mem_keys_iff, get_add, Registry.has, InsertionMap.mem_keys_iff]
  split_ifs with h
  · simp [h]
  · simp [h]

end Registry

/-- The operations can be entered into the registry. -/
structure Enters (toLowerCase : String → String) (registry : Registry σ)
    (operations : List (Operation σ)) : Prop where
  unambiguous : Unambiguous toLowerCase operations
  names_new : ∀ operation ∈ operations, operation.qualifiedName toLowerCase ∉ registry.names
  routes_new : ∀ path ∈ operations.flatMap Operation.routes, ¬ registry.has path

theorem register_eq_ok {registry registry' : Registry σ} {operation : Operation σ} :
    register toLowerCase options registry operation = .ok registry' ↔
      (operation.qualifiedName toLowerCase ∉ registry.names ∧
        ∀ path ∈ operation.routes, ¬ registry.has path ∧ path ∉ reserved) ∧
      registry' = registry.add toLowerCase options operation := by
  have hroutes : (∀ path ∈ operation.routes, ¬ registry.has path ∧ path ∉ reserved) ↔
      ¬ (registry.has operation.route ∨ operation.route ∈ reserved ∨
        (operation.kind = .command ∧
          (registry.has operation.validateRoute ∨ operation.validateRoute ∈ reserved))) := by
    unfold Operation.routes
    split_ifs with hkind
    · simp only [List.mem_cons, List.not_mem_nil, or_false, forall_eq_or_imp, forall_eq, hkind]
      tauto
    · simp only [List.mem_singleton, forall_eq, hkind]
      tauto
  rw [hroutes, register, Except.bind_unit_eq_ok, require_eq_ok, Except.bind_unit_eq_ok,
    require_eq_ok, and_assoc]
  refine and_congr_right fun _ => and_congr_right fun _ => ?_
  simp [pure, Except.pure, eq_comm]

/-- The rest of a list can be entered exactly when the whole list could. -/
theorem enters_cons (options : ArcOptions σ) {registry : Registry σ} {operation : Operation σ}
    {operations : List (Operation σ)} :
    Enters toLowerCase registry (operation :: operations) ↔
      (operation.qualifiedName toLowerCase ∉ registry.names ∧
        ∀ path ∈ operation.routes, ¬ registry.has path ∧ path ∉ reserved) ∧
      Enters toLowerCase (registry.add toLowerCase options operation) operations := by
  constructor
  · rintro ⟨⟨hnames, hroutes, hreserved⟩, hnew, hpaths⟩
    rw [List.map_cons, List.nodup_cons] at hnames
    rw [List.flatMap_cons, List.nodup_append] at hroutes
    rw [List.flatMap_cons] at hreserved hpaths
    refine ⟨⟨hnew operation List.mem_cons_self, fun path hpath =>
      ⟨hpaths path (List.mem_append_left _ hpath), hreserved path (List.mem_append_left _ hpath)⟩⟩,
      ⟨hnames.2, hroutes.2.1, fun path hpath => hreserved path (List.mem_append_right _ hpath)⟩,
      ?_, ?_⟩
    · intro other hother hmem
      rcases List.mem_cons.1 hmem with heq | hmem
      · exact hnames.1 (heq ▸ List.mem_map_of_mem hother)
      · exact hnew other (List.mem_cons_of_mem _ hother) hmem
    · intro path hpath hhas
      rcases Registry.has_add.1 hhas with hmem | hhas
      · exact hroutes.2.2 path hmem path hpath rfl
      · exact hpaths path (List.mem_append_right _ hpath) hhas
  · rintro ⟨⟨hname, hpaths⟩, ⟨hnames, hroutes, hreserved⟩, hnew, hrest⟩
    have hfresh : ∀ path ∈ operations.flatMap Operation.routes, path ∉ operation.routes :=
      fun path hpath hmem => hrest path hpath (Registry.has_add.2 (.inl hmem))
    refine ⟨⟨?_, ?_, ?_⟩, ?_, ?_⟩
    · rw [List.map_cons, List.nodup_cons]
      refine ⟨fun hmem => ?_, hnames⟩
      obtain ⟨other, hother, heq⟩ := List.mem_map.1 hmem
      exact hnew other hother (by rw [heq]; exact List.mem_cons_self)
    · rw [List.flatMap_cons, List.nodup_append]
      exact ⟨routes_nodup operation, hroutes,
        fun path hpath other hother heq => hfresh other hother (heq ▸ hpath)⟩
    · intro path hpath
      rw [List.flatMap_cons, List.mem_append] at hpath
      exact hpath.elim (fun h => (hpaths path h).2) (hreserved path)
    · intro other hother
      rcases List.mem_cons.1 hother with rfl | hother
      · exact hname
      · exact fun hmem => hnew other hother (List.mem_cons_of_mem _ hmem)
    · intro path hpath hhas
      rw [List.flatMap_cons, List.mem_append] at hpath
      rcases hpath with hpath | hpath
      · exact (hpaths path hpath).1 hhas
      · exact hrest path hpath (Registry.has_add.2 (.inr hhas))

/-- The loop over the operations accepts exactly what can be entered. -/
theorem register_all_eq_ok {registry registry' : Registry σ} {operations : List (Operation σ)} :
    operations.foldlM (register toLowerCase options) registry = .ok registry' ↔
      Enters toLowerCase registry operations ∧
        registry' = operations.foldl (Registry.add · toLowerCase options ·) registry := by
  induction operations generalizing registry with
  | nil =>
      have hempty : Enters toLowerCase registry [] :=
        ⟨⟨List.nodup_nil, List.nodup_nil, by simp⟩, by simp, by simp⟩
      simp [pure, Except.pure, eq_comm, hempty]
  | cons operation operations ih =>
      rw [List.foldlM_cons, Except.bind_eq_ok, enters_cons options, List.foldl_cons]
      constructor
      · rintro ⟨next, hnext, hrest⟩
        obtain ⟨hnew, rfl⟩ := register_eq_ok.1 hnext
        obtain ⟨henters, rfl⟩ := ih.1 hrest
        exact ⟨⟨hnew, henters⟩, rfl⟩
      · rintro ⟨⟨hnew, henters⟩, rfl⟩
        exact ⟨_, register_eq_ok.2 ⟨hnew, rfl⟩, ih.2 ⟨henters, rfl⟩⟩

/-- A route leads to an operation that was there or has been entered with it. -/
theorem get_add_all {registry : Registry σ} {operations : List (Operation σ)}
    (h : Enters toLowerCase registry operations) {path : String} {operation : Operation σ} :
    (operations.foldl (Registry.add · toLowerCase options ·) registry).routes.get path =
        some operation ↔
      registry.routes.get path = some operation ∨
        operation ∈ operations ∧ path ∈ operation.routes := by
  induction operations generalizing registry with
  | nil => simp
  | cons first operations ih =>
      obtain ⟨⟨-, hfirst⟩, hrest⟩ := (enters_cons options).1 h
      rw [List.foldl_cons, ih hrest, Registry.get_add, List.mem_cons]
      by_cases hmem : path ∈ first.routes
      · have hnone : registry.routes.get path = none :=
          InsertionMap.get_eq_none_iff.2 (hfirst path hmem).1
        have hother : ∀ other ∈ operations, path ∉ other.routes := fun other hother hpath =>
          hrest.routes_new path (List.mem_flatMap.2 ⟨other, hother, hpath⟩)
            (Registry.has_add.2 (.inl hmem))
        rw [if_pos hmem, hnone, Option.some_inj]
        constructor
        · rintro (rfl | ⟨hin, hpath⟩)
          · exact .inr ⟨.inl rfl, hmem⟩
          · exact absurd hpath (hother operation hin)
        · rintro (hnot | ⟨rfl | hin, hpath⟩)
          · cases hnot
          · exact .inl rfl
          · exact absurd hpath (hother operation hin)
      · rw [if_neg hmem]
        constructor
        · rintro (hget | ⟨hin, hpath⟩)
          · exact .inl hget
          · exact .inr ⟨.inr hin, hpath⟩
        · rintro (hget | ⟨rfl | hin, hpath⟩)
          · exact .inl hget
          · exact absurd hpath hmem
          · exact .inr ⟨hin, hpath⟩

end Arc.Http
