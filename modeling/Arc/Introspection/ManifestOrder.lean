import Arc.Introspection.CanonicalDescriptors
import Mathlib.Data.List.Perm.Basic

/-!
# The order of a manifest's operations

Registering an operation refuses more than what it claims already taken: for every kind it looks
for the validation route of the new operation, and for a command also for the route its own one
would be the validation route of. Two operations one of which stands under the other's route are
refused in one order and may be accepted in the other; a manifest is returned in the order of
the ids and so may be refused when it is validated again.
-/

namespace Arc.Introspection

/-! ### What two operations share -/

/-- Two operations share a folded id, a folded symbol or a route. -/
def Clash (first second : ClientOperation) : Prop :=
  first.foldedId = second.foldedId ∨ first.foldedSymbol = second.foldedSymbol ∨
    ∃ route ∈ first.routes, route ∈ second.routes

instance (first second : ClientOperation) : Decidable (Clash first second) :=
  inferInstanceAs (Decidable (_ ∨ _ ∨ _))

/-- The inner operation stands where validation of the outer one would, were this a command; or
both are commands and the inner one stands where validation of this validation would. -/
def Nested (outer inner : ClientOperation) : Prop :=
  (outer.kind ≠ .command ∧ inner.foldedRoute = outer.foldedRoute ++ validateSuffix) ∨
    (outer.kind = .command ∧ inner.kind = .command ∧
      inner.foldedRoute = outer.foldedRoute ++ validateSuffix ++ validateSuffix)

/-- The later operation is refused after the earlier one. -/
def Collides (earlier later : ClientOperation) : Prop :=
  (OperationRegistry.empty.add earlier).collides later = true

instance (earlier later : ClientOperation) : Decidable (Collides earlier later) :=
  inferInstanceAs (Decidable (_ = true))

/-- The later operation is refused for the sake of its place under, or over, the earlier one. -/
def Misplaced (earlier later : ClientOperation) : Prop :=
  (later.kind ≠ .command ∧ earlier.foldedRoute = later.foldedRoute ++ validateSuffix) ∨
    (later.kind = .command ∧ earlier.kind ≠ .command ∧
      later.foldedRoute = earlier.foldedRoute ++ validateSuffix) ∨
    (later.kind = .command ∧ earlier.kind = .command ∧
      later.foldedRoute = earlier.foldedRoute ++ validateSuffix ++ validateSuffix)

theorem Clash.symm {first second : ClientOperation} (h : Clash first second) :
    Clash second first := by
  rcases h with h | h | ⟨route, hfirst, hsecond⟩
  · exact .inl h.symm
  · exact .inr (.inl h.symm)
  · exact .inr (.inr ⟨route, hsecond, hfirst⟩)

theorem misplaced_or_iff {first second : ClientOperation} :
    Misplaced first second ∨ Misplaced second first ↔ Nested first second ∨ Nested second first := by
  constructor
  · rintro ((⟨h, hroute⟩ | ⟨-, h, hroute⟩ | ⟨h, h', hroute⟩) |
      (⟨h, hroute⟩ | ⟨-, h, hroute⟩ | ⟨h, h', hroute⟩))
    · exact .inr (.inl ⟨h, hroute⟩)
    · exact .inl (.inl ⟨h, hroute⟩)
    · exact .inl (.inr ⟨h', h, hroute⟩)
    · exact .inl (.inl ⟨h, hroute⟩)
    · exact .inr (.inl ⟨h, hroute⟩)
    · exact .inr (.inr ⟨h', h, hroute⟩)
  · rintro ((⟨h, hroute⟩ | ⟨h, h', hroute⟩) | (⟨h, hroute⟩ | ⟨h, h', hroute⟩))
    · exact .inr (.inl ⟨h, hroute⟩)
    · exact .inl (.inr (.inr ⟨h', h, hroute⟩))
    · exact .inl (.inl ⟨h, hroute⟩)
    · exact .inr (.inr (.inr ⟨h', h, hroute⟩))

theorem mem_routes {operation : ClientOperation} {route : Text} :
    route ∈ operation.routes ↔ route = operation.foldedRoute ∨
      (operation.kind = .command ∧ route = operation.foldedRoute ++ validateSuffix) := by
  unfold ClientOperation.routes
  rw [List.mem_cons]
  split_ifs with h
  · rw [List.mem_singleton]
    exact or_congr_right ⟨fun hroute => ⟨h, hroute⟩, fun hroute => hroute.2⟩
  · exact or_congr_right ⟨fun hroute => absurd hroute List.not_mem_nil, fun hroute =>
      absurd hroute.1 h⟩

@[simp] theorem withoutValidate_append (route : Text) :
    withoutValidate (route ++ validateSuffix) = route := by
  rw [withoutValidate, if_pos (List.suffix_append route validateSuffix), List.length_append,
    Nat.add_sub_cancel, List.take_left]

theorem withoutValidate_cases (route : Text) :
    route = withoutValidate route ++ validateSuffix ∨ route = withoutValidate route := by
  by_cases h : validateSuffix <:+ route
  · obtain ⟨start, rfl⟩ := h
    rw [withoutValidate_append]
    exact .inl rfl
  · rw [withoutValidate, if_neg h]
    exact .inr rfl

theorem collides_iff_mem {earlier later : ClientOperation} :
    Collides earlier later ↔ later.foldedId = earlier.foldedId ∨
      later.foldedRoute ∈ earlier.routes ∨ later.foldedSymbol = earlier.foldedSymbol ∨
      later.foldedRoute ++ validateSuffix ∈ earlier.routes ∨
      (later.kind = .command ∧ withoutValidate later.foldedRoute ∈ earlier.routes) := by
  simp only [Collides, OperationRegistry.collides, OperationRegistry.add, OperationRegistry.empty,
    Bool.or_eq_true, Bool.and_eq_true, beq_iff_eq, List.contains_iff_mem, List.append_nil,
    List.mem_singleton, or_assoc]

theorem collides_of_clash {earlier later : ClientOperation} (h : Clash earlier later) :
    Collides earlier later := by
  rw [collides_iff_mem]
  rcases h with h | h | ⟨route, hearlier, hlater⟩
  · exact .inl h.symm
  · exact .inr (.inr (.inl h.symm))
  · rcases mem_routes.1 hlater with rfl | ⟨-, rfl⟩
    · exact .inr (.inl hearlier)
    · exact .inr (.inr (.inr (.inl hearlier)))

theorem collides_of_misplaced {earlier later : ClientOperation} (h : Misplaced earlier later) :
    Collides earlier later := by
  rw [collides_iff_mem]
  rcases h with ⟨-, hroute⟩ | ⟨hlater, -, hroute⟩ | ⟨hlater, hearlier, hroute⟩
  · exact .inr (.inr (.inr (.inl (mem_routes.2 (.inl hroute.symm)))))
  · refine .inr (.inr (.inr (.inr ⟨hlater, mem_routes.2 (.inl ?_)⟩)))
    rw [hroute, withoutValidate_append]
  · refine .inr (.inr (.inr (.inr ⟨hlater, mem_routes.2 (.inr ⟨hearlier, ?_⟩)⟩)))
    rw [hroute, withoutValidate_append]

/-- An operation is refused after another for what they share, or for its place. -/
theorem collides_iff {earlier later : ClientOperation} :
    Collides earlier later ↔ Clash earlier later ∨ Misplaced earlier later := by
  refine ⟨fun h => ?_, fun h => h.elim collides_of_clash collides_of_misplaced⟩
  have hshared {route : Text} (hearlier : route ∈ earlier.routes) (hlater : route ∈ later.routes) :
      Clash earlier later := .inr (.inr ⟨route, hearlier, hlater⟩)
  rcases collides_iff_mem.1 h with h | h | h | h | ⟨hkind, h⟩
  · exact .inl (.inl h.symm)
  · exact .inl (hshared h (mem_routes.2 (.inl rfl)))
  · exact .inl (.inr (.inl h.symm))
  · by_cases hkind : later.kind = .command
    · exact .inl (hshared h (mem_routes.2 (.inr ⟨hkind, rfl⟩)))
    · rcases mem_routes.1 h with hroute | ⟨-, hroute⟩
      · exact .inr (.inl ⟨hkind, hroute.symm⟩)
      · have hsame := List.append_cancel_right hroute
        exact .inl (hshared (mem_routes.2 (.inl rfl)) (mem_routes.2 (.inl hsame.symm)))
  · rcases withoutValidate_cases later.foldedRoute with hroute | hroute
    · rcases mem_routes.1 h with hplace | ⟨hearlier, hplace⟩
      · rw [hplace] at hroute
        by_cases hearlier : earlier.kind = .command
        · exact .inl (hshared (mem_routes.2 (.inr ⟨hearlier, rfl⟩))
            (mem_routes.2 (.inl hroute.symm)))
        · exact .inr (.inr (.inl ⟨hkind, hearlier, hroute⟩))
      · rw [hplace] at hroute
        exact .inr (.inr (.inr ⟨hkind, hearlier, hroute⟩))
    · rw [← hroute] at h
      exact .inl (hshared h (mem_routes.2 (.inl rfl)))

/-! ### Registering a list of operations -/

theorem OperationRegistry.collides_add {registry : OperationRegistry}
    {earlier later : ClientOperation} : (registry.add earlier).collides later = true ↔
      registry.collides later = true ∨ Collides earlier later := by
  rw [collides_iff_mem]
  simp only [OperationRegistry.collides, OperationRegistry.add, Bool.or_eq_true,
    Bool.and_eq_true, beq_iff_eq, List.contains_iff_mem, List.mem_cons, List.mem_append]
  tauto

/-- Why a manifest is refused when two operations collide. -/
def duplicateDetail : String := "duplicate ID, generated symbol or route"

theorem OperationRegistry.registerAll_cases (registry : OperationRegistry)
    (operations : List ClientOperation) :
    (registry.registerAll operations = .ok () ∧
      (∀ later ∈ operations, registry.collides later = false) ∧
      operations.Pairwise fun earlier later => ¬ Collides earlier later) ∨
    ((∃ location, registry.registerAll operations = .error ⟨location, duplicateDetail⟩) ∧
      ¬ ((∀ later ∈ operations, registry.collides later = false) ∧
        operations.Pairwise fun earlier later => ¬ Collides earlier later)) := by
  induction operations generalizing registry with
  | nil => exact .inl ⟨rfl, fun later hmem => absurd hmem List.not_mem_nil, .nil⟩
  | cons operation operations ih =>
      by_cases hcollides : registry.collides operation = true
      · refine .inr ⟨⟨String.ofList operation.id, ?_⟩, fun h => ?_⟩
        · rw [registerAll, register, if_pos hcollides]
          rfl
        · exact absurd (h.1 operation List.mem_cons_self) (by rw [hcollides]; decide)
      · have hstep : registry.registerAll (operation :: operations) =
            (registry.add operation).registerAll operations := by
          rw [registerAll, register, if_neg hcollides]
          rfl
        have hiff : ((∀ later ∈ operations, (registry.add operation).collides later = false) ∧
              operations.Pairwise fun earlier later => ¬ Collides earlier later) ↔
            (∀ later ∈ operation :: operations, registry.collides later = false) ∧
              (operation :: operations).Pairwise fun earlier later => ¬ Collides earlier later := by
          rw [List.pairwise_cons, List.forall_mem_cons]
          simp only [← Bool.not_eq_true, collides_add, not_or, hcollides, true_and]
          rw [← and_assoc, ← forall₂_and]
        rw [hstep, ← hiff]
        exact ih (registry.add operation)

/-- Nothing is taken in an empty registry. -/
theorem OperationRegistry.collides_empty (operation : ClientOperation) :
    OperationRegistry.empty.collides operation = false := by
  simp [OperationRegistry.collides, OperationRegistry.empty]

/-! ### Manifests -/

/-- A list of descriptors that is refused, if at all, for a collision of these operations. -/
structure Fits (descriptors : List Raw) (operations : List ClientOperation) : Prop where
  ne_nil : descriptors ≠ []
  length_le : descriptors.length ≤ 1024
  parsed : parseAll parseClientOperation 0 descriptors = .ok operations
  size_le : jsonLength (.array (operations.map ClientOperation.toRaw)) ≤ 1024 * 1024

/-- The manifest of the descriptors is accepted. -/
def Accepted (descriptors : List Raw) : Prop :=
  ∃ value, validateClientManifest (manifest descriptors) = .ok value

/-- The manifest of the descriptors is refused for a collision. -/
def RefusedAsDuplicate (descriptors : List Raw) : Prop :=
  ∃ location, validateClientManifest (manifest descriptors) = .error ⟨location, duplicateDetail⟩

/-- Whether the manifest is accepted does not depend on the order of its operations. -/
def OrderFree (descriptors : List Raw) : Prop :=
  ∀ descriptors' : List Raw, descriptors'.Perm descriptors →
    (Accepted descriptors' ↔ Accepted descriptors)

/-- The manifest is refused for a collision exactly when two of its operations clash. -/
def RefusesClashes (descriptors : List Raw) : Prop :=
  ∀ operations, Fits descriptors operations →
    (RefusedAsDuplicate descriptors ↔ ¬ operations.Pairwise fun first second => ¬ Clash first second)

/-- What is returned is accepted again and returned unchanged. -/
def AcceptedAgain (descriptors : List Raw) : Prop :=
  ∀ value, validateClientManifest (manifest descriptors) = .ok value →
    validateClientManifest value.toRaw = .ok value

theorem manifestOperations_manifest {descriptors : List Raw} (hne : descriptors ≠ [])
    (hlength : descriptors.length ≤ 1024) :
    manifestOperations (manifest descriptors) = some descriptors :=
  if_pos ⟨rfl, rfl, hne, hlength, rfl⟩

theorem Fits.validate_cases {descriptors : List Raw} {operations : List ClientOperation}
    (h : Fits descriptors operations) :
    (validateClientManifest (manifest descriptors) = .ok ⟨sortOperations operations⟩ ∧
      operations.Pairwise fun earlier later => ¬ Collides earlier later) ∨
    (RefusedAsDuplicate descriptors ∧
      ¬ operations.Pairwise fun earlier later => ¬ Collides earlier later) := by
  have hvalidate : validateClientManifest (manifest descriptors) =
      (OperationRegistry.empty.registerAll operations >>= fun _ =>
        pure ⟨sortOperations operations⟩) := by
    unfold validateClientManifest
    rw [manifestOperations_manifest h.ne_nil h.length_le]
    simp only [h.parsed]
    rw [within_eq_ok.2 rfl]
    change (require _ _ >>= fun _ => _) = _
    rw [require_eq_ok.2 h.size_le]
    rfl
  unfold RefusedAsDuplicate
  rw [hvalidate]
  have hempty : ∀ later ∈ operations, OperationRegistry.empty.collides later = false :=
    fun later _ => OperationRegistry.collides_empty later
  rcases OperationRegistry.registerAll_cases .empty operations with ⟨hok, -, hpairwise⟩ |
    ⟨⟨location, herror⟩, hnot⟩
  · rw [hok]
    exact .inl ⟨rfl, hpairwise⟩
  · rw [herror]
    exact .inr ⟨⟨location, rfl⟩, fun hpairwise => hnot ⟨hempty, hpairwise⟩⟩

theorem manifestOperations_eq_some {descriptors items : List Raw}
    (h : manifestOperations (manifest descriptors) = some items) :
    items = descriptors ∧ descriptors ≠ [] ∧ descriptors.length ≤ 1024 := by
  by_cases hlimits : descriptors ≠ [] ∧ descriptors.length ≤ 1024
  · rw [manifestOperations_manifest hlimits.1 hlimits.2] at h
    exact ⟨(Option.some.inj h).symm, hlimits⟩
  · have hnone : manifestOperations (manifest descriptors) = none :=
      if_neg fun hvalid => hlimits ⟨hvalid.2.2.1, hvalid.2.2.2.1⟩
    rw [hnone] at h
    cases h

/-- What is accepted fits, and no operation collides with an earlier one. -/
theorem exists_fits {descriptors : List Raw} {value : ClientManifest}
    (h : validateClientManifest (manifest descriptors) = .ok value) :
    ∃ operations, Fits descriptors operations ∧ value = ⟨sortOperations operations⟩ ∧
      operations.Pairwise fun earlier later => ¬ Collides earlier later := by
  have hfits : ∃ operations, Fits descriptors operations := by
    have hcopy := h
    unfold validateClientManifest at hcopy
    split at hcopy
    · rename_i items hitems
      obtain ⟨rfl, hne, hlength⟩ := manifestOperations_eq_some hitems
      obtain ⟨operations, hparsed, hrest⟩ := Except.bind_eq_ok.1 hcopy
      obtain ⟨hsize, -⟩ := Except.bind_unit_eq_ok.1 hrest
      exact ⟨operations, hne, hlength, within_eq_ok.1 hparsed, require_eq_ok.1 hsize⟩
    · cases hcopy
  obtain ⟨operations, hfits⟩ := hfits
  rcases hfits.validate_cases with ⟨hok, hpairwise⟩ | ⟨⟨location, herror⟩, -⟩
  · rw [hok] at h
    exact ⟨operations, hfits, (Except.ok.inj h).symm, hpairwise⟩
  · rw [herror] at h
    cases h

theorem Fits.accepted_iff {descriptors : List Raw} {operations : List ClientOperation}
    (h : Fits descriptors operations) : Accepted descriptors ↔
      operations.Pairwise fun earlier later => ¬ Collides earlier later := by
  rcases h.validate_cases with ⟨hok, hpairwise⟩ | ⟨⟨location, herror⟩, hnot⟩
  · exact ⟨fun _ => hpairwise, fun _ => ⟨_, hok⟩⟩
  · refine ⟨fun ⟨value, hvalue⟩ => ?_, fun hpairwise => absurd hpairwise hnot⟩
    rw [herror] at hvalue
    cases hvalue

theorem Fits.refused_iff {descriptors : List Raw} {operations : List ClientOperation}
    (h : Fits descriptors operations) : RefusedAsDuplicate descriptors ↔
      ¬ operations.Pairwise fun earlier later => ¬ Collides earlier later := by
  rcases h.validate_cases with ⟨hok, hpairwise⟩ | ⟨hrefused, hnot⟩
  · refine ⟨fun ⟨location, herror⟩ => ?_, fun hnot => absurd hpairwise hnot⟩
    rw [hok] at herror
    cases herror
  · exact ⟨fun _ => hnot, fun _ => hrefused⟩

theorem jsonItems_eq_sum (items : List Raw) : jsonItems items = (items.map jsonLength).sum := by
  induction items with
  | nil => rfl
  | cons item items ih => rw [jsonItems, ih, List.map_cons, List.sum_cons]

theorem jsonLength_array_perm {items items' : List Raw} (h : items'.Perm items) :
    jsonLength (.array items') = jsonLength (.array items) := by
  rw [jsonLength, jsonLength, jsonItems_eq_sum, jsonItems_eq_sum, h.length_eq,
    (h.map jsonLength).sum_nat]

/-- In another order the descriptors are the operations in another order. -/
theorem Fits.of_perm {descriptors descriptors' : List Raw} {operations : List ClientOperation}
    (h : Fits descriptors operations) (hperm : descriptors'.Perm descriptors) :
    ∃ operations', Fits descriptors' operations' ∧ operations'.Perm operations := by
  obtain ⟨operations', hparsed, hoperations⟩ :=
    List.perm_comp_forall₂ hperm (parseAll_eq_ok.1 h.parsed)
  refine ⟨operations', ⟨?_, ?_, parseAll_eq_ok.2 hparsed, ?_⟩, hoperations⟩
  · rintro rfl
    exact h.ne_nil (List.nil_perm.1 hperm)
  · rw [hperm.length_eq]
    exact h.length_le
  · rw [jsonLength_array_perm (hoperations.map _)]
    exact h.size_le

/-- What was parsed fits again, in any order. -/
theorem Fits.again {descriptors : List Raw} {operations operations' : List ClientOperation}
    (h : Fits descriptors operations) (hperm : operations'.Perm operations) :
    Fits (operations'.map ClientOperation.toRaw) operations' := by
  have hlength := (parseAll_eq_ok.1 h.parsed).length_eq
  have hmapped : (operations'.map ClientOperation.toRaw).length = descriptors.length := by
    rw [List.length_map, hperm.length_eq, hlength]
  refine ⟨?_, ?_, parseAll_again parseClientOperation_canonical h.parsed hperm 0, ?_⟩
  · intro hnil
    rw [hnil] at hmapped
    exact h.ne_nil (List.eq_nil_of_length_eq_zero hmapped.symm)
  · rw [hmapped]
    exact h.length_le
  · rw [jsonLength_array_perm (hperm.map _)]
    exact h.size_le

/-! ### When the order matters -/

/-- Two operations clash, or none is nested in another. -/
def OrderIrrelevant (operations : List ClientOperation) : Prop :=
  (¬ operations.Pairwise fun first second => ¬ Clash first second) ∨
    operations.Pairwise fun first second => ¬ Nested first second ∧ ¬ Nested second first

theorem OrderIrrelevant.of_perm {operations operations' : List ClientOperation}
    (h : OrderIrrelevant operations) (hperm : operations'.Perm operations) :
    OrderIrrelevant operations' := by
  rcases h with hclash | hnested
  · refine .inl fun hnone => hclash ?_
    exact (hperm.pairwise_iff fun hxy hyx => hxy hyx.symm).1 hnone
  · exact .inr ((hperm.pairwise_iff And.symm).2 hnested)

theorem pairwise_not_clash_of_not_collides {operations : List ClientOperation}
    (h : operations.Pairwise fun earlier later => ¬ Collides earlier later) :
    operations.Pairwise fun first second => ¬ Clash first second :=
  h.imp fun hcollides hclash => hcollides (collides_of_clash hclash)

/-- Where the order does not matter, operations collide exactly when they clash. -/
theorem OrderIrrelevant.pairwise_iff {operations : List ClientOperation}
    (h : OrderIrrelevant operations) :
    (operations.Pairwise fun earlier later => ¬ Collides earlier later) ↔
      operations.Pairwise fun first second => ¬ Clash first second := by
  refine ⟨pairwise_not_clash_of_not_collides, fun hclash => ?_⟩
  rcases h with h | h
  · exact absurd hclash h
  · refine (hclash.and h).imp ?_
    rintro earlier later ⟨hclash, hfirst, hsecond⟩ hcollides
    rcases collides_iff.1 hcollides with hcollides | hmisplaced
    · exact hclash hcollides
    · exact (misplaced_or_iff.1 (.inl hmisplaced)).elim hfirst hsecond

/-- Operations that are accepted in both directions are not nested. -/
theorem pairwise_not_nested {operations : List ClientOperation}
    (h : operations.Pairwise fun earlier later => ¬ Collides earlier later)
    (hreverse : operations.reverse.Pairwise fun earlier later => ¬ Collides earlier later) :
    operations.Pairwise fun first second => ¬ Nested first second ∧ ¬ Nested second first := by
  refine (h.and (List.pairwise_reverse.1 hreverse)).imp ?_
  rintro first second ⟨hfirst, hsecond⟩
  rw [← not_or, ← misplaced_or_iff]
  rintro (hmisplaced | hmisplaced)
  · exact hfirst (collides_of_misplaced hmisplaced)
  · exact hsecond (collides_of_misplaced hmisplaced)

theorem Fits.reverse {descriptors : List Raw} {operations : List ClientOperation}
    (h : Fits descriptors operations) : Fits descriptors.reverse operations.reverse := by
  refine ⟨?_, ?_, ?_, ?_⟩
  · rw [ne_eq, List.reverse_eq_nil_iff]
    exact h.ne_nil
  · rw [List.length_reverse]
    exact h.length_le
  · exact parseAll_eq_ok.2 (List.forall₂_reverse_iff.2 (parseAll_eq_ok.1 h.parsed))
  · rw [jsonLength_array_perm (operations.reverse_perm.map _)]
    exact h.size_le

section Example

/-- A query for everyone, without arguments, that returns texts. -/
def textQuery (id route : Text) : ClientOperation where
  id := id
  kind := .query
  route := route
  methods := ["GET".toList, "QUERY".toList]
  queryName := some id
  roles := []
  authentication := .default
  dynamicAuthorization := false
  input := []
  output := .array .string

theorem parse_textQuery {id route : Text} (hid : isSafeQualifiedId id = true)
    (hroute : isSafeRoute route = true) :
    parseClientOperation (textQuery id route).toRaw = .ok (textQuery id route) := by
  have hinput : validateInput .query (.array []) = .ok [] :=
    validateInput_eq_ok.2 ⟨fields_eq_ok.2 ⟨by decide, [], rfl, by decide, (sortOn_nil _).symm⟩,
      .inr rfl⟩
  have hkind : ClientOperationKind.query ≠ .command := by decide
  exact parseClientOperation_eq_ok.2 ⟨[],
    { keys := rfl
      id := if_pos hid
      kind := rfl
      route := if_pos hroute
      methods := rfl
      queryName := expect_eq_ok.2 ⟨hkind, rfl⟩
      roles := rfl
      dynamicAuthorization := rfl
      authentication := rfl
      input := hinput
      output := rfl
      flat := rfl
      givesQueryName := rfl
      sortsRoles := (sortOn_nil _).symm }⟩

/-- The list of orders. -/
def orderList : ClientOperation := textQuery "Orders.list".toList "/orders".toList

/-- A query that stands where validation of the list would. -/
def orderCheck : ClientOperation := textQuery "Orders.check".toList "/orders/validate".toList

theorem fits_orderList_orderCheck :
    Fits [orderList.toRaw, orderCheck.toRaw] [orderList, orderCheck] where
  ne_nil := by decide
  length_le := by decide
  parsed := parseAll_eq_ok.2 (.cons (parse_textQuery (by decide) (by decide))
    (.cons (parse_textQuery (by decide) (by decide)) .nil))
  size_le := by decide

end Example

end Arc.Introspection
