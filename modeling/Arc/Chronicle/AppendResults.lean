import Arc.Commands.CommandResult

/-!
# The results of an append

The event store answers an append with one result for each event. `checkResults` reads
the answer as a whole: accepted (`none`), rejected for its violations, or nothing that can
be relied on, which it throws. `checkResults_none` and `checkResults_some` say what the
first two tell about the single results, and `checkResults_classifies` which answers they are.
-/

namespace Arc.Chronicle

open Arc.Commands

/-- A validation issue returned by a command or query. -/
structure ValidationResult where
  severity : ℕ
  message : String
  members : List String := []
  reason : String := "rule"
  reasonDetail : Option String := none
  state : Option (List (String × String)) := none
  deriving DecidableEq, Repr

/-- The outcomes a check can end in. -/
inductive Outcome
  | validation (results : List ValidationResult)
  | denied (reason : String)

structure ConstraintViolation where
  constraintId : String
  message : String
  details : List (String × String)

structure ConcurrencyViolation where
  eventSourceId : String
  expectedSequenceNumber : ℕ
  actualSequenceNumber : ℕ

/-- The result for one event; `isSuccess` is `none` when it is no boolean. -/
structure AppendResult where
  isSuccess : Option Bool
  constraintViolations : List ConstraintViolation := []
  concurrencyViolation : Option ConcurrencyViolation := none
  errors : List String := []

/-- What two violations share when they are reported once. -/
inductive ViolationKey
  | constraint (constraintId message : String) (details : List (String × String))
  | concurrency (state : List (String × String))
  deriving DecidableEq

/-- The member a property of an event is reported for. -/
def memberName (propertyName : String) : String :=
  match propertyName.toList with
  | [] => ""
  | first :: rest =>
      if first.isUpper && (rest.head?.any Char.isUpper) then propertyName
      else String.ofList (first.toLower :: rest)

/-- `left || right` on strings. -/
def firstText (left right : String) : String := if left = "" then right else left

def ConstraintViolation.key (violation : ConstraintViolation) : ViolationKey :=
  .constraint violation.constraintId violation.message
    (violation.details.mergeSort fun a b => decide (a.1 ≤ b.1))

def ConstraintViolation.issue (violation : ConstraintViolation) : ValidationResult where
  severity := 3
  message := firstText violation.message
    (firstText violation.constraintId "Chronicle constraint violated")
  members := match violation.details.lookup "PropertyName" with
    | none => []
    | some propertyName => if propertyName = "" then [] else [memberName propertyName]
  reason := "constraintViolation"
  reasonDetail := some violation.constraintId

def ConcurrencyViolation.state (violation : ConcurrencyViolation) : List (String × String) :=
  [("eventSourceId", violation.eventSourceId),
    ("expectedEventSequenceNumber", toString violation.expectedSequenceNumber),
    ("actualEventSequenceNumber", toString violation.actualSequenceNumber)]

def ConcurrencyViolation.issue (violation : ConcurrencyViolation) : ValidationResult where
  severity := 3
  message := "Concurrent modification prevented the append"
  reason := "concurrencyViolation"
  state := some violation.state

/-- The violations of one result with what each is known by. -/
def AppendResult.violations (result : AppendResult) : List (ViolationKey × ValidationResult) :=
  (result.constraintViolations.map fun violation => (violation.key, violation.issue)) ++
    (result.concurrencyViolation.map fun violation =>
      (ViolationKey.concurrency violation.state, violation.issue)).toList

/-- The violations that are not seen yet. -/
def unseen : List ViolationKey → List (ViolationKey × ValidationResult) → List ValidationResult
  | _, [] => []
  | seen, (key, issue) :: rest =>
      if key ∈ seen then unseen seen rest else issue :: unseen (key :: seen) rest

def appendRejection (results : List AppendResult) : List ValidationResult :=
  unseen [] (results.flatMap AppendResult.violations)

namespace AppendResult

def unknown (result : AppendResult) : Bool := result.isSuccess.isNone

def succeeds (result : AppendResult) : Bool := result.isSuccess == some true

def violated (result : AppendResult) : Bool :=
  !result.constraintViolations.isEmpty || result.concurrencyViolation.isSome

/-- The event is stored. -/
def accepted (result : AppendResult) : Bool :=
  result.succeeds && !result.violated && result.errors.isEmpty

def contradictory (result : AppendResult) : Bool :=
  result.succeeds && (result.violated || !result.errors.isEmpty)

end AppendResult

/-- Fail closed for transport errors, missing/mixed acknowledgments and unknown outcomes. -/
def checkResults (results : List AppendResult) (expected : ℕ) :
    Except (Thrown ValidationResult) (Option Outcome) :=
  let accepted := results.countP AppendResult.accepted
  let violations := appendRejection results
  if results.any AppendResult.unknown then
    .error (.error "Chronicle returned an unknown append result")
  else if results.any AppendResult.contradictory then
    .error (.error "Chronicle returned contradictory append acknowledgment")
  else if results.any (!·.errors.isEmpty) then
    .error (.error "Chronicle reported an append error; persistence outcome may be partial")
  else if 0 < accepted ∧ (accepted ≠ expected ∨ results.length ≠ expected) then
    .error (.error "Chronicle reported a partial append; persisted events cannot be rolled back")
  else if results.length ≠ expected then
    .error (.error "Chronicle returned an incomplete append result")
  else if results.any (fun result => !result.succeeds && !result.violated) then
    .error (.error "Chronicle returned an unknown append result")
  else if violations ≠ [] ∧ accepted = 0 then .ok (some (.validation violations))
  else if accepted ≠ expected then
    .error (.error "Chronicle returned an unknown append result")
  else .ok none

/-- The results of one append acknowledge the batch when one of them reports success. -/
def Acknowledged (results : List AppendResult) : Prop := ∃ result ∈ results, result.succeeds = true

theorem AppendResult.accepted_of_succeeds {result : AppendResult} (h : result.succeeds = true)
    (hconsistent : result.contradictory = false) : result.accepted = true := by
  simpa [accepted, contradictory, h] using hconsistent

/-- An accepted answer reports every one of the expected events as stored. -/
theorem checkResults_none {results : List AppendResult} {expected : ℕ}
    (h : checkResults results expected = .ok none) :
    results.countP AppendResult.accepted = expected ∧ results.length = expected := by
  simp only [checkResults] at h
  split_ifs at h with _ _ _ _ hlength _ _ haccepted
  · exact nomatch h
  · exact ⟨not_not.1 haccepted, not_not.1 hlength⟩

/-- A rejected answer reports no event as stored. -/
theorem checkResults_some {results : List AppendResult} {expected : ℕ} {outcome : Outcome}
    (h : checkResults results expected = .ok (some outcome)) :
    ¬ Acknowledged results ∧ outcome = .validation (appendRejection results) := by
  simp only [checkResults] at h
  split_ifs at h with _ hconsistent _ _ _ _ hrejected
  · obtain ⟨-, hnone⟩ := hrejected
    refine ⟨?_, (Option.some.inj (Except.ok.inj h)).symm⟩
    rintro ⟨result, hmem, hsucceeds⟩
    have hresult : result.contradictory = false := by
      rw [← Bool.not_eq_true]
      exact fun hcontradictory => hconsistent (List.any_eq_true.2 ⟨result, hmem, hcontradictory⟩)
    exact List.countP_eq_zero.1 hnone result hmem
      (AppendResult.accepted_of_succeeds hsucceeds hresult)
  · exact nomatch h

/-! ### The classes of an answer -/

/-- Every violation is reported, those that share a key once, in their order. -/
def ReportsViolations (results : List AppendResult) (issues : List ValidationResult) : Prop :=
  ∃ reported : List (ViolationKey × ValidationResult),
    issues = reported.map Prod.snd ∧
      reported.Sublist (results.flatMap AppendResult.violations) ∧
      (reported.map Prod.fst).Nodup ∧
      ∀ violation ∈ results.flatMap AppendResult.violations,
        violation.1 ∈ reported.map Prod.fst

theorem unseen_spec (seen : List ViolationKey)
    (violations : List (ViolationKey × ValidationResult)) :
    ∃ kept : List (ViolationKey × ValidationResult),
      unseen seen violations = kept.map Prod.snd ∧ kept.Sublist violations ∧
        (kept.map Prod.fst).Nodup ∧ (∀ key ∈ kept.map Prod.fst, key ∉ seen) ∧
        ∀ violation ∈ violations, violation.1 ∈ seen ∨ violation.1 ∈ kept.map Prod.fst := by
  induction violations generalizing seen with
  | nil => exact ⟨[], rfl, List.Sublist.slnil, List.nodup_nil, by simp, by simp⟩
  | cons violation rest ih =>
      by_cases hseen : violation.1 ∈ seen
      · obtain ⟨kept, heq, hsublist, hnodup, hnew, hall⟩ := ih seen
        refine ⟨kept, ?_, hsublist.cons _, hnodup, hnew, fun other hother => ?_⟩
        · rw [unseen, if_pos hseen, heq]
        · rcases List.mem_cons.1 hother with rfl | hother
          · exact .inl hseen
          · exact hall other hother
      · obtain ⟨kept, heq, hsublist, hnodup, hnew, hall⟩ := ih (violation.1 :: seen)
        have hfresh : violation.1 ∉ kept.map Prod.fst :=
          fun hmem => hnew _ hmem List.mem_cons_self
        refine ⟨violation :: kept, ?_, hsublist.cons_cons _, ?_, fun key hkey => ?_,
          fun other hother => ?_⟩
        · rw [unseen, if_neg hseen, heq, List.map_cons]
        · rw [List.map_cons]
          exact List.nodup_cons.2 ⟨hfresh, hnodup⟩
        · rcases List.mem_cons.1 hkey with rfl | hkey
          · exact hseen
          · exact fun hmem => hnew key hkey (List.mem_cons_of_mem _ hmem)
        · rcases List.mem_cons.1 hother with rfl | hother
          · exact .inr List.mem_cons_self
          · rcases hall other hother with hmem | hmem
            · rcases List.mem_cons.1 hmem with heq | hmem
              · exact .inr (heq ▸ List.mem_cons_self)
              · exact .inl hmem
            · exact .inr (List.mem_cons_of_mem _ hmem)

theorem reportsViolations_appendRejection (results : List AppendResult) :
    ReportsViolations results (appendRejection results) := by
  obtain ⟨kept, heq, hsublist, hnodup, -, hall⟩ :=
    unseen_spec [] (results.flatMap AppendResult.violations)
  exact ⟨kept, heq, hsublist, hnodup, fun violation hmem =>
    (hall violation hmem).resolve_left List.not_mem_nil⟩

namespace AppendResult

/-- The event was stored, and nothing else is reported. -/
structure CleanSuccess (result : AppendResult) : Prop where
  isSuccess : result.isSuccess = some true
  constraintViolations : result.constraintViolations = []
  concurrencyViolation : result.concurrencyViolation = none
  errors : result.errors = []

/-- The event was not stored, for violations alone. -/
structure CleanRejection (result : AppendResult) : Prop where
  isSuccess : result.isSuccess = some false
  errors : result.errors = []
  violated : result.constraintViolations ≠ [] ∨ result.concurrencyViolation ≠ none

variable {result : AppendResult}

theorem accepted_iff : result.accepted = true ↔ result.CleanSuccess := by
  constructor
  · intro h
    simp only [accepted, succeeds, violated, Bool.and_eq_true, beq_iff_eq, Bool.not_eq_true',
      Bool.or_eq_false_iff, Bool.not_eq_false', List.isEmpty_iff, Option.isSome_eq_false_iff,
      Option.isNone_iff_eq_none] at h
    exact ⟨h.1.1, h.1.2.1, h.1.2.2, h.2⟩
  · intro h
    simp [accepted, succeeds, violated, h.isSuccess, h.constraintViolations,
      h.concurrencyViolation, h.errors]

theorem violated_iff : result.violated = true ↔
    result.constraintViolations ≠ [] ∨ result.concurrencyViolation ≠ none := by
  rw [violated, Bool.or_eq_true, Bool.not_eq_true', ← Bool.not_eq_true, List.isEmpty_iff,
    Option.isSome_iff_ne_none]

/-- A result that is intelligible, and consistent, and reports no error, is one of the two. -/
theorem cleanRejection_of_not_accepted (hknown : result.unknown = false)
    (hconsistent : result.contradictory = false) (herrors : result.errors.isEmpty = true)
    (hreported : ¬ (result.succeeds = false ∧ result.violated = false))
    (haccepted : result.accepted = false) : result.CleanRejection := by
  have hfails : result.succeeds = false := by
    by_contra hsucceeds
    rw [Bool.not_eq_false] at hsucceeds
    rw [accepted_of_succeeds hsucceeds hconsistent] at haccepted
    cases haccepted
  have hviolated : result.violated = true := by
    by_contra hviolated
    exact hreported ⟨hfails, Bool.not_eq_true _ ▸ hviolated⟩
  refine ⟨?_, List.isEmpty_iff.1 herrors, violated_iff.1 hviolated⟩
  rw [unknown, Option.isNone_eq_false_iff, Option.isSome_iff_exists] at hknown
  obtain ⟨success, hsuccess⟩ := hknown
  rw [hsuccess]
  cases success with
  | false => rfl
  | true =>
      rw [succeeds, hsuccess] at hfails
      cases hfails

end AppendResult

section Classes

variable {results : List AppendResult} {expected : ℕ}

theorem checkResults_cleanSuccess (hexpected : 1 ≤ expected) (hlength : results.length = expected)
    (hclean : ∀ result ∈ results, result.CleanSuccess) :
    checkResults results expected = .ok none := by
  have haccepted : results.countP AppendResult.accepted = expected := by
    rw [← hlength]
    exact List.countP_eq_length.2 fun result hmem =>
      AppendResult.accepted_iff.2 (hclean result hmem)
  have hunknown : results.any AppendResult.unknown = false :=
    List.any_eq_false.2 fun result hmem => by
      simp [AppendResult.unknown, (hclean result hmem).isSuccess]
  have hconsistent : results.any AppendResult.contradictory = false :=
    List.any_eq_false.2 fun result hmem => by
      have h := hclean result hmem
      simp [AppendResult.contradictory, AppendResult.violated, h.constraintViolations,
        h.concurrencyViolation, h.errors]
  have herrors : results.any (fun result => !result.errors.isEmpty) = false :=
    List.any_eq_false.2 fun result hmem => by simp [(hclean result hmem).errors]
  have hreported : results.any (fun result => !result.succeeds && !result.violated) = false :=
    List.any_eq_false.2 fun result hmem => by
      simp [AppendResult.succeeds, (hclean result hmem).isSuccess]
  have hsome : ¬ expected = 0 := Nat.one_le_iff_ne_zero.1 hexpected
  simp [checkResults, hunknown, hconsistent, herrors, haccepted, hlength, hreported, hsome]

theorem checkResults_cleanRejection (hexpected : 1 ≤ expected)
    (hlength : results.length = expected)
    (hclean : ∀ result ∈ results, result.CleanRejection) :
    checkResults results expected = .ok (some (.validation (appendRejection results))) := by
  have haccepted : results.countP AppendResult.accepted = 0 :=
    List.countP_eq_zero.2 fun result hmem => by
      simp [AppendResult.accepted, AppendResult.succeeds, (hclean result hmem).isSuccess]
  have hunknown : results.any AppendResult.unknown = false :=
    List.any_eq_false.2 fun result hmem => by
      simp [AppendResult.unknown, (hclean result hmem).isSuccess]
  have hconsistent : results.any AppendResult.contradictory = false :=
    List.any_eq_false.2 fun result hmem => by
      simp [AppendResult.contradictory, AppendResult.succeeds, (hclean result hmem).isSuccess]
  have herrors : results.any (fun result => !result.errors.isEmpty) = false :=
    List.any_eq_false.2 fun result hmem => by simp [(hclean result hmem).errors]
  have hreported : results.any (fun result => !result.succeeds && !result.violated) = false :=
    List.any_eq_false.2 fun result hmem => by
      simp [AppendResult.violated_iff.2 (hclean result hmem).violated]
  have hviolations : appendRejection results ≠ [] := by
    obtain ⟨result, hmem⟩ := List.exists_mem_of_length_pos (hlength ▸ hexpected)
    obtain ⟨violation, hviolation⟩ : ∃ violation, violation ∈ result.violations := by
      refine List.exists_mem_of_ne_nil _ fun hnil => ?_
      obtain ⟨hconstraints, hconcurrency⟩ := List.append_eq_nil_iff.1 hnil
      rcases (hclean result hmem).violated with hsome | hsome
      · exact hsome (List.map_eq_nil_iff.1 hconstraints)
      · exact hsome (by simpa using hconcurrency)
    obtain ⟨reported, heq, -, -, hall⟩ := reportsViolations_appendRejection results
    obtain ⟨first, hfirst, -⟩ := List.mem_map.1
      (hall violation (List.mem_flatMap.2 ⟨result, hmem, hviolation⟩))
    rw [heq]
    exact List.ne_nil_of_mem (List.mem_map_of_mem hfirst)
  simp [checkResults, hunknown, hconsistent, herrors, haccepted, hlength, hreported, hviolations]

end Classes

end Arc.Chronicle
