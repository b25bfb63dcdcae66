import Arc.Commands.CommandResponse

/-!
# The two ways to the result of a response

Without handlers a response says everything itself: the denials and the issues of its
controls, and the one value that is the client response. `completedCommandResponse` and
`processCommandResponse` both read it off the leaves, but the first keeps the reason of the
first denial and the second that of the last. `FirstDenialLast` is when this makes no
difference.
-/

namespace Arc.Commands

open Arc.Validation

variable {α δ σ : Type}

/-! ### What the leaves say -/

/-- The values of the leaves that are no control. -/
def plainValues (leaves : List (ResponseLeaf α δ σ)) : List (PlainValue α) :=
  (ordinaryLeaves leaves).filterMap OrdinaryLeaf.value?

def controls (leaves : List (ResponseLeaf α δ σ)) : List (Control σ) :=
  (ordinaryLeaves leaves).filterMap OrdinaryLeaf.control?

/-- The reasons of the denials, as a result states them. -/
def denialReasons (leaves : List (ResponseLeaf α δ σ)) : List String :=
  ((controls leaves).filterMap Control.denial?).map (·.getD "")

/-- Neither way has a result. -/
def Unanswered (leaves : List (ResponseLeaf α δ σ)) : Prop :=
  leaves.any ResponseLeaf.isCollection = true ∨ 1 < (plainValues leaves).length

/-- The first and the last denial give the same reason. -/
def FirstDenialLast (leaves : List (ResponseLeaf α δ σ)) : Prop :=
  (denialReasons leaves).head? = (denialReasons leaves).getLast?

/-- Nothing in the controls is held against the command. -/
def ControlsPass (context : CommandContext α σ) (leaves : List (ResponseLeaf α δ σ)) : Prop :=
  denialReasons leaves = [] ∧ (controls leaves).flatMap (Control.rejecting context) = []

/-- A response the context already has is in nobody's way: there is none, or no leaf could
be another and no result would show it. -/
def ResponseFree (context : CommandContext α σ) (leaves : List (ResponseLeaf α δ σ)) : Prop :=
  context.response = none ∨ (plainValues leaves = [] ∧ ¬ ControlsPass context leaves)

/-- The result the leaves make, with a denial for the reason `reason`. -/
def leavesResult (context : CommandContext α σ) (leaves : List (ResponseLeaf α δ σ))
    (response : Option (PlainValue α)) (reason : Option String) :
    CommandResult (PlainValue α) (ValidationResult σ) :=
  commandResult context.correlationId {
    response := response
    isAuthorized := reason.isNone
    authorizationFailureReason := reason.getD ""
    validationResults := (controls leaves).flatMap (Control.rejecting context) }

theorem completedCommandResponse_eq (context : CommandContext α σ)
    {leaves : List (ResponseLeaf α δ σ)} (hno : leaves.any ResponseLeaf.isOperation = false)
    (hanswered : ¬ Unanswered leaves) :
    completedCommandResponse context leaves false =
      .ok (some (leavesResult context leaves (plainValues leaves).head?
        (denialReasons leaves).head?)) := by
  rw [Unanswered, not_or] at hanswered
  have hfew : ¬ 1 < ((ordinaryLeaves leaves).filterMap OrdinaryLeaf.value?).length :=
    hanswered.2
  unfold completedCommandResponse
  rw [if_neg hanswered.1, if_neg (by simp [hno])]
  simp only [Bool.false_and, Bool.false_eq_true, if_false]
  rw [if_neg hfew]
  simp only [leavesResult, denialReasons, controls, plainValues, List.head?_map]
  cases ((List.filterMap OrdinaryLeaf.control? (ordinaryLeaves leaves)).filterMap
    Control.denial?).head? with
  | none => rfl
  | some reason => rfl

theorem completedCommandResponse_of_unanswered (context : CommandContext α σ)
    {leaves : List (ResponseLeaf α δ σ)} (hno : leaves.any ResponseLeaf.isOperation = false)
    (hunanswered : Unanswered leaves) :
    completedCommandResponse context leaves false =
      .error (if leaves.any ResponseLeaf.isCollection then declarationsInArray
        else multipleUnhandled) := by
  unfold completedCommandResponse
  by_cases hcollection : leaves.any ResponseLeaf.isCollection = true
  · rw [if_pos hcollection, if_pos hcollection]
  · have hmany : 1 < ((ordinaryLeaves leaves).filterMap OrdinaryLeaf.value?).length :=
      hunanswered.resolve_left hcollection
    rw [if_neg hcollection, if_neg hcollection, if_neg (by simp [hno])]
    simp only [Bool.false_and, Bool.false_eq_true, if_false]
    rw [if_pos hmany]

/-! ### Processing without handlers -/

section Process

variable [DecidableEq α]

theorem Matching.handlers_set (matching : Matching α δ σ) (value other : PlainValue α)
    (matched : List (PlacedHandler α δ σ)) :
    Matching.handlers (matching.set value matched) other =
      if other = value then matched else matching.handlers other := by
  unfold Matching.handlers
  split_ifs with heq
  · rw [heq, InsertionMap.get_set_self]
    rfl
  · rw [InsertionMap.get_set_of_ne _ _ heq]

/-- Nobody is asked, and nobody handles anything. -/
theorem classify_nil (context : CommandContext α σ) (aborts : ℕ → ℕ → Bool) (index : ℕ)
    (ordinary : List (OrdinaryLeaf α σ)) (matching : Matching α δ σ)
    (hmatching : ∀ value, matching.handlers value = []) :
    ∃ classified, classify context [] aborts index ordinary matching = .ok classified ∧
      ∀ value, Matching.handlers classified value = [] := by
  induction ordinary generalizing index matching with
  | nil => exact ⟨matching, rfl, hmatching⟩
  | cons leaf rest ih =>
      cases leaf with
      | control outcome => exact ih (index + 1) matching hmatching
      | value value =>
          refine ih (index + 1) (matching.set value []) fun other => ?_
          rw [Matching.handlers_set, hmatching other, ite_self]

omit [DecidableEq α] in
theorem throwIfCanceled_of_not_aborted {context : CommandContext α σ}
    (h : context.aborted = false) : throwIfCanceled context = .ok () := by
  rw [throwIfCanceled, h]
  rfl

/-- A response that is taken leaves no room for another. -/
theorem selectResponse_of_some {matching : Matching α δ σ}
    (hmatching : ∀ value, matching.handlers value = []) {context : CommandContext α σ}
    (haborted : context.aborted = false) (hsome : context.response.isSome = true)
    (values : List (OrdinaryLeaf α σ)) :
    selectResponse matching values context =
      if (values.filterMap OrdinaryLeaf.value?).isEmpty then .ok context
      else .error multipleUnhandled := by
  induction values with
  | nil => rfl
  | cons leaf rest ih =>
      cases leaf with
      | control outcome =>
          rw [selectResponse, throwIfCanceled_of_not_aborted haborted]
          exact ih
      | value value =>
          rw [selectResponse, throwIfCanceled_of_not_aborted haborted, hmatching value,
            if_pos List.isEmpty_nil, if_pos hsome]
          rfl

theorem selectResponse_of_none {matching : Matching α δ σ}
    (hmatching : ∀ value, matching.handlers value = []) {context : CommandContext α σ}
    (haborted : context.aborted = false) (hnone : context.response = none)
    (values : List (OrdinaryLeaf α σ)) :
    selectResponse matching values context =
      if 1 < (values.filterMap OrdinaryLeaf.value?).length then .error multipleUnhandled
      else .ok { context with response := (values.filterMap OrdinaryLeaf.value?).head? } := by
  induction values with
  | nil =>
      rw [selectResponse, if_neg (by simp)]
      cases context
      cases hnone
      rfl
  | cons leaf rest ih =>
      cases leaf with
      | control outcome =>
          rw [selectResponse, throwIfCanceled_of_not_aborted haborted]
          exact ih
      | value value =>
          rw [selectResponse, throwIfCanceled_of_not_aborted haborted, hmatching value,
            if_pos List.isEmpty_nil, hnone]
          have hkept : ({ context with response := some value } : CommandContext α σ).aborted =
              false := haborted
          have htaken := selectResponse_of_some hmatching hkept rfl rest
          change selectResponse matching rest { context with response := some value } = _
          rw [htaken]
          have hlength : (((OrdinaryLeaf.value value : OrdinaryLeaf α σ) :: rest).filterMap
              OrdinaryLeaf.value?) = value :: rest.filterMap OrdinaryLeaf.value? := rfl
          rw [hlength]
          cases rest.filterMap OrdinaryLeaf.value? with
          | nil => rfl
          | cons other others =>
              rw [if_neg (by simp), if_pos (by simp)]

omit [DecidableEq α] in
/-- The controls of a command that is not canceled are settled one after the other. -/
theorem settleAll_eq (values : List (OrdinaryLeaf α σ)) (processing : Processing α σ)
    (haborted : processing.context.aborted = false) :
    processing.settleAll values =
      .ok ((values.filterMap OrdinaryLeaf.control?).foldl Processing.settle processing) := by
  induction values generalizing processing with
  | nil => rfl
  | cons leaf rest ih =>
      cases leaf with
      | control outcome =>
          have hsettled : (processing.settle outcome).context.aborted = false := by
            cases outcome with
            | validation results => exact haborted
            | denied reason => exact haborted
          rw [Processing.settleAll, throwIfCanceled_of_not_aborted haborted]
          exact ih (processing.settle outcome) hsettled
      | value value =>
          rw [Processing.settleAll, throwIfCanceled_of_not_aborted haborted]
          exact ih processing haborted

omit [DecidableEq α] in
/-- Settled one after the other, the issues add up and the last denial gives the reason. -/
theorem foldl_settle (outcomes : List (Control σ)) (processing : Processing α σ) :
    outcomes.foldl Processing.settle processing =
      { processing with
        authorized := processing.authorized && (outcomes.filterMap Control.denial?).isEmpty
        reason := ((outcomes.filterMap Control.denial?).getLast?.map (·.getD "")).getD
          processing.reason
        validation := processing.validation ++
          outcomes.flatMap (Control.rejecting processing.context) } := by
  induction outcomes generalizing processing with
  | nil => simp
  | cons outcome rest ih =>
      rw [List.foldl_cons, ih]
      cases outcome with
      | validation results =>
          have hdenials : ((Control.validation results :: rest : List (Control σ)).filterMap
              Control.denial?) = rest.filterMap Control.denial? := rfl
          rw [hdenials]
          simp [Processing.settle, Control.rejecting]
      | denied reason =>
          have hlast : ((Control.denied reason :: rest : List (Control σ)).filterMap
              Control.denial?) = reason :: rest.filterMap Control.denial? := rfl
          rw [hlast]
          cases rest.filterMap Control.denial? with
          | nil => simp [Processing.settle, Control.rejecting]
          | cons other others =>
              have hsome : ((other :: others).getLast?).isSome = true := by simp
              obtain ⟨last, hlast⟩ := Option.isSome_iff_exists.1 hsome
              rw [List.getLast?_cons_cons, hlast]
              simp [Processing.settle, Control.rejecting]

theorem handleLeaves_nil {matching : Matching α δ σ}
    (hmatching : ∀ value, matching.handlers value = []) (index : ℕ)
    (ordinary : List (OrdinaryLeaf α σ)) (processing : Processing α σ) :
    handleLeaves matching index ordinary processing = (.next, processing) := by
  induction ordinary generalizing index with
  | nil => rfl
  | cons leaf rest ih =>
      cases leaf with
      | control outcome => exact ih (index + 1)
      | value value =>
          rw [handleLeaves, hmatching value]
          split_ifs
          · exact ih (index + 1)
          · exact ih (index + 1)

omit [DecidableEq α] in
/-- Moving the controls to the front does not change them. -/
theorem filterMap_control_orderedValues (operationsPresent : Bool)
    (ordinary : List (OrdinaryLeaf α σ)) :
    (orderedValues operationsPresent ordinary).filterMap OrdinaryLeaf.control? =
      ordinary.filterMap OrdinaryLeaf.control? := by
  unfold orderedValues
  split_ifs
  · rw [List.filterMap_append]
    induction ordinary with
    | nil => rfl
    | cons leaf rest ih =>
        cases leaf with
        | control outcome => exact congrArg (outcome :: ·) ih
        | value value => exact ih
  · rfl

omit [DecidableEq α] in
/-- The values keep their order behind the controls. -/
theorem filterMap_value_orderedValues (operationsPresent : Bool)
    (ordinary : List (OrdinaryLeaf α σ)) :
    (orderedValues operationsPresent ordinary).filterMap OrdinaryLeaf.value? =
      ordinary.filterMap OrdinaryLeaf.value? := by
  unfold orderedValues
  split_ifs
  · have hcontrols : (ordinary.filter (·.control?.isSome)).filterMap OrdinaryLeaf.value? = [] := by
      rw [List.filterMap_eq_nil_iff]
      intro leaf hleaf
      cases leaf with
      | control outcome => rfl
      | value value => exact absurd (List.mem_filter.1 hleaf).2 Bool.false_ne_true
    have hsame : (fun leaf : OrdinaryLeaf α σ => if leaf.value?.isSome then leaf.value? else none) =
        OrdinaryLeaf.value? := by
      funext leaf
      cases leaf with
      | control outcome => rfl
      | value value => rfl
    rw [List.filterMap_append, hcontrols, List.nil_append, List.filterMap_filter, hsame]
  · rfl

/-- The processing of leaves that nobody handles. -/
def settledLeaves (context : CommandContext α σ) (leaves : List (ResponseLeaf α δ σ)) :
    Processing α σ where
  context := { context with response := context.response.or (plainValues leaves).head? }
  authorized := (denialReasons leaves).isEmpty
  reason := (denialReasons leaves).getLast?.getD ""
  validation := (controls leaves).flatMap (Control.rejecting context)

/-- A second value has no room beside the response. -/
def NoRoom (context : CommandContext α σ) (leaves : List (ResponseLeaf α δ σ)) : Prop :=
  1 < (plainValues leaves).length ∨
    (context.response.isSome = true ∧ (plainValues leaves).isEmpty = false)

instance (context : CommandContext α σ) (leaves : List (ResponseLeaf α δ σ)) :
    Decidable (NoRoom context leaves) :=
  inferInstanceAs (Decidable (_ ∨ _))

theorem selectResponse_orderedValues {matching : Matching α δ σ}
    (hmatching : ∀ value, matching.handlers value = []) {context : CommandContext α σ}
    (haborted : context.aborted = false) (leaves : List (ResponseLeaf α δ σ))
    (operationsPresent : Bool) :
    selectResponse matching (orderedValues operationsPresent (ordinaryLeaves leaves)) context =
      if NoRoom context leaves then .error multipleUnhandled
      else .ok { context with response := context.response.or (plainValues leaves).head? } := by
  have hvalues : (orderedValues operationsPresent (ordinaryLeaves leaves)).filterMap
      OrdinaryLeaf.value? = plainValues leaves :=
    filterMap_value_orderedValues operationsPresent (ordinaryLeaves leaves)
  cases hresponse : context.response with
  | none =>
      rw [selectResponse_of_none hmatching haborted hresponse, hvalues]
      simp only [NoRoom, hresponse, Option.isSome_none, Bool.false_eq_true, false_and, or_false,
        Option.none_or]
  | some response =>
      rw [selectResponse_of_some hmatching haborted (by rw [hresponse]; rfl), hvalues]
      cases hplain : plainValues leaves with
      | nil =>
          have hroom : ¬ NoRoom context leaves := by simp [NoRoom, hplain]
          rw [if_pos List.isEmpty_nil, if_neg hroom, Option.some_or, ← hresponse]
      | cons value values =>
          have hroom : NoRoom context leaves := Or.inr ⟨by rw [hresponse]; rfl, by rw [hplain]; rfl⟩
          rw [if_pos hroom]
          rfl

theorem settleAll_orderedValues {context : CommandContext α σ}
    (haborted : context.aborted = false) (leaves : List (ResponseLeaf α δ σ))
    (operationsPresent : Bool) :
    Processing.settleAll (orderedValues operationsPresent (ordinaryLeaves leaves))
        { context := { context with response := context.response.or (plainValues leaves).head? } } =
      .ok (settledLeaves context leaves) := by
  have hcontrols : (orderedValues operationsPresent (ordinaryLeaves leaves)).filterMap
      OrdinaryLeaf.control? = controls leaves :=
    filterMap_control_orderedValues operationsPresent (ordinaryLeaves leaves)
  rw [settleAll_eq _ _ haborted, hcontrols, foldl_settle]
  simp only [settledLeaves, denialReasons, Bool.true_and, List.nil_append, List.getLast?_map,
    List.isEmpty_map]
  rfl

theorem classifyLeaves_nil {context : CommandContext α σ} (haborted : context.aborted = false)
    (leaves : List (ResponseLeaf α δ σ)) (operationsPresent : Bool) (aborts : ℕ → ℕ → Bool) :
    ∃ matching : Matching α δ σ, (∀ value, matching.handlers value = []) ∧
      classifyLeaves context leaves [] operationsPresent aborts =
        if leaves.any ResponseLeaf.isCollection then .error declarationsInArray
        else if NoRoom context leaves then .error multipleUnhandled
        else .ok (matching, settledLeaves context leaves) := by
  obtain ⟨matching, hclassify, hmatching⟩ := classify_nil (δ := δ) context aborts 0
    (ordinaryLeaves leaves) InsertionMap.empty fun _ => rfl
  refine ⟨matching, hmatching, ?_⟩
  unfold classifyLeaves
  split_ifs with hcollection hroom
  · rfl
  · change (classify context [] aborts 0 (ordinaryLeaves leaves) InsertionMap.empty >>= _) = _
    rw [hclassify]
    change (selectResponse matching _ context >>= _) = _
    rw [selectResponse_orderedValues hmatching haborted, if_pos hroom]
    rfl
  · change (classify context [] aborts 0 (ordinaryLeaves leaves) InsertionMap.empty >>= _) = _
    rw [hclassify]
    change (selectResponse matching _ context >>= _) = _
    rw [selectResponse_orderedValues hmatching haborted, if_neg hroom]
    change (Processing.settleAll _ _ >>= _) = _
    rw [settleAll_orderedValues haborted]
    rfl

/-- Without handlers the leaves are the whole result. -/
theorem processCommandResponse_eq {context : CommandContext α σ}
    (haborted : context.aborted = false) (leaves : List (ResponseLeaf α δ σ))
    (operationsPresent : Bool) (aborts : ℕ → ℕ → Bool) :
    (processCommandResponse context leaves [] operationsPresent aborts).answer =
      if leaves.any ResponseLeaf.isCollection then .error declarationsInArray
      else if NoRoom context leaves then .error multipleUnhandled
      else .ok (leavesResult context leaves (context.response.or (plainValues leaves).head?)
        (denialReasons leaves).getLast?) := by
  obtain ⟨matching, hmatching, hleaves⟩ :=
    classifyLeaves_nil haborted leaves operationsPresent aborts
  have hfinish : (settledLeaves context leaves).finish.answer =
      .ok (leavesResult context leaves (context.response.or (plainValues leaves).head?)
        (denialReasons leaves).getLast?) := by
    have hnot : (settledLeaves context leaves).context.aborted = false := haborted
    rw [Processing.finish, hnot, Bool.false_and, if_neg Bool.false_ne_true]
    have hdenied : (denialReasons leaves).isEmpty = (denialReasons leaves).getLast?.isNone := by
      cases denialReasons leaves with
      | nil => rfl
      | cons reason reasons => simp
    simp only [Processing.result, settledLeaves, leavesResult, hdenied]
  unfold processCommandResponse
  rw [hleaves]
  split_ifs with hcollection hroom
  · rfl
  · rfl
  · simp only [handleLeaves_nil hmatching]
    split_ifs
    · exact hfinish
    · exact hfinish

omit [DecidableEq α] in
/-- Two results of the same leaves are equal when they give the same reason and, if they
succeed, the same response. -/
theorem leavesResult_eq_iff {context : CommandContext α σ} {leaves : List (ResponseLeaf α δ σ)}
    {first second : Option (PlainValue α)} {reason other : Option String}
    (hnone : reason.isNone = other.isNone) :
    leavesResult context leaves first reason = leavesResult context leaves second other ↔
      reason = other ∧ (reason = none →
        (controls leaves).flatMap (Control.rejecting context) = [] → first = second) := by
  cases reason with
  | none =>
      rw [Option.isNone_none, eq_comm, Option.isNone_iff_eq_none] at hnone
      subst hnone
      simp only [leavesResult, commandResult, CommandResultValues.succeeds, Option.isNone_none,
        CommandResult.mk.injEq, true_and, and_true, forall_const, List.isEmpty_nil, Bool.and_true,
        Bool.true_and]
      cases (controls leaves).flatMap (Control.rejecting context) with
      | nil => simp
      | cons issue issues => simp
  | some text =>
      obtain ⟨text', rfl⟩ : ∃ text', other = some text' := by
        rw [Option.isNone_some, eq_comm, Option.isNone_eq_false_iff,
          Option.isSome_iff_exists] at hnone
        exact hnone
      simp [leavesResult, commandResult, CommandResultValues.succeeds]

/-- Where a result is made both ways, agreement is about its reason and its response. -/
theorem leavesResult_head_eq_getLast_iff {context : CommandContext α σ}
    {leaves : List (ResponseLeaf α δ σ)} (hroom : ¬ NoRoom context leaves) :
    leavesResult context leaves (plainValues leaves).head? (denialReasons leaves).head? =
        leavesResult context leaves (context.response.or (plainValues leaves).head?)
          (denialReasons leaves).getLast? ↔
      FirstDenialLast leaves ∧ ResponseFree context leaves := by
  have hnone : (denialReasons leaves).head?.isNone = (denialReasons leaves).getLast?.isNone := by
    cases denialReasons leaves with
    | nil => rfl
    | cons reason reasons => simp
  rw [leavesResult_eq_iff hnone]
  refine and_congr_right fun _ => ?_
  rw [List.head?_eq_none_iff, ResponseFree, ControlsPass]
  cases hresponse : context.response with
  | none => simp
  | some response =>
      have hplain : plainValues leaves = [] := by
        by_contra hne
        refine hroom (Or.inr ⟨by rw [hresponse]; rfl, ?_⟩)
        rw [Bool.eq_false_iff]
        exact fun hempty => hne (List.isEmpty_iff.1 hempty)
      rw [hplain]
      simp

/-- The two ways agree exactly when neither has a result, or the first denial gives the
reason of the last and the context has no response that the second way would show. -/
theorem completedCommandResponse_eq_processCommandResponse_iff {context : CommandContext α σ}
    (haborted : context.aborted = false) {leaves : List (ResponseLeaf α δ σ)}
    (hno : leaves.any ResponseLeaf.isOperation = false) (operationsPresent : Bool)
    (aborts : ℕ → ℕ → Bool) :
    completedCommandResponse context leaves false =
        (processCommandResponse context leaves [] operationsPresent aborts).answer.map some ↔
      Unanswered leaves ∨ (FirstDenialLast leaves ∧ ResponseFree context leaves) := by
  rw [processCommandResponse_eq haborted]
  by_cases hunanswered : Unanswered leaves
  · rw [completedCommandResponse_of_unanswered context hno hunanswered]
    simp only [hunanswered, true_or, iff_true]
    split_ifs with hcollection hroom
    · rfl
    · rfl
    · exact absurd (Or.inl (hunanswered.resolve_left hcollection)) hroom
  · rw [completedCommandResponse_eq context hno hunanswered]
    simp only [hunanswered, false_or]
    have hcollection : ¬ leaves.any ResponseLeaf.isCollection = true :=
      fun h => hunanswered (Or.inl h)
    rw [if_neg hcollection]
    by_cases hroom : NoRoom context leaves
    · rw [if_pos hroom]
      have htaken := hroom.resolve_left fun h => hunanswered (Or.inr h)
      have hfree : ¬ ResponseFree context leaves := by
        rintro (hnone | ⟨hplain, -⟩)
        · rw [hnone] at htaken
          exact absurd htaken.1 (by simp)
        · rw [hplain] at htaken
          exact absurd htaken.2 (by simp)
      simp [Except.map, hfree]
    · rw [if_neg hroom, ← leavesResult_head_eq_getLast_iff hroom]
      simp [Except.map]

end Process

/-- A response of two denials, for different reasons. -/
def twoDenials : List (ResponseLeaf ℕ Unit Unit) :=
  [.ordinary (.control (.denied (some "No such account"))),
    .ordinary (.control (.denied (some "The account is closed")))]

def commandContext : CommandContext ℕ Unit where
  correlationId := "c1"
  allowedSeverity := .unknown
  reason := .error "Command canceled"

/-- The first denial gives the reason one way, and the last the other way. -/
theorem completedCommandResponse_twoDenials_ne :
    completedCommandResponse commandContext twoDenials false ≠
      (processCommandResponse commandContext twoDenials [] false fun _ _ => false).answer.map
        some := by
  intro heq
  have hreason := congrArg (fun answer => answer.toOption.bind fun result =>
    result.map (·.authorizationFailureReason)) heq
  revert hreason
  decide

def oneDenial : List (ResponseLeaf ℕ Unit Unit) :=
  [.ordinary (.control (.denied (some "The account is closed")))]

/-- Where the reasons are the same, the two ways have one result. -/
theorem completedCommandResponse_oneDenial_eq :
    completedCommandResponse commandContext oneDenial false =
      (processCommandResponse commandContext oneDenial [] false fun _ _ => false).answer.map
        some :=
  (completedCommandResponse_eq_processCommandResponse_iff (by decide) (by decide) false
    fun _ _ => false).2 (Or.inr ⟨by unfold FirstDenialLast; decide, Or.inl rfl⟩)

end Arc.Commands
