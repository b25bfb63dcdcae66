import Arc.Commands.CommandResult
import Arc.Foundation.History
import Mathlib.Data.List.Range

/-!
# The journal of command operations

A journal holds the planned operations of one command. `execute` enters them in
order and records the entry before each call; `recover` walks the entered ones
backwards and calls their compensations under one shared budget. What a call does
(it throws, the command is canceled meanwhile, it outlasts the budget) is part of the
plan, so a run of the journal is evaluated.

Both append to a log of what was called and how it ended, and the facts about them
are facts about that log.
-/

namespace Arc.Commands

/-- Where the original failure occurred. -/
inductive CommandOperationFailureSource
  | responseHandling
  | execution
  | cancellation
  | scopeCompletion
  deriving DecidableEq, Repr

/-- What a compensation is told. -/
structure CommandOperationFailure where
  invocationIndex : ℕ
  invocationCompleted : Bool
  isFailingInvocation : Bool
  source : CommandOperationFailureSource
  commitDisposition : CommandCommitDisposition
  exceptionMessages : List String
  deriving DecidableEq, Repr

/-- What a call of `compensate` does: whether it throws, and whether the shared budget
expires before it settles. -/
structure Compensation where
  throws : Option String := none
  outlasts : Bool := false

/-- A planned operation with what its `execute` does: it throws, and the signal of the
command is aborted by the time it settles. -/
structure PlannedOperation (ν : Type*) where
  operationType : String
  execute : Option (Thrown ν) := none
  aborts : Bool := false
  compensate : Option Compensation := none

/-- How a compensation settled. -/
inductive Settlement
  | inTime
  | late
  | threw
  deriving DecidableEq, Repr

/-- What is called while a command is executed, in order. -/
inductive CommandEvent
  | began (scope : ℕ)
  | completed (scope : ℕ)
  | entered (index : ℕ)
  | executed (index : ℕ)
  | compensating (failure : CommandOperationFailure)
  | compensated (index : ℕ) (settlement : Settlement)
  deriving DecidableEq, Repr

variable {ν : Type*}

/-- A run of the journal's `execute`. -/
structure Execution (ν : Type*) where
  outcomes : List CommandOperationOutcome
  failedIndex : Option ℕ
  thrown : Option (Thrown ν)
  aborted : Bool
  log : List CommandEvent

/-- Run declarations in order, recording entry before each call. -/
@[simp] def execute (reason : Thrown ν) : ℕ → Bool → List (PlannedOperation ν) → Execution ν
  | _, aborted, [] =>
      { outcomes := [], failedIndex := none, thrown := if aborted then some reason else none,
        aborted := aborted, log := [] }
  | index, aborted, operation :: rest =>
      if aborted then
        { outcomes := [], failedIndex := none, thrown := some reason, aborted := true, log := [] }
      else
        let outcome : CommandOperationOutcome :=
          { invocationIndex := index, operationType := operation.operationType,
            executionCompleted := false, compensation := .notNeeded, compensationFailure := none }
        match operation.execute with
        | some error =>
            { outcomes := [outcome], failedIndex := some index, thrown := some error,
              aborted := operation.aborts, log := [.entered index] }
        | none =>
            let later := execute reason (index + 1) operation.aborts rest
            { later with
              outcomes := { outcome with executionCompleted := true } :: later.outcomes
              log := .entered index :: .executed index :: later.log }

/-- The journal of a command. -/
structure CommandOperationExecution (ν : Type*) where
  planned : List (PlannedOperation ν)
  outcomes : List CommandOperationOutcome := []
  failedIndex : Option ℕ := none

/-- The dispositions under which commitment is known to be absent. -/
def CommandCommitDisposition.eligible (disposition : CommandCommitDisposition) : Bool :=
  disposition == .noCommit || disposition == .notCommitted

def Compensation.settlement (call : Compensation) : Settlement :=
  if call.throws.isSome then .threw else if call.outlasts then .late else .inTime

/-- What the journal notes of a compensation. -/
def CommandOperationOutcome.settle (outcome : CommandOperationOutcome) (call : Compensation) :
    CommandOperationOutcome :=
  match call.throws with
  | some message =>
      { outcome with compensation := .failed, compensationFailure := some message }
  | none =>
      { outcome with compensation := if call.outlasts then .budgetExpired else .completed }

/-- Call the compensations of the given entries, the last entered one first; `expired`
says that the shared budget is used up. -/
@[simp] def compensate (detail : CommandOperationOutcome → CommandOperationFailure) :
    Bool → List (CommandOperationOutcome × PlannedOperation ν) →
      List CommandOperationOutcome × List CommandEvent
  | _, [] => ([], [])
  | expired, (outcome, operation) :: earlier =>
      match operation.compensate with
      | none =>
          let rest := compensate detail expired earlier
          ({ outcome with compensation := .notAvailable } :: rest.1, rest.2)
      | some call =>
          if expired then
            let rest := compensate detail expired earlier
            ({ outcome with compensation := .budgetExpired } :: rest.1, rest.2)
          else
            let rest := compensate detail call.outlasts earlier
            (outcome.settle call :: rest.1,
              .compensating (detail outcome) ::
                .compensated outcome.invocationIndex call.settlement :: rest.2)

/-- What `recover` leaves: the noted outcomes, the summary, and what was called. -/
structure Recovery where
  outcomes : List CommandOperationOutcome
  summary : CommandRecoverySummary
  log : List CommandEvent

namespace CommandOperationExecution

/-- What the compensation of an entered operation is told. -/
def detail (journal : CommandOperationExecution ν) (disposition : CommandCommitDisposition)
    (failure : List String) (source : CommandOperationFailureSource)
    (outcome : CommandOperationOutcome) : CommandOperationFailure where
  invocationIndex := outcome.invocationIndex
  invocationCompleted := outcome.executionCompleted
  isFailingInvocation := some outcome.invocationIndex == journal.failedIndex
  source := source
  commitDisposition := disposition
  exceptionMessages := failure

/-- The entered operations with what they planned to do, the last entered one first. -/
def entries (journal : CommandOperationExecution ν) :
    List (CommandOperationOutcome × PlannedOperation ν) :=
  (journal.outcomes.zip journal.planned).reverse

/-- The outcomes after recovery, and the calls it made. -/
def unwind (journal : CommandOperationExecution ν) (disposition : CommandCommitDisposition)
    (failure : List String) (source : CommandOperationFailureSource) :
    List CommandOperationOutcome × List CommandEvent :=
  if failure.isEmpty then (journal.outcomes, [])
  else if disposition.eligible then
    let unwound := compensate (journal.detail disposition failure source) false journal.entries
    (unwound.1.reverse, unwound.2)
  else (journal.outcomes.map fun outcome => { outcome with compensation := .suppressed }, [])

def status (disposition : CommandCommitDisposition) (failure : List String)
    (started compensated : ℕ) : CommandRecoveryStatus :=
  if failure.isEmpty || started == 0 then .notNeeded
  else if disposition.eligible then
    if compensated == started then .completed else .incomplete
  else if disposition == .committed then .suppressed
  else .indeterminate

/-- Recover only when commitment is known absent; callbacks share one cooperative cleanup
budget. -/
def recover (journal : CommandOperationExecution ν) (disposition : CommandCommitDisposition)
    (failure : List String) (source : CommandOperationFailureSource) : Recovery :=
  let unwound := journal.unwind disposition failure source
  let compensatedCount := unwound.1.countP (·.compensation == .completed)
  { outcomes := unwound.1
    summary :=
      { commitDisposition := disposition
        status := status disposition failure unwound.1.length compensatedCount
        startedCount := unwound.1.length
        completedCount := unwound.1.countP (·.executionCompleted)
        compensatedCount := compensatedCount
        failedCompensationCount := unwound.1.countP (·.compensation == .failed)
        uncompensatedCount := if failure.isEmpty then 0 else unwound.1.length - compensatedCount }
    log := unwound.2 }

end CommandOperationExecution

/-! ### Reading the log -/

namespace CommandEvent

/-- The operation an entry is for. -/
def entry? : CommandEvent → Option ℕ
  | .entered index => some index
  | _ => none

/-- The operation a compensation is for. -/
def compensation? : CommandEvent → Option ℕ
  | .compensating failure => some failure.invocationIndex
  | _ => none

/-- The scope whose `begin` is called. -/
def began? : CommandEvent → Option ℕ
  | .began scope => some scope
  | _ => none

/-- The scope whose `complete` is called. -/
def completed? : CommandEvent → Option ℕ
  | .completed scope => some scope
  | _ => none

def isExecuted : CommandEvent → Bool
  | .executed _ => true
  | _ => false

def settledAs (settlement : Settlement) : CommandEvent → Bool
  | .compensated _ s => s == settlement
  | _ => false

/-- A compensation is allowed once its operation was entered, and once every earlier one is
settled and was for an operation entered later. -/
def Allowed (before : List CommandEvent) : CommandEvent → Prop
  | .compensating failure =>
      .entered failure.invocationIndex ∈ before ∧
        ∀ earlier, .compensating earlier ∈ before →
          failure.invocationIndex < earlier.invocationIndex ∧
            ∃ settlement, .compensated earlier.invocationIndex settlement ∈ before
  | _ => True

end CommandEvent

/-! ### The calls of `execute` -/

section Execute

variable (reason : Thrown ν)

/-- An operation is entered while its predecessors were, and counted from `index`. -/
theorem execute_indices (index : ℕ) (aborted : Bool) (planned : List (PlannedOperation ν)) :
    (execute reason index aborted planned).outcomes.map (·.invocationIndex) =
      List.range' index (execute reason index aborted planned).outcomes.length := by
  induction planned generalizing index aborted with
  | nil => rfl
  | cons operation rest ih =>
      simp only [execute]
      split_ifs with haborted
      · rfl
      · cases operation.execute with
        | some error => rfl
        | none =>
            simp only [List.map_cons, List.length_cons, List.range'_succ]
            rw [ih]

theorem execute_length_le (index : ℕ) (aborted : Bool) (planned : List (PlannedOperation ν)) :
    (execute reason index aborted planned).outcomes.length ≤ planned.length := by
  induction planned generalizing index aborted with
  | nil => exact Nat.le_refl 0
  | cons operation rest ih =>
      simp only [execute]
      split_ifs with haborted
      · exact Nat.zero_le _
      · cases operation.execute with
        | some error => exact Nat.succ_le_succ (Nat.zero_le _)
        | none => exact Nat.succ_le_succ (ih (index + 1) operation.aborts)

/-- The log of an execution names the entered operations and nothing of a recovery. -/
theorem execute_entries (index : ℕ) (aborted : Bool) (planned : List (PlannedOperation ν)) :
    (execute reason index aborted planned).log.filterMap CommandEvent.entry? =
      (execute reason index aborted planned).outcomes.map (·.invocationIndex) := by
  induction planned generalizing index aborted with
  | nil => rfl
  | cons operation rest ih =>
      simp only [execute]
      split_ifs with haborted
      · rfl
      · cases operation.execute with
        | some error => rfl
        | none =>
            simp only [List.filterMap_cons, CommandEvent.entry?, List.map_cons]
            rw [ih]

/-- An execution only enters and completes operations. -/
theorem mem_execute_log {index : ℕ} {aborted : Bool} {planned : List (PlannedOperation ν)}
    {event : CommandEvent} (h : event ∈ (execute reason index aborted planned).log) :
    ∃ i, event = .entered i ∨ event = .executed i := by
  induction planned generalizing index aborted with
  | nil => simp [execute] at h
  | cons operation rest ih =>
      simp only [execute] at h
      split_ifs at h with haborted
      · simp at h
      · cases hexecute : operation.execute with
        | some error =>
            simp only [hexecute, List.mem_singleton] at h
            exact ⟨index, Or.inl h⟩
        | none =>
            simp only [hexecute, List.mem_cons] at h
            rcases h with rfl | rfl | h
            · exact ⟨index, Or.inl rfl⟩
            · exact ⟨index, Or.inr rfl⟩
            · exact ih h

/-- The completed executions are the noted ones. -/
theorem execute_completed (index : ℕ) (aborted : Bool) (planned : List (PlannedOperation ν)) :
    (execute reason index aborted planned).log.countP CommandEvent.isExecuted =
      (execute reason index aborted planned).outcomes.countP (·.executionCompleted) := by
  induction planned generalizing index aborted with
  | nil => rfl
  | cons operation rest ih =>
      simp only [execute]
      split_ifs with haborted
      · rfl
      · cases operation.execute with
        | some error => rfl
        | none =>
            simp only [List.countP_cons, CommandEvent.isExecuted]
            rw [ih]
            rfl

/-- Nothing is compensated before the recovery. -/
theorem execute_notNeeded {index : ℕ} {aborted : Bool} {planned : List (PlannedOperation ν)}
    {outcome : CommandOperationOutcome}
    (h : outcome ∈ (execute reason index aborted planned).outcomes) :
    outcome.compensation = .notNeeded := by
  induction planned generalizing index aborted with
  | nil => simp [execute] at h
  | cons operation rest ih =>
      simp only [execute] at h
      split_ifs at h with haborted
      · simp at h
      · cases hexecute : operation.execute with
        | some error =>
            simp only [hexecute, List.mem_singleton] at h
            rw [h]
        | none =>
            simp only [hexecute, List.mem_cons] at h
            rcases h with rfl | h
            · rfl
            · exact ih h

/-- An operation that is called and lets the next one be called. -/
def PlannedOperation.Succeeds (operation : PlannedOperation ν) : Prop :=
  operation.execute = none ∧ operation.aborts = false

/-- An execution fails unless every operation succeeds, and then it has entered them all. -/
theorem execute_thrown_eq_none_iff {index : ℕ} {aborted : Bool}
    {planned : List (PlannedOperation ν)} :
    (execute reason index aborted planned).thrown = none ↔
      aborted = false ∧ ∀ operation ∈ planned, operation.Succeeds := by
  induction planned generalizing index aborted with
  | nil =>
      cases aborted with
      | true => simp [execute]
      | false => simp [execute]
  | cons operation rest ih =>
      simp only [execute, List.forall_mem_cons]
      cases aborted with
      | true => simp
      | false =>
          cases hexecute : operation.execute with
          | some error => simp [PlannedOperation.Succeeds, hexecute]
          | none => simp [PlannedOperation.Succeeds, hexecute, ih]

theorem execute_length {index : ℕ} {aborted : Bool} {planned : List (PlannedOperation ν)}
    (h : (execute reason index aborted planned).thrown = none) :
    (execute reason index aborted planned).outcomes.length = planned.length := by
  induction planned generalizing index aborted with
  | nil => rfl
  | cons operation rest ih =>
      simp only [execute] at h ⊢
      split_ifs at h ⊢ with haborted
      cases hexecute : operation.execute with
      | some error => simp [hexecute] at h
      | none =>
          simp only [hexecute] at h ⊢
          rw [List.length_cons, List.length_cons, ih h]

end Execute

/-! ### The calls of `recover` -/

section Compensate

variable {detail : CommandOperationOutcome → CommandOperationFailure}
variable {expired : Bool} {pairs : List (CommandOperationOutcome × PlannedOperation ν)}

/-- A recovery only calls compensations. -/
theorem mem_compensate_log {event : CommandEvent} (h : event ∈ (compensate detail expired pairs).2) :
    (∃ failure, event = .compensating failure) ∨
      ∃ index settlement, event = .compensated index settlement := by
  induction pairs generalizing expired with
  | nil => simp [compensate] at h
  | cons pair earlier ih =>
      obtain ⟨outcome, operation⟩ := pair
      simp only [compensate] at h
      cases hcall : operation.compensate with
      | none =>
          rw [hcall] at h
          exact ih h
      | some call =>
          simp only [hcall] at h
          split_ifs at h
          · exact ih h
          · rcases List.mem_cons.1 h with rfl | h
            · exact Or.inl ⟨_, rfl⟩
            · rcases List.mem_cons.1 h with rfl | h
              · exact Or.inr ⟨_, _, rfl⟩
              · exact ih h

theorem compensate_length :
    (compensate detail expired pairs).1.length = pairs.length := by
  induction pairs generalizing expired with
  | nil => rfl
  | cons pair earlier ih =>
      obtain ⟨outcome, operation⟩ := pair
      simp only [compensate]
      cases operation.compensate with
      | none => exact congrArg (· + 1) ih
      | some call =>
          cases expired with
          | true => exact congrArg (· + 1) ih
          | false => exact congrArg (· + 1) ih

theorem settle_executionCompleted (outcome : CommandOperationOutcome) (call : Compensation) :
    (outcome.settle call).executionCompleted = outcome.executionCompleted := by
  unfold CommandOperationOutcome.settle
  cases call.throws with
  | none => rfl
  | some message => rfl

/-- Recovery leaves alone what it notes of the executions. -/
theorem compensate_executionCompleted :
    (compensate detail expired pairs).1.map (·.executionCompleted) =
      pairs.map (·.1.executionCompleted) := by
  induction pairs generalizing expired with
  | nil => rfl
  | cons pair earlier ih =>
      obtain ⟨outcome, operation⟩ := pair
      simp only [compensate]
      cases operation.compensate with
      | none => exact congrArg (_ :: ·) ih
      | some call =>
          cases expired with
          | true => exact congrArg (_ :: ·) ih
          | false =>
              simp only [Bool.false_eq_true, if_false, List.map_cons,
                settle_executionCompleted]
              rw [ih]

theorem settle_completed (outcome : CommandOperationOutcome) (call : Compensation) :
    ((outcome.settle call).compensation == .completed) = (call.settlement == .inTime) := by
  unfold CommandOperationOutcome.settle Compensation.settlement
  cases call.throws with
  | some message => rfl
  | none =>
      cases call.outlasts with
      | true => rfl
      | false => rfl

theorem settle_failed (outcome : CommandOperationOutcome) (call : Compensation) :
    ((outcome.settle call).compensation == .failed) = (call.settlement == .threw) := by
  unfold CommandOperationOutcome.settle Compensation.settlement
  cases call.throws with
  | some message => rfl
  | none =>
      cases call.outlasts with
      | true => rfl
      | false => rfl

/-- What is noted of the compensations counts how they settled. -/
theorem compensate_count {noted : CommandOperationCompensation} {settlement : Settlement}
    (hnotAvailable : noted ≠ .notAvailable) (hexpired : noted ≠ .budgetExpired)
    (hsettle : ∀ outcome call,
      ((CommandOperationOutcome.settle outcome call).compensation == noted) =
        (call.settlement == settlement)) :
    (compensate detail expired pairs).1.countP (·.compensation == noted) =
      (compensate detail expired pairs).2.countP (CommandEvent.settledAs settlement) := by
  induction pairs generalizing expired with
  | nil => rfl
  | cons pair earlier ih =>
      obtain ⟨outcome, operation⟩ := pair
      simp only [compensate]
      cases operation.compensate with
      | none =>
          rw [List.countP_cons_of_neg (by simpa using hnotAvailable.symm)]
          exact ih
      | some call =>
          cases expired with
          | true =>
              simp only [if_true]
              rw [List.countP_cons_of_neg (by simpa using hexpired.symm)]
              exact ih
          | false =>
              simp only [Bool.false_eq_true, if_false, List.countP_cons, hsettle,
                CommandEvent.settledAs]
              rw [ih]
              rfl

section Calls

variable (hdetail : ∀ outcome, (detail outcome).invocationIndex = outcome.invocationIndex)
include hdetail

/-- Compensations are called in the order in which the entries are given. -/
theorem compensate_sublist :
    ((compensate detail expired pairs).2.filterMap CommandEvent.compensation?).Sublist
      (pairs.map (·.1.invocationIndex)) := by
  induction pairs generalizing expired with
  | nil => exact List.Sublist.refl []
  | cons pair earlier ih =>
      obtain ⟨outcome, operation⟩ := pair
      simp only [compensate]
      cases operation.compensate with
      | none => exact ih.cons _
      | some call =>
          cases expired with
          | true => exact ih.cons _
          | false =>
              simp only [Bool.false_eq_true, if_false, List.filterMap_cons,
                CommandEvent.compensation?, hdetail, List.map_cons]
              exact ih.cons_cons _

/-- A declared compensation is called, or the budget was used up before its turn by one
that was. -/
theorem compensate_reaches {outcome : CommandOperationOutcome} {operation : PlannedOperation ν}
    (hdesc : pairs.Pairwise fun later earlier =>
      earlier.1.invocationIndex < later.1.invocationIndex)
    (hmem : (outcome, operation) ∈ pairs) (hdeclares : operation.compensate.isSome) :
    outcome.invocationIndex ∈
        (compensate detail expired pairs).2.filterMap CommandEvent.compensation? ∨
      expired = true ∨ ∃ spent ∈ pairs, outcome.invocationIndex < spent.1.invocationIndex ∧
        spent.1.invocationIndex ∈
          (compensate detail expired pairs).2.filterMap CommandEvent.compensation? ∧
        ∃ call, spent.2.compensate = some call ∧ call.outlasts = true := by
  induction pairs generalizing expired with
  | nil => simp at hmem
  | cons pair earlier ih =>
      obtain ⟨hlater, hpairwise⟩ := List.pairwise_cons.1 hdesc
      obtain ⟨first, planned⟩ := pair
      cases expired with
      | true => exact Or.inr (Or.inl rfl)
      | false =>
          simp only [compensate]
          cases hcall : planned.compensate with
          | none =>
              have hrest : (outcome, operation) ∈ earlier := by
                refine (List.mem_cons.1 hmem).resolve_left fun hfirst => ?_
                rw [Prod.mk.injEq] at hfirst
                rw [hfirst.2, hcall] at hdeclares
                exact absurd hdeclares (by decide)
              rcases @ih false hpairwise hrest with h | h | ⟨spent, hspent, h⟩
              · exact Or.inl h
              · exact absurd h (by decide)
              · exact Or.inr (Or.inr ⟨spent, List.mem_cons_of_mem _ hspent, h⟩)
          | some call =>
              simp only [Bool.false_eq_true, if_false, List.filterMap_cons,
                CommandEvent.compensation?, hdetail]
              rcases List.mem_cons.1 hmem with hfirst | hrest
              · rw [Prod.mk.injEq] at hfirst
                rw [hfirst.1]
                exact Or.inl (List.mem_cons_self ..)
              · rcases @ih call.outlasts hpairwise hrest with
                  h | h | ⟨spent, hspent, hlt, hcalled, hspends⟩
                · exact Or.inl (List.mem_cons_of_mem _ h)
                · exact Or.inr (Or.inr ⟨(first, planned), List.mem_cons_self ..,
                    hlater _ hrest, List.mem_cons_self .., call, hcall, h⟩)
                · exact Or.inr (Or.inr ⟨spent, List.mem_cons_of_mem _ hspent, hlt,
                    List.mem_cons_of_mem _ hcalled, hspends⟩)

/-- A recovery keeps the rule of compensations, after a history in which the entries it
walks were entered and every compensation is settled. -/
theorem compensate_ordered {before : List CommandEvent}
    (hbefore : History.Ordered CommandEvent.Allowed before)
    (hdesc : pairs.Pairwise fun later earlier =>
      earlier.1.invocationIndex < later.1.invocationIndex)
    (hentered : ∀ pair ∈ pairs, .entered pair.1.invocationIndex ∈ before)
    (hearlier : ∀ failure, .compensating failure ∈ before →
      (∃ settlement, .compensated failure.invocationIndex settlement ∈ before) ∧
        ∀ pair ∈ pairs, pair.1.invocationIndex < failure.invocationIndex) :
    History.Ordered CommandEvent.Allowed (before ++ (compensate detail expired pairs).2) := by
  induction pairs generalizing expired before with
  | nil => simpa [compensate] using hbefore
  | cons pair earlier ih =>
      obtain ⟨hlater, hpairwise⟩ := List.pairwise_cons.1 hdesc
      obtain ⟨outcome, operation⟩ := pair
      have hskip : ∀ expired, History.Ordered CommandEvent.Allowed
          (before ++ (compensate detail expired earlier).2) := fun expired =>
        ih hbefore hpairwise (fun pair hpair => hentered pair (List.mem_cons_of_mem _ hpair))
          fun failure hfailure => ⟨(hearlier failure hfailure).1, fun pair hpair =>
            (hearlier failure hfailure).2 pair (List.mem_cons_of_mem _ hpair)⟩
      simp only [compensate]
      cases operation.compensate with
      | none => exact hskip expired
      | some call =>
          cases expired with
          | true => exact hskip true
          | false =>
              simp only [Bool.false_eq_true, if_false]
              rw [List.append_cons, List.append_cons (before ++ [_])]
              refine ih ?_ hpairwise ?_ ?_
              · refine History.ordered_concat.2 ⟨History.ordered_concat.2 ⟨hbefore, ?_⟩, trivial⟩
                refine ⟨?_, fun failure hfailure => ?_⟩
                · rw [hdetail]
                  exact hentered _ (List.mem_cons_self ..)
                · rw [hdetail]
                  exact ⟨(hearlier failure hfailure).2 _ (List.mem_cons_self ..),
                    (hearlier failure hfailure).1⟩
              · intro pair hpair
                have := hentered pair (List.mem_cons_of_mem _ hpair)
                simp [this]
              · intro failure hfailure
                simp only [List.mem_append, List.mem_singleton, reduceCtorEq, or_false,
                  CommandEvent.compensating.injEq] at hfailure
                rcases hfailure with hold | rfl
                · obtain ⟨⟨settlement, hsettled⟩, hindex⟩ := hearlier failure hold
                  exact ⟨⟨settlement, by simp [hsettled]⟩,
                    fun pair hpair => hindex pair (List.mem_cons_of_mem _ hpair)⟩
                · rw [hdetail]
                  exact ⟨⟨call.settlement, by simp⟩, fun pair hpair => hlater pair hpair⟩

end Calls

end Compensate

/-! ### Recovering an execution -/

namespace CommandOperationExecution

/-- The outcomes of a journal and the log are those of one execution of its plan. -/
def Entered (reason : Thrown ν) (journal : CommandOperationExecution ν)
    (log : List CommandEvent) : Prop :=
  ∃ aborted, journal.outcomes = (execute reason 0 aborted journal.planned).outcomes ∧
    log = (execute reason 0 aborted journal.planned).log

/-- A journal nothing of which was entered. -/
theorem entered_nil {reason : Thrown ν}
    {journal : CommandOperationExecution ν} (h : journal.outcomes = []) :
    journal.Entered reason [] := by
  refine ⟨true, ?_, ?_⟩
  · rw [h]
    cases journal.planned with
    | nil => rfl
    | cons operation rest => simp [execute]
  · cases journal.planned with
    | nil => rfl
    | cons operation rest => simp [execute]

section Recover

variable {reason : Thrown ν} {journal : CommandOperationExecution ν} {log : List CommandEvent}

theorem Entered.indices (h : journal.Entered reason log) :
    journal.outcomes.map (·.invocationIndex) = List.range' 0 journal.outcomes.length := by
  obtain ⟨aborted, houtcomes, -⟩ := h
  rw [houtcomes]
  exact execute_indices reason 0 aborted journal.planned

theorem Entered.length_le (h : journal.Entered reason log) :
    journal.outcomes.length ≤ journal.planned.length := by
  obtain ⟨aborted, houtcomes, -⟩ := h
  rw [houtcomes]
  exact execute_length_le reason 0 aborted journal.planned

/-- The operations are entered in the order of the plan. -/
theorem Entered.entered (h : journal.Entered reason log) :
    log.filterMap CommandEvent.entry? = List.range' 0 journal.outcomes.length := by
  rw [← h.indices]
  obtain ⟨aborted, houtcomes, hlog⟩ := h
  rw [houtcomes, hlog]
  exact execute_entries reason 0 aborted journal.planned

theorem Entered.executed (h : journal.Entered reason log) :
    log.countP CommandEvent.isExecuted = journal.outcomes.countP (·.executionCompleted) := by
  obtain ⟨aborted, houtcomes, hlog⟩ := h
  rw [houtcomes, hlog]
  exact execute_completed reason 0 aborted journal.planned

theorem Entered.notNeeded (h : journal.Entered reason log) :
    ∀ outcome ∈ journal.outcomes, outcome.compensation = .notNeeded := by
  obtain ⟨aborted, houtcomes, -⟩ := h
  rw [houtcomes]
  exact fun outcome houtcome => execute_notNeeded reason houtcome

/-- The entries are walked in reverse. -/
theorem Entered.entries_indices (h : journal.Entered reason log) :
    journal.entries.map (·.1.invocationIndex) =
      (List.range' 0 journal.outcomes.length).reverse := by
  rw [entries, List.map_reverse, ← h.indices]
  congr 1
  rw [show (fun pair : CommandOperationOutcome × PlannedOperation ν => pair.1.invocationIndex) =
    CommandOperationOutcome.invocationIndex ∘ Prod.fst from rfl, ← List.map_map,
    List.map_fst_zip h.length_le]

theorem Entered.entries_pairwise (h : journal.Entered reason log) :
    journal.entries.Pairwise fun later earlier =>
      earlier.1.invocationIndex < later.1.invocationIndex := by
  have hdesc : (journal.entries.map (·.1.invocationIndex)).Pairwise (· > ·) := by
    rw [h.entries_indices, List.pairwise_reverse]
    exact List.pairwise_lt_range'
  exact List.pairwise_map.1 hdesc

/-- An entry is an entered operation with its plan. -/
theorem Entered.mem_entries_iff (h : journal.Entered reason log)
    {index : ℕ} {operation : PlannedOperation ν} :
    (∃ outcome, (outcome, operation) ∈ journal.entries ∧ outcome.invocationIndex = index) ↔
      index < journal.outcomes.length ∧ journal.planned[index]? = some operation := by
  have hindex : ∀ {k : ℕ} {outcome : CommandOperationOutcome},
      journal.outcomes[k]? = some outcome → outcome.invocationIndex = k := by
    intro k outcome hk
    have hmapped := congrArg (·[k]?) h.indices
    simp only [List.getElem?_map, hk, Option.map_some] at hmapped
    obtain ⟨hlt, -⟩ := List.getElem?_eq_some_iff.1 hk
    rw [List.getElem?_range' hlt] at hmapped
    simpa using hmapped
  simp only [entries, List.mem_reverse]
  constructor
  · rintro ⟨outcome, hmem, rfl⟩
    obtain ⟨k, hk⟩ := List.mem_iff_getElem?.1 hmem
    obtain ⟨houtcome, hplanned⟩ := List.getElem?_zip_eq_some.1 hk
    rw [hindex houtcome]
    exact ⟨(List.getElem?_eq_some_iff.1 houtcome).1, hplanned⟩
  · rintro ⟨hlt, hplanned⟩
    have houtcome := List.getElem?_eq_getElem hlt
    exact ⟨_, List.mem_iff_getElem?.2 ⟨index, List.getElem?_zip_eq_some.2 ⟨houtcome, hplanned⟩⟩,
      hindex houtcome⟩

variable {disposition : CommandCommitDisposition} {failure : List String}
variable {source : CommandOperationFailureSource}

/-- Nothing is called while something may be committed. -/
theorem recover_log_of_not_eligible (h : disposition.eligible = false) :
    (journal.recover disposition failure source).log = [] := by
  simp only [recover, unwind, h, Bool.false_eq_true, if_false]
  split_ifs
  · rfl
  · rfl

theorem unwind_length (h : journal.Entered reason log) :
    (journal.unwind disposition failure source).1.length = journal.outcomes.length := by
  unfold unwind
  split_ifs
  · rfl
  · rw [List.length_reverse, compensate_length, entries, List.length_reverse, List.length_zip]
    exact Nat.min_eq_left h.length_le
  · exact List.length_map _

theorem unwind_executed (h : journal.Entered reason log) :
    (journal.unwind disposition failure source).1.countP (·.executionCompleted) =
      journal.outcomes.countP (·.executionCompleted) := by
  unfold unwind
  split_ifs
  · rfl
  · have hmap : ∀ outcomes : List CommandOperationOutcome,
        outcomes.countP (·.executionCompleted) =
          (outcomes.map (·.executionCompleted)).countP id := by
      intro outcomes
      rw [List.countP_map]
      rfl
    rw [List.countP_reverse, hmap, compensate_executionCompleted, entries, List.map_reverse,
      List.countP_reverse, hmap]
    congr 1
    rw [show (fun pair : CommandOperationOutcome × PlannedOperation ν => pair.1.executionCompleted) =
      CommandOperationOutcome.executionCompleted ∘ Prod.fst from rfl, ← List.map_map,
      List.map_fst_zip h.length_le]
  · rw [List.countP_map]
    rfl

/-- What is noted of the compensations counts how they settled, whether they were called or
not. -/
theorem unwind_count (h : journal.Entered reason log) {noted : CommandOperationCompensation}
    {settlement : Settlement} (hnotNeeded : noted ≠ .notNeeded)
    (hnotAvailable : noted ≠ .notAvailable) (hexpired : noted ≠ .budgetExpired)
    (hsuppressed : noted ≠ .suppressed)
    (hsettle : ∀ outcome call,
      ((CommandOperationOutcome.settle outcome call).compensation == noted) =
        (call.settlement == settlement)) :
    (journal.unwind disposition failure source).1.countP (·.compensation == noted) =
      (journal.unwind disposition failure source).2.countP (CommandEvent.settledAs settlement) := by
  unfold unwind
  split_ifs
  · refine List.countP_eq_zero.2 fun outcome houtcome => ?_
    rw [h.notNeeded outcome houtcome]
    simpa using hnotNeeded.symm
  · rw [List.countP_reverse]
    exact compensate_count hnotAvailable hexpired hsettle
  · refine List.countP_eq_zero.2 fun outcome houtcome => ?_
    obtain ⟨entered, -, rfl⟩ := List.mem_map.1 houtcome
    simpa using hsuppressed.symm

end Recover

end CommandOperationExecution

end Arc.Commands
