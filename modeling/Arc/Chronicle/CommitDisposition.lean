import Arc.Chronicle.ChronicleUnitOfWork
import Arc.Chronicle.CommandTree

/-!
# What a commit may claim

A recovery compensates when nothing is known to be committed, so a disposition must not
say so of events that are stored. `commit_disposition` states it for one commit, for
every answer of the event store, and `complete_disposition` for the scope that reports the
disposition to the command. The catch block of `commit` also answers for the wait after the
append, which is where the two differ from what they should be.
-/

namespace Arc.Chronicle

open Arc.Commands

variable {ε σ κ ρ : Type*}

/-- The event store has answered the issued batch with a success for one of its events. -/
def Commit.Acknowledged (commit : Commit ε σ κ ρ) (calls : CommitCalls) : Prop :=
  ∃ batch results, commit.issued = some batch ∧ calls.append = .returns results ∧
    Chronicle.Acknowledged results

/-- The issued batch is accepted as a whole. -/
def Commit.Accepted (commit : Commit ε σ κ ρ) (calls : CommitCalls) : Prop :=
  ∃ batch results, commit.issued = some batch ∧ calls.append = .returns results ∧
    checkResults results batch.length = .ok none

/-- The batch is issued, and there is no answer to it that can be relied on. -/
def Commit.Lost (commit : Commit ε σ κ ρ) (calls : CommitCalls) : Prop :=
  ∃ batch, commit.issued = some batch ∧ match calls.append with
    | .throws _ => True
    | .unreadable _ => True
    | .returns results => ∃ error, checkResults results batch.length = .error error

/-- What a commit claims is so: a disposition that allows a recovery only without an
acknowledgment, the committed one after an accepted batch, the unknown one without an answer;
and no operation of a command whose batch is accepted is compensated. -/
structure Commit.Sound (commit : Commit ε σ κ ρ) (calls : CommitCalls) : Prop where
  uncommitted : commit.unit.disposition = .noCommit ∨ commit.unit.disposition = .notCommitted →
    ¬ commit.Acknowledged calls
  committed : commit.Accepted calls → commit.unit.disposition = .committed
  unknown : commit.Lost calls → commit.unit.disposition = .unknown
  recovery : commit.Accepted calls → ∀ (scope : ChronicleCommandScope ε σ κ),
    scope.unit = some commit.unit → ∀ context (journal : CommandOperationExecution ValidationResult)
      failure source,
        (journal.recover (scope.getCommitDisposition context) failure source).log = []

/-- How a wait for the observers fails. -/
def Race.Fails : Race → Prop
  | .canceled => False
  | .rejected _ => True
  | .completed completion => completion.failed = true

/-- The batch of the unit is issued and accepted, and then the wait for the observers fails: its
timeout is no positive integer, or the observers fail before the command is canceled. -/
structure ObserversFail (unit : ChronicleUnitOfWork ε σ κ)
    (result : CommandResult ρ ValidationResult) (timeout : Option CompletionTimeout)
    (calls : CommitCalls) : Prop where
  opened : unit.completed = false
  isSuccess : result.isSuccess = true
  nestedFailure : unit.nestedFailure = false
  staged : unit.entries ≠ []
  notAborted : calls.aborted = false
  accepted : ∃ results, calls.append = .returns results ∧
    checkResults results unit.entries.length = .ok none
  waits : ∃ milliseconds, timeout = some milliseconds ∧ (milliseconds.usable = false ∨
    (calls.waiting.aborted = false ∧ calls.waiting.race.Fails))

section Commit

variable {unit : ChronicleUnitOfWork ε σ κ} {result : CommandResult ρ ValidationResult}
variable {timeout : Option CompletionTimeout} {calls : CommitCalls}

/-- The wait after an append fails exactly when its timeout cannot be used or the observers
fail. -/
theorem waitForProjectionCompletion_ne_none_iff {results : List AppendResult} {waiting : Waiting}
    (hresults : results ≠ []) :
    waitForProjectionCompletion results timeout waiting ≠ none ↔
      ∃ milliseconds, timeout = some milliseconds ∧ (milliseconds.usable = false ∨
        (waiting.aborted = false ∧ waiting.race.Fails)) := by
  cases timeout with
  | none => simp [waitForProjectionCompletion]
  | some milliseconds =>
      have hnonempty : results.isEmpty = false := by simpa using hresults
      cases husable : milliseconds.usable with
      | false => simp [waitForProjectionCompletion, hnonempty, husable]
      | true =>
          cases haborted : waiting.aborted with
          | true => simp [waitForProjectionCompletion, haborted, husable]
          | false =>
              cases hrace : waiting.race with
              | canceled =>
                  simp [waitForProjectionCompletion, hrace, haborted, husable, Race.Fails]
              | rejected error =>
                  simp [waitForProjectionCompletion, hrace, haborted, husable, Race.Fails, hresults]
              | completed completion =>
                  simp [waitForProjectionCompletion, hrace, haborted, husable, Race.Fails, hresults]

/-- A batch is issued by an open unit with events, for a success that is not canceled. -/
theorem commit_issued {batch : List ε} (h : (unit.commit result timeout calls).issued = some batch) :
    unit.completed = false ∧ result.isSuccess = true ∧ unit.nestedFailure = false ∧
      unit.entries ≠ [] ∧ calls.aborted = false := by
  unfold ChronicleUnitOfWork.commit at h
  split_ifs at h with hcompleted hfailed hnested hempty haborted
  · exact nomatch h
  · exact ⟨by simpa using hcompleted, by simpa using hfailed, by simpa using hnested,
      by simpa using hempty, by simpa using haborted⟩

/-- Such a unit issues all of its events, and its disposition is settled by the answer. -/
theorem commit_of_issuing (hopened : unit.completed = false) (hsuccess : result.isSuccess = true)
    (hnested : unit.nestedFailure = false) (hstaged : unit.entries ≠ [])
    (haborted : calls.aborted = false) :
    unit.commit result timeout calls = unit.settle result timeout calls := by
  simp [ChronicleUnitOfWork.commit, hopened, hsuccess, hnested, hstaged, haborted]

theorem settle_issued : (unit.settle result timeout calls).issued = some unit.entries := by
  unfold ChronicleUnitOfWork.settle
  cases calls.append with
  | throws error => rfl
  | unreadable error => rfl
  | returns results =>
      simp only
      rcases checkResults results unit.entries.length with error | _ | issues | reason
      · rfl
      · simp only
        cases waitForProjectionCompletion results timeout calls.waiting with
        | none => rfl
        | some error => rfl
      · rfl
      · rfl

/-- What is thrown while the answer is out leaves the disposition unknown. -/
theorem caught_unknown (hstore : unit.store.isSome) (error : Thrown ValidationResult)
    (issued : Option (List ε)) :
    (ChronicleUnitOfWork.caught (unit.close .unknown) result error issued).unit.disposition =
      .unknown := by
  have hsome : unit.store.isNone = false := Option.isNone_eq_false_iff.2 hstore
  have hkeep : ¬ ((unit.close .unknown).store.isNone ||
      (unit.close .unknown).disposition != .unknown) = true := by
    rw [show (unit.close .unknown).store.isNone = false from hsome]
    exact Bool.false_ne_true
  simp only [ChronicleUnitOfWork.caught]
  rw [if_neg hkeep]
  rfl

/-- What is thrown after an accepted batch takes the disposition back. -/
theorem caught_committed (error : Thrown ValidationResult) (issued : Option (List ε)) :
    (ChronicleUnitOfWork.caught (unit.close .committed) result error issued).unit.disposition =
      .notCommitted := by
  simp [ChronicleUnitOfWork.caught, ChronicleUnitOfWork.close]

theorem settle_lost (hstore : unit.store.isSome)
    (h : (unit.settle result timeout calls).Lost calls) :
    (unit.settle result timeout calls).unit.disposition = .unknown := by
  obtain ⟨batch, hbatch, hlost⟩ := h
  obtain rfl : unit.entries = batch := Option.some.inj (settle_issued.symm.trans hbatch)
  unfold ChronicleUnitOfWork.settle
  cases happend : calls.append with
  | throws error => exact caught_unknown hstore error _
  | unreadable error => exact caught_unknown hstore error _
  | returns results =>
      rw [happend] at hlost
      obtain ⟨error, herror⟩ := hlost
      simp only [herror]
      exact caught_unknown hstore error _

/-- After an accepted batch, the wait decides. -/
theorem settle_accepted {results : List AppendResult} (happend : calls.append = .returns results)
    (haccepted : checkResults results unit.entries.length = .ok none) :
    (unit.settle result timeout calls).unit.disposition =
      if waitForProjectionCompletion results timeout calls.waiting = none then .committed
      else .notCommitted := by
  unfold ChronicleUnitOfWork.settle
  simp only [happend, haccepted]
  cases waitForProjectionCompletion results timeout calls.waiting with
  | none => rfl
  | some error => exact caught_committed error _

/-- The wait after an accepted batch fails only when the observers do. -/
theorem observersFail_iff {batch : List ε} {results : List AppendResult}
    (hissued : (unit.commit result timeout calls).issued = some batch)
    (happend : calls.append = .returns results)
    (haccepted : checkResults results unit.entries.length = .ok none) :
    ObserversFail unit result timeout calls ↔
      waitForProjectionCompletion results timeout calls.waiting ≠ none := by
  obtain ⟨hopened, hsuccess, hnested, hstaged, haborted⟩ := commit_issued hissued
  have hresults : results ≠ [] := by
    intro hempty
    have hlength := (checkResults_none haccepted).2
    rw [hempty] at hlength
    exact hstaged (List.length_eq_zero_iff.1 hlength.symm)
  rw [waitForProjectionCompletion_ne_none_iff hresults]
  exact ⟨fun h => h.waits, fun h =>
    ⟨hopened, hsuccess, hnested, hstaged, haborted, ⟨results, happend, haccepted⟩, h⟩⟩

/-- A committed unit is reported as committed, or as unknown to another command. -/
theorem getCommitDisposition_of_committed {scope : ChronicleCommandScope ε σ κ}
    (hunit : scope.unit = some unit) (hcommitted : unit.disposition = .committed)
    (context : CommandContext) : (scope.getCommitDisposition context).eligible = false := by
  simp only [ChronicleCommandScope.getCommitDisposition, hunit, hcommitted]
  split_ifs with _ hnone
  · exact absurd hnone.1 (by decide)
  · rfl
  · rfl

end Commit

/-- The disposition of a unit is sound after its commit, unless the observers fail after the
batch is accepted. -/
theorem commit_disposition (unit : ChronicleUnitOfWork ε σ κ)
    (result : CommandResult ρ ValidationResult) (timeout : Option CompletionTimeout)
    (calls : CommitCalls) :
    (unit.commit result timeout calls).Sound calls ↔ ¬ ObserversFail unit result timeout calls := by
  constructor
  · intro hsound hfail
    have hcommit : unit.commit result timeout calls = unit.settle result timeout calls :=
      commit_of_issuing hfail.opened hfail.isSuccess hfail.nestedFailure hfail.staged
        hfail.notAborted
    have hissued : (unit.commit result timeout calls).issued = some unit.entries := by
      rw [hcommit]
      exact settle_issued
    obtain ⟨results, happend, haccepted⟩ := hfail.accepted
    have hwait := (observersFail_iff hissued happend haccepted).1 hfail
    have hcommitted := hsound.committed ⟨unit.entries, results, hissued, happend, haccepted⟩
    rw [hcommit, settle_accepted happend haccepted, if_neg hwait] at hcommitted
    exact absurd hcommitted (by decide)
  · intro hfail
    have hissuing : ∀ {batch}, (unit.commit result timeout calls).issued = some batch →
        unit.commit result timeout calls = unit.settle result timeout calls ∧
          batch = unit.entries := by
      intro batch hbatch
      obtain ⟨hopened, hsuccess, hnested, hstaged, haborted⟩ := commit_issued hbatch
      have hcommit : unit.commit result timeout calls = unit.settle result timeout calls :=
        commit_of_issuing hopened hsuccess hnested hstaged haborted
      rw [hcommit, settle_issued] at hbatch
      exact ⟨hcommit, (Option.some.inj hbatch).symm⟩
    have hcommitted : (unit.commit result timeout calls).Accepted calls →
        (unit.commit result timeout calls).unit.disposition = .committed := by
      rintro ⟨batch, results, hbatch, happend, haccepted⟩
      obtain ⟨hcommit, rfl⟩ := hissuing hbatch
      have hwait := not_not.1 fun h => hfail ((observersFail_iff hbatch happend haccepted).2 h)
      rw [hcommit, settle_accepted happend haccepted, if_pos hwait]
    have hunknown : (unit.commit result timeout calls).Lost calls →
        (unit.commit result timeout calls).unit.disposition = .unknown := by
      intro hlost
      obtain ⟨batch, hbatch, -⟩ := id hlost
      have hstaged := (commit_issued hbatch).2.2.2.1
      have hcommit := (hissuing hbatch).1
      rw [hcommit] at hlost ⊢
      exact settle_lost (unit.store_of_entries hstaged) hlost
    refine ⟨?_, hcommitted, hunknown, ?_⟩
    · rintro hdisposition ⟨batch, results, hbatch, happend, hacknowledged⟩
      cases hcheck : checkResults results batch.length with
      | error error =>
          have hlost := hunknown ⟨batch, hbatch, by rw [happend]; exact ⟨error, hcheck⟩⟩
          rw [hlost] at hdisposition
          exact absurd hdisposition (by decide)
      | ok outcome =>
          cases outcome with
          | none =>
              rw [hcommitted ⟨batch, results, hbatch, happend, hcheck⟩] at hdisposition
              exact absurd hdisposition (by decide)
          | some outcome => exact (checkResults_some hcheck).1 hacknowledged
    · intro haccepted scope hunit context journal failure source
      exact CommandOperationExecution.recover_log_of_not_eligible
        (getCommitDisposition_of_committed hunit (hcommitted haccepted) context)

/-- The unit of a command that staged one event. -/
def openedUnit : ChronicleUnitOfWork String ℕ String where
  context := { identity := 0, tenantId := "tenant", correlationId := "c1" }
  entries := ["AccountOpened"]
  store := some 0
  store_of_entries := fun _ => rfl
  disposition_of_open := noCommit_of_open

/-- The event is stored, and then a partition of an observer fails. -/
def failingObserver : CommitCalls where
  reason := .error "This operation was aborted"
  append := .returns [{ isSuccess := some true }]
  waiting := { race := .completed { isSuccess := false, failedPartitions := 1 } }

def openedResult : CommandResult Unit ValidationResult := commandResult "c1" {}

/-- The stored event is reported as not committed. -/
theorem observer_failure_uncommits :
    ¬ (openedUnit.commit openedResult (some (.integer 1000)) failingObserver).Sound
      failingObserver := by
  intro hsound
  have hcommitted := hsound.committed ⟨_, _, rfl, rfl, rfl⟩
  exact absurd hcommitted (by decide)

/-! ### The scope that reports the disposition -/

section Scope

variable [DecidableEq σ] [DecidableEq κ] {scope : ChronicleCommandScope ε σ κ}
variable {context : CommandContext} {result : CommandResult ρ ValidationResult}
variable {calls : CompleteCalls ε σ κ}

/-- A scope issues a batch by the commit of a unit, which it keeps. -/
theorem complete_commits {batch : List ε}
    (h : (scope.complete context result calls).issued = some batch) :
    ∃ unit : ChronicleUnitOfWork ε σ κ,
      (unit.commit result scope.completionTimeoutMs calls.commit).issued = some batch ∧
        (scope.complete context result calls).scope.unit =
          some (unit.commit result scope.completionTimeoutMs calls.commit).unit := by
  unfold ChronicleCommandScope.complete at h ⊢
  cases hunit : scope.unit with
  | none => simp [hunit] at h
  | some unit =>
      simp only [hunit] at h ⊢
      by_cases hcontext : unit.context ≠ context
      · rw [if_pos hcontext] at h
        exact nomatch h
      · rw [if_neg hcontext] at h ⊢
        generalize (if result.isSuccess then unit.enroll context calls.resolve calls.handle
          else (unit, none)) = enrolled at h ⊢
        obtain ⟨staged, thrown⟩ := enrolled
        cases thrown with
        | some error => exact nomatch h
        | none =>
            refine ⟨staged, ?_⟩
            simp only at h ⊢
            cases hanswer : (staged.commit result scope.completionTimeoutMs calls.commit).answer with
            | error error =>
                simp only [hanswer] at h
                exact ⟨h, rfl⟩
            | ok answer =>
                simp only [hanswer] at h
                exact ⟨h, rfl⟩

/-- A scope whose batch is accepted, and whose wait does not fail, reports nothing a recovery
could start from. -/
theorem complete_accepted {batch : List ε} {results : List AppendResult}
    (hissued : (scope.complete context result calls).issued = some batch)
    (happend : calls.commit.append = .returns results)
    (haccepted : checkResults results batch.length = .ok none)
    (hwait : waitForProjectionCompletion results scope.completionTimeoutMs
      calls.commit.waiting = none) (asking : CommandContext) :
    ((scope.complete context result calls).scope.getCommitDisposition asking).eligible = false := by
  obtain ⟨unit, hbatch, hunit⟩ := complete_commits hissued
  obtain ⟨hopened, hsuccess, hnested, hstaged, haborted⟩ := commit_issued hbatch
  have hcommit : unit.commit result scope.completionTimeoutMs calls.commit =
      unit.settle result scope.completionTimeoutMs calls.commit :=
    commit_of_issuing hopened hsuccess hnested hstaged haborted
  rw [hcommit, settle_issued] at hbatch
  obtain rfl := Option.some.inj hbatch
  refine getCommitDisposition_of_committed hunit ?_ asking
  rw [hcommit, settle_accepted happend haccepted, if_pos hwait]

end Scope

end Arc.Chronicle
