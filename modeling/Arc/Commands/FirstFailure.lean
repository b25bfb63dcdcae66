import Arc.Commands.CommandRun

/-!
# The first failure survives the completion of the scopes

Every scope that was begun is completed once, in reverse order, and the first
unsuccessful step is contained in the result that is returned. The latter is kept by a
snapshot which derives the success flag from the contents it has copied, so a scope
that only clears the flag is forgotten: `Command.Erases` says when.
-/

namespace Arc.Commands

variable {ρ ν : Type*}

/-- A scope that fails the command by the flag alone, without throwing. -/
def Completion.Silent (completion : Completion ρ ν) : Prop :=
  completion.thrown = none ∧ completion.leaves.Contentless

/-- A result with nothing to say is left silently. -/
theorem Completion.silent_of_outcome {correlationId : String} {completion : Completion ρ ν}
    (h : (completion.outcome correlationId).Contentless) : completion.Silent := by
  have hthrown := Completion.thrown_eq_none (Or.inr h)
  rw [Completion.outcome_of_none hthrown] at h
  exact ⟨hthrown, h⟩

variable [DecidableEq ν]

/-- What is promised of the failures of a command with a journal. -/
structure FirstFailureLaw (command : Command ρ ν) : Prop where
  completes : command.executeCommandOperation.log.filterMap CommandEvent.completed? =
    (command.executeCommandOperation.log.filterMap CommandEvent.began?).reverse
  once : (command.executeCommandOperation.log.filterMap CommandEvent.began?).Nodup
  survives : command.executeCommandOperation.planned.isSome → ∀ first,
    firstFailure command.executeCommandOperation.steps = some first →
      command.executeCommandOperation.result.isSuccess = false ∧
        command.executeCommandOperation.result.Contains first
  certain : command.executeCommandOperation.planned.isSome →
    (Command.commit command.report).uncertain = true →
      command.executeCommandOperation.result.isSuccess = false

/-- The first step to fail is a scope that only clears the flag, the last scope says nothing
against the command either, and what follows finds nothing wrong. -/
structure Command.Erases (command : Command ρ ν) : Prop where
  executes : command.Executes
  untroubled : ∃ planned, command.Untroubled planned
  first : ∃ first, command.executeCommandOperation.completions.find? (!·.clean) = some first ∧
    first.Silent
  last : ∃ last, command.executeCommandOperation.completions.getLast? = some last ∧ last.Silent
  output : ∃ response, command.clientOutput none = .ok response
  certain : ∃ disposition, command.report = .ok disposition ∧ disposition.uncertain = false

namespace Command

variable {command : Command ρ ν} {journal : CommandOperationExecution ν}

theorem scopes_completed (command : Command ρ ν) :
    command.executeCommandOperation.log.filterMap CommandEvent.completed? =
        (command.executeCommandOperation.log.filterMap CommandEvent.began?).reverse ∧
      (command.executeCommandOperation.log.filterMap CommandEvent.began?).Nodup := by
  by_cases hexecutes : command.Executes
  · rw [run_completed hexecutes, run_began hexecutes]
    exact ⟨rfl, command.handle_nodup⟩
  · rw [(run_of_not_executes hexecutes).2]
    exact ⟨rfl, List.nodup_nil⟩

/-- What a run is, if it plans operations. -/
theorem journal_of_planned (h : command.executeCommandOperation.planned.isSome) :
    command.Executes ∧ ∃ journal, command.attempted.journal = some journal := by
  by_cases hexecutes : command.Executes
  · cases hjournal : command.attempted.journal with
    | none =>
        rw [(run_of_no_journal hexecutes hjournal).1] at h
        simp at h
    | some journal => exact ⟨hexecutes, journal, rfl⟩
  · rw [(run_of_not_executes hexecutes).1] at h
    simp at h

/-- The result of a run is the final one with the recovery beside it. -/
theorem run_result (hexecutes : command.Executes)
    (hjournal : command.attempted.journal = some journal) :
    command.executeCommandOperation.result.isSuccess = command.final.result.isSuccess ∧
      command.executeCommandOperation.result.Contains command.final.result := by
  rw [run_of_journal hexecutes hjournal]
  unfold withhold
  split_ifs
  · exact ⟨rfl, ⟨id, fun _ h => h, fun _ h => h⟩⟩
  · exact ⟨rfl, ⟨id, fun _ h => h, fun _ h => h⟩⟩

/-- The first failure of a run is in its final result. -/
theorem final_contains (hjournal : command.attempted.journal = some journal)
    {first : CommandResult ρ ν} (hfirst : firstFailure command.steps = some first) :
    command.final.result.Contains first := by
  have hkeeps := final_keeps (attempted_keeps hjournal)
  rw [Keeps, hfirst] at hkeeps
  obtain ⟨original, horiginal, hsame⟩ := hkeeps
  exact (final_merged original horiginal).1.trans hsame.1

/-- The first failure of a successful run says nothing, and neither do the scopes in the
end. -/
theorem silent_of_success (hjournal : command.attempted.journal = some journal)
    {first : CommandResult ρ ν} (hfirst : firstFailure command.steps = some first)
    (hsuccess : command.final.result.isSuccess = true) :
    first.Contentless ∧ command.completed.result.Contentless ∧
      command.completed.restored.result.response = none := by
  obtain ⟨hrestored, -, -⟩ := final_isSuccess_iff.1 hsuccess
  have hkeeps := completed_keeps (attempted_keeps hjournal)
  rw [Keeps, ← firstFailure_of_success hsuccess, hfirst] at hkeeps
  obtain ⟨original, horiginal, hsame⟩ := hkeeps
  have hcontentless := (CommandFailureSnapshot.restore_isSuccess_iff horiginal).1 hrestored
  have hempty : original.Contentless :=
    (CommandFailureSnapshot.restore_contains horiginal).contentless hcontentless
  exact ⟨hsame.contentless_iff.1 hempty,
    (CommandFailureSnapshot.restore_contentless_iff horiginal hempty).1 hcontentless,
    CommandFailureSnapshot.restore_response horiginal⟩

/-- A run whose first failure is lost erases it in its scopes. -/
theorem erases_of_success (hexecutes : command.Executes)
    (hjournal : command.attempted.journal = some journal) {first : CommandResult ρ ν}
    (hfirst : firstFailure command.steps = some first)
    (hsuccess : command.final.result.isSuccess = true) : command.Erases := by
  obtain ⟨hsilent, hresult, hresponse⟩ := silent_of_success hjournal hfirst hsuccess
  obtain ⟨-, houtput, hcertain⟩ := final_isSuccess_iff.1 hsuccess
  rw [firstFailure_of_success hsuccess] at hfirst
  rcases command.attempted_cases with ⟨hnone, -⟩ | hfailed | ⟨planned, huntroubled, hsucceeded⟩
  · rw [hnone] at hjournal
    simp at hjournal
  · have hattempt : first = command.attempted.result := by
      rw [firstFailure, Completing.steps, List.find?_cons, hfailed.isSuccess] at hfirst
      exact (Option.some.inj hfirst).symm
    exact absurd (hattempt ▸ hsilent) hfailed.not_contentless
  · rw [firstFailure_completed hsucceeded.isSuccess] at hfirst
    obtain ⟨completion, hfind, rfl⟩ := Option.map_eq_some_iff.1 hfirst
    have hnonempty : command.completed.completions ≠ [] := by
      intro hempty
      rw [hempty] at hfind
      simp at hfind
    have hlast := List.getLast?_eq_some_getLast hnonempty
    rw [completed_last hlast] at hresult
    refine ⟨hexecutes, ⟨planned, huntroubled⟩, ?_, ?_, hresponse ▸ houtput, hcertain⟩
    · rw [run_of_journal hexecutes hjournal]
      exact ⟨completion, hfind, Completion.silent_of_outcome hsilent⟩
    · rw [run_of_journal hexecutes hjournal]
      exact ⟨_, hlast, Completion.silent_of_outcome hresult⟩

/-- A run that erases its first failure succeeds after one. -/
theorem Erases.lost (h : command.Erases) :
    ∃ journal first, command.attempted.journal = some journal ∧
      firstFailure command.steps = some first ∧ command.final.result.isSuccess = true := by
  obtain ⟨planned, huntroubled⟩ := h.untroubled
  have hsucceeded := huntroubled.succeeded
  obtain ⟨journal, hjournal, -⟩ := hsucceeded.journal
  obtain ⟨first, hfind, hthrown, hsilent⟩ := h.first
  obtain ⟨last, hlast, hlastThrown, hlastSilent⟩ := h.last
  rw [run_of_journal h.executes hjournal] at hfind hlast
  have hfirst : firstFailure (command.completed.steps command.attempted.result) =
      some first.leaves := by
    rw [firstFailure_completed hsucceeded.isSuccess, hfind, Option.map_some,
      Completion.outcome_of_none hthrown]
  have hkeeps := completed_keeps hsucceeded.keeps
  rw [Keeps, hfirst] at hkeeps
  obtain ⟨original, horiginal, hsame⟩ := hkeeps
  have hresult : command.completed.result.Contentless := by
    rw [completed_last hlast, Completion.outcome_of_none hlastThrown]
    exact hlastSilent
  have hrestored : command.completed.restored.result.isSuccess = true :=
    (CommandFailureSnapshot.restore_isSuccess_iff horiginal).2
      ((CommandFailureSnapshot.restore_contentless_iff horiginal
        (hsame.contentless_iff.2 hsilent)).2 hresult)
  have hsuccess : command.final.result.isSuccess = true := by
    refine final_isSuccess_iff.2 ⟨hrestored, ?_, h.certain⟩
    rw [show command.completed.restored.result.response = none from
      CommandFailureSnapshot.restore_response horiginal]
    exact h.output
  exact ⟨journal, first.leaves, hjournal, (firstFailure_of_success hsuccess).trans hfirst,
    hsuccess⟩

end Command

/-- The first failure of a command with a journal survives the completion of its scopes, unless
it is erased in them. -/
theorem first_failure_survives (command : Command ρ ν) :
    FirstFailureLaw command ↔ ¬ command.Erases := by
  constructor
  · intro hlaw herases
    obtain ⟨journal, first, hjournal, hfirst, hsuccess⟩ := herases.lost
    have hrun := Command.run_of_journal herases.executes hjournal
    have hplanned : command.executeCommandOperation.planned.isSome := by
      rw [hrun]
      rfl
    have hsteps : firstFailure command.executeCommandOperation.steps = some first := by
      rw [hrun]
      exact hfirst
    have hfailed := (hlaw.survives hplanned first hsteps).1
    rw [(Command.run_result herases.executes hjournal).1, hsuccess] at hfailed
    exact absurd hfailed (by decide)
  · intro hkept
    obtain ⟨hcompletes, honce⟩ := command.scopes_completed
    refine ⟨hcompletes, honce, fun hplanned first hfirst => ?_, fun hplanned huncertain => ?_⟩
    · obtain ⟨hexecutes, journal, hjournal⟩ := Command.journal_of_planned hplanned
      obtain ⟨hsame, hcontains⟩ := Command.run_result hexecutes hjournal
      rw [Command.run_of_journal hexecutes hjournal] at hfirst
      refine ⟨?_, hcontains.trans (Command.final_contains hjournal hfirst)⟩
      rw [hsame, ← Bool.not_eq_true]
      exact fun hsuccess =>
        hkept (Command.erases_of_success hexecutes hjournal hfirst hsuccess)
    · obtain ⟨hexecutes, journal, hjournal⟩ := Command.journal_of_planned hplanned
      rw [(Command.run_result hexecutes hjournal).1, ← Bool.not_eq_true]
      intro hsuccess
      have hcertain := (Command.refuseUncertain_isSuccess_iff.1 hsuccess).2
      rw [huncertain] at hcertain
      exact absurd hcertain (by decide)

/-- A command with one operation and a scope that clears the success flag. -/
def flagClearingCommand : Command String String where
  correlationId := "c1"
  reason := .error "Command canceled"
  scopes := [{ complete := fun result => { leaves := { result with isSuccess := false } } }]
  handled := .prepared {} (some [{ operationType := "ReserveStock" }])

/-- Its result is successful. -/
theorem cleared_flag_succeeds : ¬ FirstFailureLaw flagClearingCommand := by
  intro hlaw
  have hfailed := (hlaw.survives rfl _ rfl).1
  exact absurd hfailed (by decide)

end Arc.Commands
