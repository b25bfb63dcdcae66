import Arc.Commands.CommandRun
import Mathlib.Data.List.Nodup

/-!
# The compensation law of command operations

The recovery is asked for when there are failure messages, success is a flag on the
result. The two agree unless the scopes leave a successful result with exception
messages in it (`Command.RecoversSuccess`), and while they agree the calls of the
recovery obey the law: `CompensationLaw` states it about the log of a run.
-/

namespace Arc.Commands

variable {ρ ν : Type*}

/-- The status of a summary fits the result and the counts beside it. -/
def CommandRecoverySummary.StatusFits (summary : CommandRecoverySummary) (isSuccess : Bool) :
    Prop :=
  match summary.status with
  | .notNeeded => isSuccess = true ∨ summary.startedCount = 0
  | .completed => isSuccess = false ∧ summary.startedCount ≠ 0 ∧
      summary.commitDisposition.eligible = true ∧ summary.compensatedCount = summary.startedCount
  | .incomplete => isSuccess = false ∧ summary.startedCount ≠ 0 ∧
      summary.commitDisposition.eligible = true ∧ summary.compensatedCount ≠ summary.startedCount
  | .suppressed => isSuccess = false ∧ summary.startedCount ≠ 0 ∧
      summary.commitDisposition = .committed
  | .indeterminate => isSuccess = false ∧ summary.startedCount ≠ 0 ∧
      summary.commitDisposition.uncertain = true

/-- A summary agrees with the log of a run, its result and the disposition that counts. -/
structure CommandRecoverySummary.Agrees (summary : CommandRecoverySummary)
    (disposition : CommandCommitDisposition) (run : Run ρ ν) : Prop where
  commitDisposition : summary.commitDisposition = disposition
  started : summary.startedCount = (run.log.filterMap CommandEvent.entry?).length
  completed : summary.completedCount = run.log.countP CommandEvent.isExecuted
  compensated : summary.compensatedCount = run.log.countP (CommandEvent.settledAs .inTime)
  failed : summary.failedCompensationCount = run.log.countP (CommandEvent.settledAs .threw)
  uncompensated : summary.uncompensatedCount =
    if run.result.isSuccess then 0 else summary.startedCount - summary.compensatedCount
  status : summary.StatusFits run.result.isSuccess

/-- The scopes report that nothing is committed. -/
def Command.Recoverable (command : Command ρ ν) : Prop :=
  ∃ disposition, command.report = .ok disposition ∧ disposition.eligible = true

/-! ### Failure messages and success -/

/-- A standing whose result succeeds and still has messages, with no failure kept. -/
structure Standing.Loud (standing : Standing ρ ν) : Prop where
  original : standing.snapshot.original = none
  isSuccess : standing.result.isSuccess = true
  messages : standing.result.exceptionMessages ≠ []

/-- Unless a standing is loud, there are failure messages exactly when the result fails. -/
theorem failureMessages_isEmpty {standing : Standing ρ ν} (hmerged : standing.Merged)
    (hloud : ¬ standing.Loud) :
    (Command.failureMessages standing).isEmpty = standing.result.isSuccess := by
  unfold Command.failureMessages
  cases hsuccess : standing.result.isSuccess with
  | false =>
      simp only [Bool.not_false, Bool.true_and]
      split_ifs with hmessages
      · rfl
      · simpa using hmessages
  | true =>
      simp only [Bool.not_true, Bool.false_and, Bool.false_eq_true, if_false]
      rw [List.isEmpty_iff]
      cases horiginal : standing.snapshot.original with
      | none => exact by_contra fun hmessages => hloud ⟨horiginal, hsuccess, hmessages⟩
      | some original =>
          obtain ⟨hcontains, hcontentless⟩ := hmerged original horiginal
          exact (hcontains.contentless (hcontentless hsuccess)).exceptionMessages

/-- A loud standing has failure messages. -/
theorem Standing.Loud.failureMessages {standing : Standing ρ ν} (h : standing.Loud) :
    (Command.failureMessages standing).isEmpty = false := by
  rw [Command.failureMessages, h.original, h.isSuccess]
  simpa using h.messages

/-- A disposition that allows a recovery was reported. -/
theorem Command.recoverable_iff {command : Command ρ ν} : (Command.commit command.report).eligible = true ↔ command.Recoverable := by
  unfold Command.Recoverable
  cases command.report with
  | ok disposition => simp [Command.commit]
  | error error => simp [Command.commit, CommandCommitDisposition.eligible]

/-- A history without compensations is ordered. -/
theorem ordered_of_no_compensation {log : List CommandEvent}
    (h : ∀ failure, .compensating failure ∉ log) : History.Ordered CommandEvent.Allowed log := by
  rintro before event after rfl
  cases event with
  | compensating failure => exact absurd (by simp) (h failure)
  | _ => trivial

variable [DecidableEq ν]

/-- What is promised of the compensations of a command. -/
structure CompensationLaw (command : Command ρ ν) : Prop where
  once : (command.executeCommandOperation.log.filterMap CommandEvent.compensation?).Nodup
  onlyFailed : ∀ index ∈ command.executeCommandOperation.log.filterMap CommandEvent.compensation?,
    command.executeCommandOperation.result.isSuccess = false ∧ command.Recoverable
  reversed : (command.executeCommandOperation.log.filterMap CommandEvent.compensation?).Sublist
    (command.executeCommandOperation.log.filterMap CommandEvent.entry?).reverse
  settled : History.Ordered CommandEvent.Allowed command.executeCommandOperation.log
  reached : ∀ planned index operation, command.executeCommandOperation.planned = some planned →
    command.executeCommandOperation.result.isSuccess = false → command.Recoverable →
    index ∈ command.executeCommandOperation.log.filterMap CommandEvent.entry? →
    planned[index]? = some operation → operation.compensate.isSome →
      index ∈ command.executeCommandOperation.log.filterMap CommandEvent.compensation? ∨
        ∃ later spent call, index < later ∧
          later ∈ command.executeCommandOperation.log.filterMap CommandEvent.compensation? ∧
          planned[later]? = some spent ∧ spent.compensate = some call ∧ call.outlasts = true
  summary : command.executeCommandOperation.planned.isSome → ∃ summary,
    command.executeCommandOperation.result.recovery = some summary ∧
      summary.Agrees (Command.commit command.report) command.executeCommandOperation

/-- Every step succeeds, but the last scope leaves exception messages in the result, and what
follows finds nothing wrong. -/
structure Command.RecoversSuccess (command : Command ρ ν) : Prop where
  executes : command.Executes
  untroubled : ∃ planned, planned ≠ [] ∧ command.Untroubled planned
  clean : ∀ completion ∈ command.executeCommandOperation.completions, completion.clean = true
  messages : ∃ last, command.executeCommandOperation.completions.getLast? = some last ∧
    last.leaves.exceptionMessages ≠ [] ∧
    ∃ response, command.clientOutput last.leaves.response = .ok response
  certain : ∃ disposition, command.report = .ok disposition ∧ disposition.uncertain = false

namespace Command

variable {command : Command ρ ν} {journal : CommandOperationExecution ν}

/-! ### The calls of a recovery -/

theorem recoveryLog_of_journal (hjournal : command.attempted.journal = some journal) :
    command.recoveryLog = (journal.unwind (commit command.report)
      (failureMessages command.final) command.completed.source).2 := by
  rw [recoveryLog, hjournal]
  rfl

/-- A recovery calls nothing, or it unwinds the entries after a failure, with nothing
committed. -/
theorem recoveryLog_cases (hjournal : command.attempted.journal = some journal) :
    command.recoveryLog = [] ∨
      ((failureMessages command.final).isEmpty = false ∧ command.Recoverable ∧
        command.recoveryLog = (compensate (journal.detail (commit command.report)
          (failureMessages command.final) command.completed.source) false journal.entries).2) := by
  rw [recoveryLog_of_journal hjournal, CommandOperationExecution.unwind]
  split_ifs with hempty heligible
  · exact Or.inl rfl
  · exact Or.inr ⟨Bool.eq_false_iff.2 hempty, recoverable_iff.1 heligible, rfl⟩
  · exact Or.inl rfl

theorem recoveryLog_of_recoverable (hjournal : command.attempted.journal = some journal)
    (hfailed : (failureMessages command.final).isEmpty = false) (h : command.Recoverable) :
    command.recoveryLog = (compensate (journal.detail (commit command.report)
      (failureMessages command.final) command.completed.source) false journal.entries).2 := by
  rw [recoveryLog_of_journal hjournal, CommandOperationExecution.unwind, hfailed,
    recoverable_iff.2 h]
  rfl

/-- Compensations are called in the reverse of the order of entry. -/
theorem recoveryLog_sublist (hjournal : command.attempted.journal = some journal) :
    (command.recoveryLog.filterMap CommandEvent.compensation?).Sublist
      (command.attempted.log.filterMap CommandEvent.entry?).reverse := by
  have hentered := attempted_entered hjournal
  rcases recoveryLog_cases hjournal with hnone | ⟨-, -, hcalls⟩
  · rw [hnone]
    exact List.nil_sublist _
  · rw [hcalls, hentered.entered, ← hentered.entries_indices]
    exact compensate_sublist fun _ => rfl

/-- The rule about compensations holds along every run. -/
theorem run_ordered (hexecutes : command.Executes) :
    History.Ordered CommandEvent.Allowed command.executeCommandOperation.log := by
  have hbefore : ∀ failure, CommandEvent.compensating failure ∉
      command.handle.1.map (.began ·.2) ++ command.attempted.log ++
        command.handle.1.reverse.map (.completed ·.2) := by
    intro failure hmem
    rcases List.mem_append.1 hmem with hmem | hmem
    · rcases List.mem_append.1 hmem with hmem | hmem
      · simp at hmem
      · obtain ⟨index, h | h⟩ := mem_attempted_log hmem
        · simp at h
        · simp at h
    · simp at hmem
  have hordered := ordered_of_no_compensation hbefore
  rw [run_log hexecutes]
  cases hjournal : command.attempted.journal with
  | none =>
      rw [recoveryLog, hjournal, Option.elim_none, List.append_nil]
      exact hordered
  | some journal =>
      rcases recoveryLog_cases hjournal with hnone | ⟨-, -, hcalls⟩
      · rw [hnone, List.append_nil]
        exact hordered
      · rw [hcalls]
        have hentered := attempted_entered hjournal
        refine compensate_ordered (fun _ => rfl) hordered hentered.entries_pairwise
          (fun pair hpair => ?_) fun failure hfailure => absurd hfailure (hbefore failure)
        have hindex : pair.1.invocationIndex ∈
            command.attempted.log.filterMap CommandEvent.entry? := by
          rw [hentered.entered, ← List.mem_reverse, ← hentered.entries_indices]
          exact List.mem_map_of_mem hpair
        obtain ⟨event, hevent, hentry⟩ := List.mem_filterMap.1 hindex
        have hsame : event = .entered pair.1.invocationIndex := by
          obtain ⟨index, rfl | rfl⟩ := mem_attempted_log hevent
          · exact congrArg CommandEvent.entered (Option.some.inj hentry)
          · simp [CommandEvent.entry?] at hentry
        rw [hsame] at hevent
        simp [hevent]

/-- After a failure, with nothing committed, a declared compensation of an entered operation
is called unless one that was called before outlasted the budget. -/
theorem recoveryLog_reaches (hjournal : command.attempted.journal = some journal)
    (hfailed : (failureMessages command.final).isEmpty = false) (hrecoverable : command.Recoverable)
    {index : ℕ} {operation : PlannedOperation ν}
    (hindex : index ∈ command.attempted.log.filterMap CommandEvent.entry?)
    (hplanned : journal.planned[index]? = some operation)
    (hdeclares : operation.compensate.isSome) :
    index ∈ command.recoveryLog.filterMap CommandEvent.compensation? ∨
      ∃ later spent call, index < later ∧
        later ∈ command.recoveryLog.filterMap CommandEvent.compensation? ∧
        journal.planned[later]? = some spent ∧ spent.compensate = some call ∧
        call.outlasts = true := by
  have hentered := attempted_entered hjournal
  rw [hentered.entered, List.mem_range'_1] at hindex
  obtain ⟨outcome, hmem, rfl⟩ :=
    hentered.mem_entries_iff.2 ⟨by simpa using hindex.2, hplanned⟩
  rw [recoveryLog_of_recoverable hjournal hfailed hrecoverable]
  have hreaches := @compensate_reaches ν (journal.detail (commit command.report)
    (failureMessages command.final) command.completed.source) false journal.entries
    (fun _ => rfl) outcome operation hentered.entries_pairwise hmem hdeclares
  rcases hreaches with
    hcalled | hexpired | ⟨spent, hspent, hlt, hcalled, call, hcall, houtlasts⟩
  · exact Or.inl hcalled
  · exact absurd hexpired Bool.false_ne_true
  · exact Or.inr ⟨_, spent.2, call, hlt, hcalled,
      (hentered.mem_entries_iff.1 ⟨spent.1, hspent, rfl⟩).2, hcall, houtlasts⟩

/-! ### The summary -/

theorem status_fits {summary : CommandRecoverySummary} {failure : List String} {isSuccess : Bool}
    (hstatus : summary.status = CommandOperationExecution.status summary.commitDisposition failure
      summary.startedCount summary.compensatedCount)
    (hagree : failure.isEmpty = isSuccess ∨ summary.startedCount = 0) :
    summary.StatusFits isSuccess := by
  unfold CommandRecoverySummary.StatusFits
  rw [hstatus, CommandOperationExecution.status]
  by_cases hnone : summary.startedCount = 0
  · simp [hnone]
  · obtain rfl : failure.isEmpty = isSuccess := hagree.resolve_right hnone
    cases hempty : failure.isEmpty with
    | true => simp
    | false =>
        cases hdisposition : summary.commitDisposition with
        | noCommit =>
            by_cases hall : summary.compensatedCount = summary.startedCount
            · simp [CommandCommitDisposition.eligible, hall, hnone]
            · simp [CommandCommitDisposition.eligible, hall, hnone]
        | notCommitted =>
            by_cases hall : summary.compensatedCount = summary.startedCount
            · simp [CommandCommitDisposition.eligible, hall, hnone]
            · simp [CommandCommitDisposition.eligible, hall, hnone]
        | committed => simp [CommandCommitDisposition.eligible, hnone]
        | unknown =>
            simp [CommandCommitDisposition.eligible, CommandCommitDisposition.uncertain, hnone]
        | mixed =>
            simp [CommandCommitDisposition.eligible, CommandCommitDisposition.uncertain, hnone]

theorem run_recovery (hexecutes : command.Executes)
    (hjournal : command.attempted.journal = some journal) :
    command.executeCommandOperation.result.recovery = some (command.recovery journal).summary ∧
      command.executeCommandOperation.result.isSuccess = command.final.result.isSuccess := by
  rw [run_of_journal hexecutes hjournal]
  unfold withhold
  split_ifs
  · exact ⟨rfl, rfl⟩
  · exact ⟨rfl, rfl⟩

/-- While failure messages and success agree, the summary agrees with the run. -/
theorem recovery_agrees (hexecutes : command.Executes)
    (hjournal : command.attempted.journal = some journal)
    (hagree : (failureMessages command.final).isEmpty = command.final.result.isSuccess ∨
      journal.outcomes = []) :
    (command.recovery journal).summary.Agrees (commit command.report)
      command.executeCommandOperation := by
  have hentered := attempted_entered hjournal
  have hstarted : (command.recovery journal).summary.startedCount = journal.outcomes.length :=
    CommandOperationExecution.unwind_length hentered
  have hnone : journal.outcomes = [] → (command.recovery journal).summary.startedCount = 0 :=
    fun h => by rw [hstarted, h, List.length_nil]
  have hsuccess := (run_recovery hexecutes hjournal).2
  refine ⟨rfl, ?_, ?_, ?_, ?_, ?_, ?_⟩
  · rw [hstarted, run_entered hexecutes, hentered.entered, List.length_range']
  · rw [run_executed hexecutes, hentered.executed]
    exact CommandOperationExecution.unwind_executed hentered
  · rw [run_settled hexecutes, recoveryLog_of_journal hjournal]
    exact CommandOperationExecution.unwind_count hentered (by decide) (by decide) (by decide)
      (by decide) settle_completed
  · rw [run_settled hexecutes, recoveryLog_of_journal hjournal]
    exact CommandOperationExecution.unwind_count hentered (by decide) (by decide) (by decide)
      (by decide) settle_failed
  · rw [hsuccess]
    have huncompensated : (command.recovery journal).summary.uncompensatedCount =
        if (failureMessages command.final).isEmpty then 0
        else (command.recovery journal).summary.startedCount -
          (command.recovery journal).summary.compensatedCount := rfl
    rw [huncompensated]
    rcases hagree with hagree | hempty
    · rw [hagree]
    · rw [hnone hempty, Nat.zero_sub, ite_self, ite_self]
  · rw [hsuccess]
    exact status_fits rfl (hagree.imp_right hnone)

/-! ### The law -/

/-- A run that plans nothing and compensates nothing keeps the law. -/
theorem compensationLaw_of_not_planned (hplanned : command.executeCommandOperation.planned = none)
    (hnone : command.executeCommandOperation.log.filterMap CommandEvent.compensation? = [])
    (hordered : History.Ordered CommandEvent.Allowed command.executeCommandOperation.log) :
    CompensationLaw command := by
  refine ⟨?_, ?_, ?_, hordered, ?_, ?_⟩
  · rw [hnone]
    exact List.nodup_nil
  · rw [hnone]
    simp
  · rw [hnone]
    exact List.nil_sublist _
  · intro planned index operation hsome
    exact nomatch hplanned.symm.trans hsome
  · rw [hplanned]
    simp

/-- The law holds of a run with a journal while failure messages and success agree. -/
theorem compensationLaw_of_journal (hexecutes : command.Executes)
    (hjournal : command.attempted.journal = some journal)
    (hagree : (failureMessages command.final).isEmpty = command.final.result.isSuccess ∨
      journal.outcomes = []) : CompensationLaw command := by
  have hentered := attempted_entered hjournal
  obtain ⟨hrecovery, hsuccess⟩ := run_recovery hexecutes hjournal
  have hplanned : command.executeCommandOperation.planned = some journal.planned := by
    rw [run_of_journal hexecutes hjournal]
  have hsub : (command.executeCommandOperation.log.filterMap CommandEvent.compensation?).Sublist
      (command.executeCommandOperation.log.filterMap CommandEvent.entry?).reverse := by
    rw [run_compensations hexecutes, run_entered hexecutes]
    exact recoveryLog_sublist hjournal
  -- an entered operation is at hand wherever the agreement is needed
  have hagrees : ∀ index ∈ command.executeCommandOperation.log.filterMap CommandEvent.entry?,
      (failureMessages command.final).isEmpty = command.executeCommandOperation.result.isSuccess := by
    intro index hindex
    rw [hsuccess]
    refine hagree.resolve_right fun hnone => ?_
    rw [run_entered hexecutes, hentered.entered, hnone] at hindex
    simp at hindex
  refine ⟨?_, fun index hindex => ?_, hsub, run_ordered hexecutes, ?_,
    fun _ => ⟨_, hrecovery, recovery_agrees hexecutes hjournal hagree⟩⟩
  · refine hsub.nodup (List.nodup_reverse.2 ?_)
    rw [run_entered hexecutes, hentered.entered]
    exact List.nodup_range'
  · have hlog : command.recoveryLog ≠ [] := by
      intro hnone
      rw [run_compensations hexecutes, hnone] at hindex
      simp at hindex
    obtain ⟨hfailed, hrecoverable, -⟩ := (recoveryLog_cases hjournal).resolve_left hlog
    rw [← hagrees index (List.mem_reverse.1 (hsub.subset hindex))]
    exact ⟨hfailed, hrecoverable⟩
  · intro planned index operation hsome hfailed hrecoverable hindex hget hdeclares
    obtain rfl : journal.planned = planned := Option.some.inj (hplanned.symm.trans hsome)
    have hmessages := (hagrees index hindex).trans hfailed
    rw [run_entered hexecutes] at hindex
    rw [run_compensations hexecutes]
    exact recoveryLog_reaches hjournal hmessages hrecoverable hindex hget hdeclares

theorem compensationLaw_of_agree (hagree : command.Executes → ∀ journal,
      command.attempted.journal = some journal →
        (failureMessages command.final).isEmpty = command.final.result.isSuccess ∨
          journal.outcomes = []) : CompensationLaw command := by
  by_cases hexecutes : command.Executes
  · cases hjournal : command.attempted.journal with
    | none =>
        refine compensationLaw_of_not_planned (run_of_no_journal hexecutes hjournal).1 ?_
          (run_ordered hexecutes)
        rw [run_compensations hexecutes, recoveryLog, hjournal]
        rfl
    | some journal =>
        exact compensationLaw_of_journal hexecutes hjournal (hagree hexecutes journal hjournal)
  · obtain ⟨hplanned, hlog⟩ := run_of_not_executes hexecutes
    refine compensationLaw_of_not_planned hplanned ?_ ?_
    · rw [hlog]
      rfl
    · rw [hlog]
      exact History.ordered_nil

/-! ### Where failure messages and success disagree -/

/-- While every scope is clean, the result they leave is the one the last of them leaves. -/
theorem completed_clean (hclean : ∀ completion ∈ command.completed.completions,
      completion.clean = true) {last : Completion ρ ν}
    (hlast : command.completed.completions.getLast? = some last) :
    command.completed.result = last.leaves := by
  have hthrown : last.thrown = none := by
    have hclean := hclean last (List.mem_of_getLast? hlast)
    rw [Completion.clean, Bool.and_eq_true, Option.isNone_iff_eq_none] at hclean
    exact hclean.1
  rw [completed_last hlast, Completion.outcome_of_none hthrown]

/-- A successful run with nothing kept returns what its scopes leave. -/
theorem final_of_success (hsuccess : command.final.result.isSuccess = true)
    (hnone : command.completed.snapshot.original = none) :
    command.final.snapshot.original = none ∧
      command.final.result.exceptionMessages = command.completed.result.exceptionMessages ∧
      command.completed.restored.result = command.completed.result := by
  have hread := (refuseUncertain_isSuccess_iff.1 hsuccess).1
  have hchecked := (readDisposition_isSuccess_iff.1 hread).1
  have hfinal : command.final = command.checked := by
    rw [final, refuseUncertain_of_success hsuccess]
    exact readDisposition_of_success hread
  have hrestored : command.completed.restored.result = command.completed.result :=
    CommandFailureSnapshot.restore_of_none hnone
  obtain ⟨hsnapshot, hmessages⟩ := assertOutput_of_success hchecked
  rw [hfinal, checked, hsnapshot, hmessages, hrestored]
  exact ⟨hnone, rfl, rfl⟩

/-- A loud run with an entered operation recovers although it succeeds. -/
theorem recoversSuccess_of_loud (hexecutes : command.Executes)
    (hjournal : command.attempted.journal = some journal) (hloud : command.final.Loud)
    (hentered : journal.outcomes ≠ []) : command.RecoversSuccess := by
  obtain ⟨horiginal, hsuccess, hmessages⟩ := hloud
  have hkeeps := attempted_keeps hjournal
  have hsteps := firstFailure_eq_none_iff.2 ((final_keeps hkeeps).original_eq_none_iff.1 horiginal)
  rw [firstFailure_of_success hsuccess] at hsteps
  have hall := firstFailure_eq_none_iff.1 hsteps
  have hkept := (completed_keeps hkeeps).original_eq_none_iff.2 hall
  obtain ⟨-, hsame, hrestored⟩ := final_of_success hsuccess hkept
  obtain ⟨-, houtput, hcertain⟩ := final_isSuccess_iff.1 hsuccess
  rw [hsame] at hmessages
  rw [hrestored] at houtput
  have hattempted : command.attempted.result.isSuccess = true := hall _ (List.mem_cons_self ..)
  rcases command.attempted_cases with ⟨hnone, -⟩ | hfailed | ⟨planned, huntroubled, hsucceeded⟩
  · exact nomatch hnone.symm.trans hjournal
  · rw [hfailed.isSuccess] at hattempted
    exact absurd hattempted (by decide)
  · have hplanned : planned ≠ [] := by
      obtain ⟨same, hsome, rfl, -⟩ := hsucceeded.journal
      obtain rfl : same = journal := Option.some.inj (hsome.symm.trans hjournal)
      have hle := (command.attempted_entered hjournal).length_le
      exact fun hnil => hentered (List.length_eq_zero_iff.1 (by simpa [hnil] using hle))
    rw [firstFailure_completed hattempted, Option.map_eq_none_iff, List.find?_eq_none] at hsteps
    have hclean : ∀ completion ∈ command.completed.completions, completion.clean = true :=
      fun completion hcompletion => by simpa using hsteps completion hcompletion
    cases hlast : command.completed.completions.getLast? with
    | none =>
        have hresult := command.completed_result
        rw [Completing.steps, List.getLast?_eq_none_iff.1 hlast] at hresult
        rw [← Option.some.inj hresult] at hmessages
        exact absurd hsucceeded.contentless.exceptionMessages hmessages
    | some last =>
        rw [completed_clean hclean hlast] at hmessages houtput
        have hrun := run_of_journal hexecutes hjournal
        refine ⟨hexecutes, ⟨planned, hplanned, huntroubled⟩, ?_, ?_, hcertain⟩
        · rw [hrun]
          exact hclean
        · rw [hrun]
          exact ⟨last, hlast, hmessages, houtput⟩

/-- A run that recovers although it succeeds is loud, with an entered operation. -/
theorem RecoversSuccess.loud (h : command.RecoversSuccess) :
    ∃ journal, command.attempted.journal = some journal ∧ command.final.Loud ∧
      journal.outcomes ≠ [] := by
  obtain ⟨planned, hplanned, huntroubled⟩ := h.untroubled
  have hsucceeded := huntroubled.succeeded
  obtain ⟨journal, hjournal, -, houtcomes⟩ := hsucceeded.journal
  obtain ⟨last, hlast, hmessages, houtput⟩ := h.messages
  have hclean := h.clean
  rw [run_of_journal h.executes hjournal] at hlast hclean
  have hresult := completed_clean hclean hlast
  have hsteps : firstFailure (command.completed.steps command.attempted.result) = none := by
    rw [firstFailure_completed hsucceeded.isSuccess, Option.map_eq_none_iff, List.find?_eq_none]
    exact fun completion hcompletion => by simpa using hclean completion hcompletion
  have hkept := (completed_keeps hsucceeded.keeps).original_eq_none_iff.2
    (firstFailure_eq_none_iff.1 hsteps)
  have hrestored : command.completed.restored.result = command.completed.result :=
    CommandFailureSnapshot.restore_of_none hkept
  have hsuccess : command.final.result.isSuccess = true := by
    refine final_isSuccess_iff.2 ⟨?_, ?_, h.certain⟩
    · exact restored_isSuccess hsucceeded.keeps (firstFailure_eq_none_iff.1 hsteps)
    · rw [hrestored, hresult]
      exact houtput
  obtain ⟨hnone, hsame, -⟩ := final_of_success hsuccess hkept
  refine ⟨journal, hjournal, ⟨hnone, hsuccess, ?_⟩, ?_⟩
  · rw [hsame, hresult]
    exact hmessages
  · have hthrown : (execute command.reason 0 false planned).thrown = none :=
      (execute_thrown_eq_none_iff command.reason).2 ⟨rfl, huntroubled.operates.2⟩
    have hlength := execute_length command.reason hthrown
    intro hnil
    rw [← houtcomes, hnil] at hlength
    exact hplanned (List.length_eq_zero_iff.1 hlength.symm)

/-- A summary of a success that fits it needs no recovery. -/
theorem StatusFits.notNeeded {summary : CommandRecoverySummary} (h : summary.StatusFits true) :
    summary.status = .notNeeded := by
  unfold CommandRecoverySummary.StatusFits at h
  cases hstatus : summary.status with
  | notNeeded => rfl
  | completed => simp [hstatus] at h
  | incomplete => simp [hstatus] at h
  | suppressed => simp [hstatus] at h
  | indeterminate => simp [hstatus] at h

/-- With failure messages and an entered operation, a recovery is needed. -/
theorem status_ne_notNeeded {disposition : CommandCommitDisposition} {failure : List String}
    {started compensated : ℕ} (hfailure : failure.isEmpty = false) (hstarted : started ≠ 0) :
    CommandOperationExecution.status disposition failure started compensated ≠ .notNeeded := by
  rw [CommandOperationExecution.status]
  simp only [hfailure, Bool.false_or, beq_iff_eq, hstarted, if_false]
  split_ifs <;> decide

end Command

/-- The compensations of a command obey the law, unless it recovers although it succeeds. -/
theorem compensation_law (command : Command ρ ν) :
    CompensationLaw command ↔ ¬ command.RecoversSuccess := by
  constructor
  · intro hlaw hrecovers
    obtain ⟨journal, hjournal, hloud, houtcomes⟩ := hrecovers.loud
    obtain ⟨hrecovery, hsuccess⟩ := Command.run_recovery hrecovers.executes hjournal
    have hplanned : command.executeCommandOperation.planned.isSome := by
      rw [Command.run_of_journal hrecovers.executes hjournal]
      rfl
    obtain ⟨summary, hsummary, hagrees⟩ := hlaw.summary hplanned
    obtain rfl := Option.some.inj (hrecovery.symm.trans hsummary)
    have hfits := hagrees.status
    rw [hsuccess, hloud.isSuccess] at hfits
    refine Command.status_ne_notNeeded hloud.failureMessages ?_
      (Command.StatusFits.notNeeded hfits)
    rw [CommandOperationExecution.unwind_length (Command.attempted_entered hjournal)]
    exact fun hzero => houtcomes (List.length_eq_zero_iff.1 hzero)
  · intro hrecovers
    refine Command.compensationLaw_of_agree fun hexecutes journal hjournal => ?_
    by_cases houtcomes : journal.outcomes = []
    · exact Or.inr houtcomes
    · refine Or.inl (failureMessages_isEmpty Command.final_merged fun hloud => ?_)
      exact hrecovers (Command.recoversSuccess_of_loud hexecutes hjournal hloud houtcomes)

/-- A command with one operation and a scope that leaves a message in a successful result. -/
def messageLeavingCommand : Command String String where
  correlationId := "c1"
  reason := .error "Command canceled"
  scopes := [{ complete := fun result =>
    { leaves := { result with exceptionMessages := ["audit unavailable"] } } }]
  handled := .prepared {} (some [{ operationType := "ReserveStock", compensate := some {} }])

/-- Its operation is compensated although it succeeds. -/
theorem success_is_compensated : ¬ CompensationLaw messageLeavingCommand := by
  intro hlaw
  have hfailed := (hlaw.onlyFailed 0 (by decide)).1
  exact absurd hfailed (by decide)

end Arc.Commands
