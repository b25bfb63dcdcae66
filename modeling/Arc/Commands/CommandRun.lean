import Arc.Commands.CommandAttempt

/-!
# Runs with a journal

A run with a journal passes through five standings: `attempted`, `completed` after the
scopes, `checked` once the response is accepted, `read` once the disposition is known
and `final`. What is kept and what is merged is followed through all of them, and
`final_isSuccess_iff` says what a successful run takes.
-/

namespace Arc.Commands

variable {ρ ν : Type*}

/-- A scope that does not fail the command. -/
def Completion.clean (completion : Completion ρ ν) : Bool :=
  completion.thrown.isNone && completion.leaves.isSuccess

theorem Completion.outcome_isSuccess (correlationId : String) (completion : Completion ρ ν) :
    (completion.outcome correlationId).isSuccess = completion.clean := by
  unfold Completion.outcome Completion.clean
  cases completion.thrown with
  | none => simp
  | some error => simp [commandFailure_isSuccess]

namespace Command

/-- The command is neither rejected beforehand nor only validated. -/
structure Executes (command : Command ρ ν) : Prop where
  preflight : command.preflight = .ok none
  validateOnly : command.validateOnly = false

variable [DecidableEq ν]

def completed (command : Command ρ ν) : Completing ρ ν :=
  command.handle.1.reverse.foldl (completeScope command.attempted.journal.isSome)
    { command.attempted.toStanding with source := command.attempted.source }

def checked (command : Command ρ ν) : Standing ρ ν :=
  command.assertOutput command.completed.restored

/-- What the scopes report once they are completed. -/
def report (command : Command ρ ν) : Except (Thrown ν) CommandCommitDisposition :=
  reported command.handle.1

def read (command : Command ρ ν) : Standing ρ ν :=
  readDisposition command.report command.checked

def final (command : Command ρ ν) : Standing ρ ν :=
  refuseUncertain (commit command.report) command.read

/-- Every step of a run with a journal. -/
def steps (command : Command ρ ν) : List (CommandResult ρ ν) :=
  command.completed.steps command.attempted.result ++ [command.checked.result] ++
    [command.read.result] ++ [command.final.result]

/-- What the journal of the command leaves. -/
def recovery (command : Command ρ ν) (journal : CommandOperationExecution ν) : Recovery :=
  journal.recover (commit command.report) (failureMessages command.final)
    command.completed.source

variable {command : Command ρ ν} {journal : CommandOperationExecution ν}

theorem run_of_journal (h : command.Executes) (hjournal : command.attempted.journal = some journal) :
    command.executeCommandOperation =
      { result := withhold { command.final.result with
          recovery := some (command.recovery journal).summary
          operationOutcomes := some (command.recovery journal).outcomes }
        steps := command.steps
        completions := command.completed.completions
        planned := some journal.planned
        log := command.handle.1.map (.began ·.2) ++ command.attempted.log ++
          command.completed.log ++ (command.recovery journal).log } := by
  have hattempt : (command.attempt command.handle.1 command.handle.2).journal = some journal :=
    hjournal
  simp only [executeCommandOperation, h.preflight, h.validateOnly, Bool.false_eq_true, if_false,
    completeScopes, hattempt]
  simp only [steps, final, read, checked, report, recovery, completed, attempted, hattempt,
    Completing.steps, List.append_assoc, List.cons_append, List.nil_append]

theorem run_of_no_journal (h : command.Executes) (hjournal : command.attempted.journal = none) :
    command.executeCommandOperation.planned = none ∧
      command.executeCommandOperation.log =
        command.handle.1.map (.began ·.2) ++ command.attempted.log ++ command.completed.log := by
  have hattempt : (command.attempt command.handle.1 command.handle.2).journal = none := hjournal
  simp only [executeCommandOperation, h.preflight, h.validateOnly, Bool.false_eq_true, if_false,
    completeScopes, hattempt]
  exact ⟨trivial, by simp [completed, attempted, hattempt]⟩

theorem run_of_not_executes (h : ¬ command.Executes) :
    command.executeCommandOperation.planned = none ∧
      command.executeCommandOperation.log = [] := by
  unfold executeCommandOperation
  cases hpreflight : command.preflight with
  | error error => exact ⟨rfl, rfl⟩
  | ok values =>
      cases values with
      | some values => exact ⟨rfl, rfl⟩
      | none =>
          cases hvalidate : command.validateOnly with
          | true => exact ⟨rfl, rfl⟩
          | false => exact absurd ⟨hpreflight, hvalidate⟩ h

/-! ### The log of a run -/

/-- What the recovery calls, if there is a journal. -/
def recoveryLog (command : Command ρ ν) : List CommandEvent :=
  command.attempted.journal.elim [] fun journal => (command.recovery journal).log

theorem run_log (h : command.Executes) :
    command.executeCommandOperation.log =
      command.handle.1.map (.began ·.2) ++ command.attempted.log ++
        command.handle.1.reverse.map (.completed ·.2) ++ command.recoveryLog := by
  have hcompleted : command.completed.log = command.handle.1.reverse.map (.completed ·.2) := by
    rw [completed, foldl_log]
    rfl
  cases hjournal : command.attempted.journal with
  | none =>
      rw [(run_of_no_journal h hjournal).2, hcompleted, recoveryLog, hjournal]
      exact (List.append_nil _).symm
  | some journal =>
      rw [run_of_journal h hjournal, recoveryLog, hjournal, ← hcompleted]
      rfl

/-- A recovery calls compensations and nothing else. -/
theorem mem_recoveryLog {event : CommandEvent} (h : event ∈ command.recoveryLog) :
    (∃ failure, event = .compensating failure) ∨
      ∃ index settlement, event = .compensated index settlement := by
  unfold recoveryLog at h
  cases hjournal : command.attempted.journal with
  | none => simp [hjournal] at h
  | some journal =>
      simp only [hjournal, Option.elim_some, recovery, CommandOperationExecution.recover,
        CommandOperationExecution.unwind] at h
      split_ifs at h
      · simp at h
      · exact mem_compensate_log h
      · simp at h

section Projections

variable (command)

theorem recoveryLog_filterMap {f : CommandEvent → Option ℕ}
    (hcompensating : ∀ failure, f (.compensating failure) = none)
    (hcompensated : ∀ index settlement, f (.compensated index settlement) = none) :
    command.recoveryLog.filterMap f = [] := by
  refine List.filterMap_eq_nil_iff.2 fun event hevent => ?_
  rcases mem_recoveryLog hevent with ⟨failure, rfl⟩ | ⟨index, settlement, rfl⟩
  · exact hcompensating failure
  · exact hcompensated index settlement

end Projections

theorem run_began (h : command.Executes) :
    command.executeCommandOperation.log.filterMap CommandEvent.began? =
      command.handle.1.map (·.2) := by
  rw [run_log h, List.filterMap_append, List.filterMap_append, List.filterMap_append,
    command.attempted_log_filterMap (fun _ => rfl) (fun _ => rfl),
    command.recoveryLog_filterMap (fun _ => rfl) (fun _ _ => rfl)]
  simp [List.filterMap_map, Function.comp_def, CommandEvent.began?]

theorem run_completed (h : command.Executes) :
    command.executeCommandOperation.log.filterMap CommandEvent.completed? =
      (command.handle.1.map (·.2)).reverse := by
  rw [run_log h, List.filterMap_append, List.filterMap_append, List.filterMap_append,
    command.attempted_log_filterMap (fun _ => rfl) (fun _ => rfl),
    command.recoveryLog_filterMap (fun _ => rfl) (fun _ _ => rfl)]
  simp [List.filterMap_map, Function.comp_def, CommandEvent.completed?]

theorem run_entered (h : command.Executes) :
    command.executeCommandOperation.log.filterMap CommandEvent.entry? =
      command.attempted.log.filterMap CommandEvent.entry? := by
  rw [run_log h, List.filterMap_append, List.filterMap_append, List.filterMap_append,
    command.recoveryLog_filterMap (fun _ => rfl) (fun _ _ => rfl)]
  simp [List.filterMap_map, Function.comp_def, CommandEvent.entry?]

theorem run_compensations (h : command.Executes) :
    command.executeCommandOperation.log.filterMap CommandEvent.compensation? =
      command.recoveryLog.filterMap CommandEvent.compensation? := by
  rw [run_log h, List.filterMap_append, List.filterMap_append, List.filterMap_append,
    command.attempted_log_filterMap (fun _ => rfl) (fun _ => rfl)]
  simp [List.filterMap_map, Function.comp_def, CommandEvent.compensation?]

theorem run_executed (h : command.Executes) :
    command.executeCommandOperation.log.countP CommandEvent.isExecuted =
      command.attempted.log.countP CommandEvent.isExecuted := by
  have hrecovery : command.recoveryLog.countP CommandEvent.isExecuted = 0 := by
    refine List.countP_eq_zero.2 fun event hevent => ?_
    rcases mem_recoveryLog hevent with ⟨failure, rfl⟩ | ⟨index, settlement, rfl⟩
    · exact Bool.false_ne_true
    · exact Bool.false_ne_true
  rw [run_log h, List.countP_append, List.countP_append, List.countP_append, hrecovery]
  simp [List.countP_map, Function.comp_def, CommandEvent.isExecuted]

theorem run_settled (h : command.Executes) (settlement : Settlement) :
    command.executeCommandOperation.log.countP (CommandEvent.settledAs settlement) =
      command.recoveryLog.countP (CommandEvent.settledAs settlement) := by
  have hattempted : command.attempted.log.countP (CommandEvent.settledAs settlement) = 0 := by
    refine List.countP_eq_zero.2 fun event hevent => ?_
    obtain ⟨index, rfl | rfl⟩ := mem_attempted_log hevent
    · exact Bool.false_ne_true
    · exact Bool.false_ne_true
  rw [run_log h, List.countP_append, List.countP_append, List.countP_append, hattempted]
  simp [List.countP_map, Function.comp_def, CommandEvent.settledAs]

/-! ### What is kept and merged along a run -/

theorem completed_result :
    (command.completed.steps command.attempted.result).getLast? =
      some command.completed.result := foldl_result rfl

/-- The result the scopes leave is what the last one of them does. -/
theorem completed_last {last : Completion ρ ν}
    (h : command.completed.completions.getLast? = some last) :
    command.completed.result = last.outcome command.completed.snapshot.correlationId := by
  have hresult := command.completed_result
  rw [Completing.steps, List.getLast?_cons, List.getLast?_map, h] at hresult
  exact (Option.some.inj hresult).symm

theorem completed_keeps (h : Keeps command.attempted.snapshot [command.attempted.result]) :
    Keeps command.completed.snapshot (command.completed.steps command.attempted.result) :=
  foldl_keeps h

/-- While every step succeeds, so does the result the scopes leave. -/
theorem restored_isSuccess (h : Keeps command.attempted.snapshot [command.attempted.result])
    (hsteps : ∀ r ∈ command.completed.steps command.attempted.result, r.isSuccess = true) :
    command.completed.restored.result.isSuccess = true := by
  have hnone := (completed_keeps h).original_eq_none_iff.2 hsteps
  rw [Standing.restored, CommandFailureSnapshot.restore_of_none hnone]
  exact hsteps _ (List.mem_of_getLast? completed_result)

theorem final_keeps (h : Keeps command.attempted.snapshot [command.attempted.result]) :
    Keeps command.final.snapshot command.steps := by
  have hchecked : Keeps command.checked.snapshot
      (command.completed.steps command.attempted.result ++ [command.checked.result]) :=
    assertOutput_keeps (completed_keeps h) (restored_isSuccess h)
  have hread : Keeps command.read.snapshot (command.completed.steps command.attempted.result ++
      [command.checked.result] ++ [command.read.result]) :=
    readDisposition_keeps hchecked fun hall => hall _ (by simp)
  exact refuseUncertain_keeps hread fun hall => hall _ (by simp)

theorem final_merged : command.final.Merged :=
  refuseUncertain_merged (readDisposition_merged (assertOutput_merged Standing.restored_merged))

/-- What a run with a journal takes to succeed. -/
theorem final_isSuccess_iff :
    command.final.result.isSuccess = true ↔
      command.completed.restored.result.isSuccess = true ∧
        (∃ response,
          command.clientOutput command.completed.restored.result.response = .ok response) ∧
        ∃ disposition, command.report = .ok disposition ∧ disposition.uncertain = false := by
  rw [final, refuseUncertain_isSuccess_iff, read, readDisposition_isSuccess_iff, checked,
    assertOutput_isSuccess_iff, and_assoc, and_assoc]
  refine and_congr_right fun _ => and_congr_right fun _ => ?_
  constructor
  · rintro ⟨⟨disposition, hreport⟩, hcertain⟩
    rw [hreport] at hcertain
    exact ⟨disposition, hreport, hcertain⟩
  · rintro ⟨disposition, hreport, hcertain⟩
    rw [hreport]
    exact ⟨⟨disposition, rfl⟩, hcertain⟩

/-- The steps of a successful run fail only while its scopes are completed. -/
theorem firstFailure_of_success (h : command.final.result.isSuccess = true) :
    firstFailure command.steps =
      firstFailure (command.completed.steps command.attempted.result) := by
  have hfinal := refuseUncertain_isSuccess_iff.1 h
  have hread := readDisposition_isSuccess_iff.1 hfinal.1
  rw [steps, firstFailure_concat, firstFailure_concat, firstFailure_concat, h,
    show command.read.result.isSuccess = true from hfinal.1, hread.1]
  simp

/-- The steps of an attempt that succeeded fail first where a scope does. -/
theorem firstFailure_completed (h : command.attempted.result.isSuccess = true) :
    firstFailure (command.completed.steps command.attempted.result) =
      (command.completed.completions.find? (!·.clean)).map
        (·.outcome command.completed.snapshot.correlationId) := by
  rw [firstFailure, Completing.steps, List.find?_cons, h, List.find?_map]
  simp only [Bool.not_true]
  congr 2
  funext completion
  rw [Function.comp_apply, Completion.outcome_isSuccess]

end Command

end Arc.Commands
