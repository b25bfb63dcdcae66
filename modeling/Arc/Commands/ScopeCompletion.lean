import Arc.Commands.ExecuteCommand

/-!
# What holds along the completion of the scopes

`Keeps snapshot steps` says that the snapshot holds what the first unsuccessful one of
the steps says, and nothing while there is none; every captured result extends it.
`Standing.Merged` says that the current result contains what is kept, and is preserved
by everything that follows the last restored result. Together they decide what the
final result says, which is what the laws about a whole run need.
-/

namespace Arc.Commands

variable {ρ ν : Type*}

/-! ### Beginning the scopes -/

section Begin

variable {reason : Thrown ν} {scopes : List (CommandExecutionScope ρ ν × ℕ)}

/-- A scope that is created and begun, and lets the next one be created. -/
def CommandExecutionScope.Begins (scope : CommandExecutionScope ρ ν) : Prop :=
  scope.create = none ∧ scope.begin = none ∧ scope.aborts = false

theorem beginScopes_sublist : (beginScopes reason scopes).1.Sublist scopes := by
  induction scopes with
  | nil => exact List.Sublist.refl []
  | cons scope rest ih =>
      simp only [beginScopes]
      cases scope.1.create with
      | some error => exact List.nil_sublist _
      | none =>
          cases scope.1.begin with
          | some error => exact List.singleton_sublist.2 (List.mem_cons_self ..)
          | none =>
              cases scope.1.aborts with
              | true => exact List.singleton_sublist.2 (List.mem_cons_self ..)
              | false => exact ih.cons_cons scope

/-- The loop ends without an error exactly when every scope begins. -/
theorem beginScopes_eq_none_iff :
    (beginScopes reason scopes).2 = none ↔ ∀ scope ∈ scopes, scope.1.Begins := by
  induction scopes with
  | nil => simp [beginScopes]
  | cons scope rest ih =>
      simp only [beginScopes, List.forall_mem_cons]
      cases hcreate : scope.1.create with
      | some error => simp [CommandExecutionScope.Begins, hcreate]
      | none =>
          cases hbegin : scope.1.begin with
          | some error => simp [CommandExecutionScope.Begins, hbegin]
          | none =>
              cases haborts : scope.1.aborts with
              | true => simp [CommandExecutionScope.Begins, haborts]
              | false => simp [CommandExecutionScope.Begins, hcreate, hbegin, haborts, ih]

theorem beginScopes_of_begins (h : ∀ scope ∈ scopes, scope.1.Begins) :
    beginScopes reason scopes = (scopes, none) := by
  induction scopes with
  | nil => rfl
  | cons scope rest ih =>
      obtain ⟨⟨hcreate, hbegin, haborts⟩, hrest⟩ := List.forall_mem_cons.1 h
      simp [beginScopes, hcreate, hbegin, haborts, ih hrest]

end Begin

namespace Command

theorem handle_sublist (command : Command ρ ν) :
    command.handle.1.Sublist command.scopes.zipIdx := by
  unfold handle
  cases command.dependencies with
  | some error => exact List.nil_sublist _
  | none =>
      simp only
      cases (beginScopes command.reason command.scopes.zipIdx).2 with
      | some error => exact beginScopes_sublist
      | none => exact beginScopes_sublist

/-- No scope is begun twice. -/
theorem handle_nodup (command : Command ρ ν) : (command.handle.1.map (·.2)).Nodup := by
  have hsub := command.handle_sublist.map Prod.snd
  rw [List.zipIdx_map_snd] at hsub
  exact (List.nodup_range').sublist hsub

end Command

/-! ### What is kept of the first failure -/

namespace CommandResult

/-- Two results that say the same against the command. -/
def SaysSame (result other : CommandResult ρ ν) : Prop :=
  result.Contains other ∧ other.Contains result

theorem SaysSame.contentless_iff {result other : CommandResult ρ ν} (h : result.SaysSame other) :
    result.Contentless ↔ other.Contentless :=
  ⟨h.1.contentless, h.2.contentless⟩

end CommandResult

/-- The first unsuccessful one of the steps. -/
def firstFailure (steps : List (CommandResult ρ ν)) : Option (CommandResult ρ ν) :=
  steps.find? fun result => !result.isSuccess

/-- The snapshot keeps what the first unsuccessful step says. -/
def Keeps (snapshot : CommandFailureSnapshot ρ ν) (steps : List (CommandResult ρ ν)) : Prop :=
  match firstFailure steps with
  | none => snapshot.original = none
  | some first => ∃ original, snapshot.original = some original ∧ original.SaysSame first

theorem firstFailure_eq_none_iff {steps : List (CommandResult ρ ν)} :
    firstFailure steps = none ↔ ∀ result ∈ steps, result.isSuccess = true := by
  simp [firstFailure]

theorem firstFailure_concat (steps : List (CommandResult ρ ν)) (result : CommandResult ρ ν) :
    firstFailure (steps ++ [result]) =
      (firstFailure steps).or (if result.isSuccess then none else some result) := by
  rw [firstFailure, List.find?_append, firstFailure]
  congr 1
  cases hsuccess : result.isSuccess with
  | true => simp [hsuccess]
  | false => simp [hsuccess]

section Keeping

variable {snapshot : CommandFailureSnapshot ρ ν} {steps : List (CommandResult ρ ν)}
variable {result : CommandResult ρ ν}

theorem Keeps.original_eq_none_iff (h : Keeps snapshot steps) :
    snapshot.original = none ↔ ∀ result ∈ steps, result.isSuccess = true := by
  rw [← firstFailure_eq_none_iff]
  unfold Keeps at h
  cases hfirst : firstFailure steps with
  | none =>
      rw [hfirst] at h
      exact iff_of_true h rfl
  | some first =>
      rw [hfirst] at h
      obtain ⟨original, horiginal, -⟩ := h
      simp [horiginal]

/-- A captured result is one more step. -/
theorem Keeps.capture (h : Keeps snapshot steps) :
    Keeps (snapshot.capture result) (steps ++ [result]) := by
  unfold Keeps at h ⊢
  rw [firstFailure_concat]
  cases hfirst : firstFailure steps with
  | some first =>
      rw [hfirst] at h
      obtain ⟨original, horiginal, hsame⟩ := h
      rw [CommandFailureSnapshot.capture_of_some horiginal]
      exact ⟨original, horiginal, hsame⟩
  | none =>
      rw [hfirst] at h
      cases hsuccess : result.isSuccess with
      | true =>
          rw [CommandFailureSnapshot.capture_of_success hsuccess]
          exact h
      | false =>
          obtain ⟨original, horiginal, hsame⟩ :=
            CommandFailureSnapshot.capture_of_failure hsuccess h
          exact ⟨original, horiginal, hsame⟩

/-- A result that succeeds as its predecessor did is one more step. -/
theorem Keeps.concat (h : Keeps snapshot steps)
    (hsuccess : (∀ r ∈ steps, r.isSuccess = true) → result.isSuccess = true) :
    Keeps snapshot (steps ++ [result]) := by
  unfold Keeps at h ⊢
  rw [firstFailure_concat]
  cases hfirst : firstFailure steps with
  | some first =>
      rw [hfirst] at h
      exact h
  | none =>
      rw [hfirst] at h
      rw [hsuccess (firstFailure_eq_none_iff.1 hfirst)]
      exact h

end Keeping

/-- Everything kept is in the result, which succeeds beside it only when nothing is said. -/
def Standing.Merged (standing : Standing ρ ν) : Prop :=
  ∀ original, standing.snapshot.original = some original →
    standing.result.Contains original ∧
      (standing.result.isSuccess = true → standing.result.Contentless)

namespace Standing

variable {standing : Standing ρ ν}

@[simp] theorem fail_isSuccess (error : Thrown ν) :
    (standing.fail error).result.isSuccess = false :=
  commandFailure_isSuccess _ _ _

theorem restored_merged [DecidableEq ν] : standing.restored.Merged := by
  intro original horiginal
  exact ⟨CommandFailureSnapshot.restore_contains horiginal,
    (CommandFailureSnapshot.restore_isSuccess_iff horiginal).1⟩

theorem Merged.fail (h : standing.Merged) (error : Thrown ν) : (standing.fail error).Merged := by
  intro original horiginal
  refine ⟨?_, fun hsuccess => ?_⟩
  · cases hkept : standing.snapshot.original with
    | none =>
        obtain ⟨kept, hcaptured, -, hcontains⟩ := CommandFailureSnapshot.capture_of_failure
          (commandFailure_isSuccess standing.snapshot.correlationId error (some standing.result))
          hkept
        obtain rfl : kept = original := Option.some.inj (hcaptured.symm.trans horiginal)
        exact hcontains
    | some kept =>
        have hcaptured : (standing.fail error).snapshot = standing.snapshot :=
          CommandFailureSnapshot.capture_of_some hkept
        rw [hcaptured] at horiginal
        exact (commandFailure_contains _ error standing.result).trans (h original horiginal).1
  · rw [fail_isSuccess] at hsuccess
    exact absurd hsuccess (by decide)

/-- What follows the last restored result keeps `Merged`, and leaves a success as it is. -/
theorem Merged.response (h : standing.Merged) (response : Option ρ) :
    Standing.Merged { standing with result := { standing.result with response := response } } := by
  intro original horiginal
  obtain ⟨⟨hauthorized, hissues, hmessages⟩, hcontentless⟩ := h original horiginal
  exact ⟨⟨hauthorized, hissues, hmessages⟩, fun hsuccess =>
    ⟨(hcontentless hsuccess).isAuthorized, (hcontentless hsuccess).validationResults,
      (hcontentless hsuccess).exceptionMessages⟩⟩

end Standing

/-! ### Completing the scopes -/

theorem Completion.outcome_of_none {correlationId : String} {completion : Completion ρ ν}
    (h : completion.thrown = none) : completion.outcome correlationId = completion.leaves := by
  simp [Completion.outcome, h]

/-- A scope that throws leaves a failure that says something. -/
theorem Completion.thrown_eq_none {correlationId : String} {completion : Completion ρ ν}
    (h : (completion.outcome correlationId).isSuccess = true ∨
      (completion.outcome correlationId).Contentless) : completion.thrown = none := by
  cases hthrown : completion.thrown with
  | none => rfl
  | some error =>
      simp only [Completion.outcome, hthrown] at h
      rcases h with hsuccess | hcontentless
      · rw [commandFailure_isSuccess] at hsuccess
        exact absurd hsuccess (by decide)
      · exact absurd hcontentless (not_contentless_commandFailure _ _ _)

section Loop

variable [DecidableEq ν] {journaled : Bool} {scopes : List (CommandExecutionScope ρ ν × ℕ)}
variable {completing : Completing ρ ν}

/-- The steps while the scopes are completed, from the result `first` on. -/
def Completing.steps (completing : Completing ρ ν) (first : CommandResult ρ ν) :
    List (CommandResult ρ ν) :=
  first :: completing.completions.map fun c => c.outcome completing.snapshot.correlationId

theorem completeScope_correlationId (scope : CommandExecutionScope ρ ν × ℕ) :
    (Command.completeScope journaled completing scope).snapshot.correlationId =
      completing.snapshot.correlationId :=
  CommandFailureSnapshot.capture_correlationId

/-- One completed scope is one more step. -/
theorem completeScope_steps (first : CommandResult ρ ν)
    (scope : CommandExecutionScope ρ ν × ℕ) :
    (Command.completeScope journaled completing scope).steps first =
      completing.steps first ++ [(Command.completeScope journaled completing scope).result] := by
  rw [Completing.steps, completeScope_correlationId]
  simp [Command.completeScope, Completing.steps]

theorem completeScope_keeps {first : CommandResult ρ ν}
    (scope : CommandExecutionScope ρ ν × ℕ)
    (h : Keeps completing.snapshot (completing.steps first)) :
    Keeps (Command.completeScope journaled completing scope).snapshot
      ((Command.completeScope journaled completing scope).steps first) := by
  rw [completeScope_steps]
  exact h.capture

/-- The completed scopes keep what the first failing step says. -/
theorem foldl_keeps {first : CommandResult ρ ν}
    (h : Keeps completing.snapshot (completing.steps first)) :
    Keeps (scopes.foldl (Command.completeScope journaled) completing).snapshot
      ((scopes.foldl (Command.completeScope journaled) completing).steps first) := by
  induction scopes generalizing completing with
  | nil => exact h
  | cons scope rest ih => exact ih (completeScope_keeps scope h)

/-- The current result is the one after the last step. -/
theorem foldl_result {first : CommandResult ρ ν}
    (h : (completing.steps first).getLast? = some completing.result) :
    ((scopes.foldl (Command.completeScope journaled) completing).steps first).getLast? =
      some (scopes.foldl (Command.completeScope journaled) completing).result := by
  induction scopes generalizing completing with
  | nil => exact h
  | cons scope rest ih =>
      refine ih ?_
      rw [completeScope_steps, List.getLast?_concat]

theorem foldl_log :
    (scopes.foldl (Command.completeScope journaled) completing).log =
      completing.log ++ scopes.map (.completed ·.2) := by
  induction scopes generalizing completing with
  | nil => simp
  | cons scope rest ih =>
      rw [List.foldl_cons, ih]
      simp [Command.completeScope]

end Loop

/-! ### After the scopes -/

namespace Command

section Conclude

variable {command : Command ρ ν} {standing : Standing ρ ν} {steps : List (CommandResult ρ ν)}

theorem assertOutput_merged (h : standing.Merged) : (command.assertOutput standing).Merged := by
  unfold assertOutput
  split_ifs
  · cases command.clientOutput standing.result.response with
    | ok response => exact h.response response
    | error error => exact h.fail error
  · exact h

theorem readDisposition_merged {reported : Except (Thrown ν) CommandCommitDisposition}
    (h : standing.Merged) : (readDisposition reported standing).Merged := by
  cases reported with
  | ok disposition => exact h
  | error error => exact h.fail error

theorem refuseUncertain_merged {disposition : CommandCommitDisposition} (h : standing.Merged) :
    (refuseUncertain disposition standing).Merged := by
  unfold refuseUncertain
  split_ifs
  · exact h.fail _
  · exact h

/-- The response is checked: a success stays one exactly when its response is accepted. -/
theorem assertOutput_isSuccess_iff :
    (command.assertOutput standing).result.isSuccess = true ↔
      standing.result.isSuccess = true ∧
        ∃ response, command.clientOutput standing.result.response = .ok response := by
  unfold assertOutput
  cases hsuccess : standing.result.isSuccess with
  | false => simp [hsuccess]
  | true =>
      cases houtput : command.clientOutput standing.result.response with
      | ok response => simp [hsuccess]
      | error error => simp

theorem readDisposition_isSuccess_iff
    {reported : Except (Thrown ν) CommandCommitDisposition} :
    (readDisposition reported standing).result.isSuccess = true ↔
      standing.result.isSuccess = true ∧ ∃ disposition, reported = .ok disposition := by
  cases reported with
  | ok disposition => simp [readDisposition]
  | error error => simp [readDisposition]

theorem refuseUncertain_isSuccess_iff {disposition : CommandCommitDisposition} :
    (refuseUncertain disposition standing).result.isSuccess = true ↔
      standing.result.isSuccess = true ∧ disposition.uncertain = false := by
  unfold refuseUncertain
  cases hsuccess : standing.result.isSuccess with
  | false => simp [hsuccess]
  | true =>
      cases huncertain : disposition.uncertain with
      | false => simp [hsuccess]
      | true => simp

/-- While a step leaves a success alone, what is kept and what it says stay as they are. -/
theorem assertOutput_of_success (h : (command.assertOutput standing).result.isSuccess = true) :
    (command.assertOutput standing).snapshot = standing.snapshot ∧
      (command.assertOutput standing).result.exceptionMessages =
        standing.result.exceptionMessages := by
  obtain ⟨hsuccess, response, houtput⟩ := assertOutput_isSuccess_iff.1 h
  simp [assertOutput, hsuccess, houtput]

theorem readDisposition_of_success {reported : Except (Thrown ν) CommandCommitDisposition}
    (h : (readDisposition reported standing).result.isSuccess = true) :
    readDisposition reported standing = standing := by
  obtain ⟨-, disposition, rfl⟩ := readDisposition_isSuccess_iff.1 h
  rfl

theorem refuseUncertain_of_success {disposition : CommandCommitDisposition}
    (h : (refuseUncertain disposition standing).result.isSuccess = true) :
    refuseUncertain disposition standing = standing := by
  obtain ⟨hsuccess, hcertain⟩ := refuseUncertain_isSuccess_iff.1 h
  simp [refuseUncertain, hcertain]

theorem assertOutput_keeps (h : Keeps standing.snapshot steps)
    (hlast : (∀ r ∈ steps, r.isSuccess = true) → standing.result.isSuccess = true) :
    Keeps (command.assertOutput standing).snapshot
      (steps ++ [(command.assertOutput standing).result]) := by
  unfold assertOutput
  split_ifs with hsuccess
  · cases command.clientOutput standing.result.response with
    | ok response => exact h.concat hlast
    | error error => exact h.capture
  · exact h.concat hlast

theorem readDisposition_keeps {reported : Except (Thrown ν) CommandCommitDisposition}
    (h : Keeps standing.snapshot steps)
    (hlast : (∀ r ∈ steps, r.isSuccess = true) → standing.result.isSuccess = true) :
    Keeps (readDisposition reported standing).snapshot
      (steps ++ [(readDisposition reported standing).result]) := by
  cases reported with
  | ok disposition => exact h.concat hlast
  | error error => exact h.capture

theorem refuseUncertain_keeps {disposition : CommandCommitDisposition}
    (h : Keeps standing.snapshot steps)
    (hlast : (∀ r ∈ steps, r.isSuccess = true) → standing.result.isSuccess = true) :
    Keeps (refuseUncertain disposition standing).snapshot
      (steps ++ [(refuseUncertain disposition standing).result]) := by
  unfold refuseUncertain
  split_ifs
  · exact h.capture
  · exact h.concat hlast

end Conclude

end Command

end Arc.Commands
