import Mathlib.Data.List.Basic
import Mathlib.Data.Nat.Notation

/-!
# Results of commands

`commandResult` derives the flags of a result from its contents; everything else that
touches a result (a completion scope, for one) may set any field on its own, so only
results it built are known to be well formed. `commandFailure` merges a thrown error
into a preceding result. `CommandFailureSnapshot` keeps the contents of the first
unsuccessful result it is shown and merges them back into later ones.

The validation issues are compared by identity, so their type is a parameter with a
decidable equality; nothing here looks into them.
-/

namespace Arc.Commands

/-- Integration-reported facts about the business commit, independent of success. -/
inductive CommandCommitDisposition
  | noCommit
  | notCommitted
  | committed
  | unknown
  | mixed
  deriving DecidableEq, Repr

inductive CommandOperationCompensation
  | notNeeded
  | completed
  | failed
  | notAvailable
  | budgetExpired
  | suppressed
  deriving DecidableEq, Repr

inductive CommandRecoveryStatus
  | notNeeded
  | completed
  | incomplete
  | suppressed
  | indeterminate
  deriving DecidableEq, Repr

/-- What happened to one entered operation. -/
structure CommandOperationOutcome where
  invocationIndex : ℕ
  operationType : String
  executionCompleted : Bool
  compensation : CommandOperationCompensation
  compensationFailure : Option String
  deriving DecidableEq, Repr

structure CommandRecoverySummary where
  commitDisposition : CommandCommitDisposition
  status : CommandRecoveryStatus
  startedCount : ℕ
  completedCount : ℕ
  compensatedCount : ℕ
  failedCompensationCount : ℕ
  uncompensatedCount : ℕ
  deriving DecidableEq, Repr

/-- The thrown values `commandFailure` tells apart, with the issues it makes of them. -/
inductive ThrownKind (ν : Type*)
  | plain
  | serviceDependency (issues : List ν)
  | readModelForCommand (issue : ν)
  deriving DecidableEq, Repr

/-- A thrown value: its text, and the stack when it is an `Error`. -/
structure Thrown (ν : Type*) where
  text : String
  stack : Option String
  kind : ThrownKind ν
  deriving DecidableEq, Repr

/-- The answer to a command. -/
structure CommandResult (ρ ν : Type*) where
  correlationId : String
  isAuthorized : Bool
  validationResults : List ν
  exceptionMessages : List String
  exceptionStackTrace : String
  authorizationFailureReason : String
  isValid : Bool
  hasExceptions : Bool
  isSuccess : Bool
  response : Option ρ
  recovery : Option CommandRecoverySummary
  operationOutcomes : Option (List CommandOperationOutcome)
  deriving DecidableEq, Repr

/-- The fields a caller of `commandResult` may state, with what an absent one means. -/
structure CommandResultValues (ρ ν : Type*) where
  isAuthorized : Bool := true
  validationResults : List ν := []
  exceptionMessages : List String := []
  exceptionStackTrace : String := ""
  authorizationFailureReason : String := ""
  response : Option ρ := none

variable {ρ ν : Type*}

/-- An `Error` made by the pipeline itself; the frames of its stack are left out. -/
def Thrown.error (message : String) : Thrown ν where
  text := "Error: " ++ message
  stack := some ("Error: " ++ message)
  kind := .plain

def CommandResultValues.succeeds (values : CommandResultValues ρ ν) : Bool :=
  values.isAuthorized && values.validationResults.isEmpty && values.exceptionMessages.isEmpty

def commandResult (correlationId : String) (values : CommandResultValues ρ ν) :
    CommandResult ρ ν where
  correlationId := correlationId
  isAuthorized := values.isAuthorized
  validationResults := values.validationResults
  exceptionMessages := values.exceptionMessages
  exceptionStackTrace := values.exceptionStackTrace
  authorizationFailureReason := values.authorizationFailureReason
  isValid := values.validationResults.isEmpty
  hasExceptions := !values.exceptionMessages.isEmpty
  isSuccess := values.succeeds
  response := if values.succeeds then values.response else none
  recovery := none
  operationOutcomes := none

/-- The validation issues an error stands for. -/
def Thrown.issues (error : Thrown ν) : List ν :=
  match error.kind with
  | .plain => []
  | .serviceDependency issues => issues
  | .readModelForCommand issue => [issue]

/-- The messages an error stands for. -/
def Thrown.messages (error : Thrown ν) : List String :=
  match error.kind with
  | .readModelForCommand _ => []
  | _ => [error.text]

/-- Build a failed command result, merging any preceding result. -/
def commandFailure (correlationId : String) (error : Thrown ν)
    (previous : Option (CommandResult ρ ν)) : CommandResult ρ ν :=
  commandResult correlationId {
    isAuthorized := (previous.map (·.isAuthorized)).getD true
    validationResults := (previous.map (·.validationResults)).getD [] ++ error.issues
    authorizationFailureReason := (previous.map (·.authorizationFailureReason)).getD ""
    exceptionMessages := (previous.map (·.exceptionMessages)).getD [] ++ error.messages
    exceptionStackTrace :=
      error.stack.getD ((previous.map (·.exceptionStackTrace)).getD "") }

/-- `text || other` on strings. -/
def orElse (text other : String) : String := if text = "" then other else text

/-- Preserve the first failure even if a completion scope mutates the result. -/
structure CommandFailureSnapshot (ρ ν : Type*) where
  correlationId : String
  original : Option (CommandResult ρ ν) := none

namespace CommandFailureSnapshot

def capture (snapshot : CommandFailureSnapshot ρ ν) (result : CommandResult ρ ν) :
    CommandFailureSnapshot ρ ν :=
  if result.isSuccess || snapshot.original.isSome then snapshot
  else { snapshot with
    original := some (commandResult snapshot.correlationId {
      isAuthorized := result.isAuthorized
      authorizationFailureReason := result.authorizationFailureReason
      validationResults := result.validationResults
      exceptionMessages := result.exceptionMessages
      exceptionStackTrace := result.exceptionStackTrace }) }

def restore [DecidableEq ν] (snapshot : CommandFailureSnapshot ρ ν)
    (result : CommandResult ρ ν) : CommandResult ρ ν :=
  match snapshot.original with
  | none => result
  | some original =>
      commandResult snapshot.correlationId {
        isAuthorized := result.isAuthorized && original.isAuthorized
        authorizationFailureReason :=
          orElse result.authorizationFailureReason original.authorizationFailureReason
        validationResults := original.validationResults ++
          result.validationResults.filter fun item => !original.validationResults.contains item
        exceptionMessages := original.exceptionMessages ++
          result.exceptionMessages.filter fun item => !original.exceptionMessages.contains item
        exceptionStackTrace :=
          orElse original.exceptionStackTrace result.exceptionStackTrace }

end CommandFailureSnapshot

/-! ### What a result contains -/

/-- A result that says nothing against the command. -/
structure CommandResult.Contentless (result : CommandResult ρ ν) : Prop where
  isAuthorized : result.isAuthorized = true
  validationResults : result.validationResults = []
  exceptionMessages : result.exceptionMessages = []

/-- Every message, every validation result and the denial of `first` are in `result`. -/
structure CommandResult.Contains (result first : CommandResult ρ ν) : Prop where
  isAuthorized : first.isAuthorized = false → result.isAuthorized = false
  validationResults : first.validationResults ⊆ result.validationResults
  exceptionMessages : first.exceptionMessages ⊆ result.exceptionMessages

namespace CommandResult

theorem Contains.trans {first second third : CommandResult ρ ν} (h₁ : third.Contains second)
    (h₂ : second.Contains first) : third.Contains first where
  isAuthorized := h₁.isAuthorized ∘ h₂.isAuthorized
  validationResults := List.Subset.trans h₂.validationResults h₁.validationResults
  exceptionMessages := List.Subset.trans h₂.exceptionMessages h₁.exceptionMessages

/-- A result without contents only contains results without contents. -/
theorem Contains.contentless {result first : CommandResult ρ ν} (h : result.Contains first)
    (hresult : result.Contentless) : first.Contentless where
  isAuthorized := by
    cases hfirst : first.isAuthorized with
    | true => rfl
    | false =>
        have hdenied := h.isAuthorized hfirst
        rw [hresult.isAuthorized] at hdenied
        exact absurd hdenied (by decide)
  validationResults := by
    have hsub := h.validationResults
    rw [hresult.validationResults] at hsub
    exact List.subset_nil.1 hsub
  exceptionMessages := by
    have hsub := h.exceptionMessages
    rw [hresult.exceptionMessages] at hsub
    exact List.subset_nil.1 hsub

end CommandResult

/-- The results `commandResult` builds succeed exactly when they have no contents. -/
theorem commandResult_isSuccess_iff {correlationId : String}
    {values : CommandResultValues ρ ν} :
    (commandResult correlationId values).isSuccess = true ↔
      (commandResult correlationId values).Contentless := by
  simp only [commandResult, CommandResultValues.succeeds, Bool.and_eq_true,
    List.isEmpty_iff]
  exact ⟨fun ⟨⟨h₁, h₂⟩, h₃⟩ => ⟨h₁, h₂, h₃⟩, fun ⟨h₁, h₂, h₃⟩ => ⟨⟨h₁, h₂⟩, h₃⟩⟩

theorem commandResult_response {correlationId : String} {values : CommandResultValues ρ ν}
    (h : (commandResult correlationId values).isSuccess = true) :
    (commandResult correlationId values).response = values.response := if_pos h

/-- An error always leaves something: a message, or the issue of a read model. -/
theorem Thrown.issues_or_messages (error : Thrown ν) :
    error.issues ≠ [] ∨ error.messages ≠ [] := by
  rcases hkind : error.kind with _ | issues | issue
  · exact Or.inr (by simp [Thrown.messages, hkind])
  · exact Or.inr (by simp [Thrown.messages, hkind])
  · exact Or.inl (by simp [Thrown.issues, hkind])

section Failure

variable (correlationId : String) (error : Thrown ν) (previous : CommandResult ρ ν)

theorem commandFailure_contains :
    (commandFailure correlationId error (some previous)).Contains previous where
  isAuthorized := id
  validationResults := List.subset_append_left _ _
  exceptionMessages := List.subset_append_left _ _

theorem not_contentless_commandFailure (previous : Option (CommandResult ρ ν)) :
    ¬ (commandFailure correlationId error previous).Contentless := by
  rintro ⟨-, hissues, hmessages⟩
  simp only [commandFailure, commandResult, List.append_eq_nil_iff] at hissues hmessages
  exact error.issues_or_messages.elim (absurd hissues.2) (absurd hmessages.2)

theorem commandFailure_isSuccess (previous : Option (CommandResult ρ ν)) :
    (commandFailure correlationId error previous).isSuccess = false := by
  rw [← Bool.not_eq_true, commandFailure, commandResult_isSuccess_iff]
  exact not_contentless_commandFailure correlationId error previous

end Failure

namespace CommandFailureSnapshot

variable {snapshot : CommandFailureSnapshot ρ ν} {result : CommandResult ρ ν}

theorem capture_of_success (h : result.isSuccess = true) : snapshot.capture result = snapshot := by
  simp [capture, h]

theorem capture_of_some {original : CommandResult ρ ν} (h : snapshot.original = some original) :
    snapshot.capture result = snapshot := by
  simp [capture, h]

@[simp] theorem capture_correlationId :
    (snapshot.capture result).correlationId = snapshot.correlationId := by
  unfold capture
  split_ifs <;> rfl

/-- The first unsuccessful result is kept with everything it says. -/
theorem capture_of_failure (hresult : result.isSuccess = false)
    (hnone : snapshot.original = none) : ∃ original,
    (snapshot.capture result).original = some original ∧
      original.Contains result ∧ result.Contains original := by
  refine ⟨_, by simp only [capture, hresult, hnone]; rfl, ?_, ?_⟩
  · exact ⟨id, fun _ h => h, fun _ h => h⟩
  · exact ⟨id, fun _ h => h, fun _ h => h⟩

variable [DecidableEq ν]

theorem restore_of_none (h : snapshot.original = none) : snapshot.restore result = result := by
  simp [restore, h]

/-- What a snapshot keeps is in every result it restores. -/
theorem restore_contains {original : CommandResult ρ ν}
    (h : snapshot.original = some original) : (snapshot.restore result).Contains original := by
  simp only [restore, h]
  refine ⟨fun hdenied => ?_, List.subset_append_left _ _, List.subset_append_left _ _⟩
  simp [commandResult, hdenied]

/-- Once something is kept, a restored result succeeds only when it says nothing. -/
theorem restore_isSuccess_iff {original : CommandResult ρ ν}
    (h : snapshot.original = some original) :
    (snapshot.restore result).isSuccess = true ↔ (snapshot.restore result).Contentless := by
  simp only [restore, h]
  exact commandResult_isSuccess_iff

theorem restore_response {original : CommandResult ρ ν}
    (h : snapshot.original = some original) : (snapshot.restore result).response = none := by
  simp only [restore, h, commandResult, ite_self]

/-- With nothing said by what is kept, a restored result says what the result says. -/
theorem restore_contentless_iff {original : CommandResult ρ ν}
    (h : snapshot.original = some original) (horiginal : original.Contentless) :
    (snapshot.restore result).Contentless ↔ result.Contentless := by
  obtain ⟨hauthorized, hissues, hmessages⟩ := horiginal
  simp only [restore, h]
  constructor
  · rintro ⟨h₁, h₂, h₃⟩
    simp only [commandResult, hauthorized, hissues, hmessages] at h₁ h₂ h₃
    exact ⟨by simpa using h₁, by simpa using h₂, by simpa using h₃⟩
  · rintro ⟨h₁, h₂, h₃⟩
    exact ⟨by simp [commandResult, h₁, hauthorized], by simp [commandResult, h₂, hissues],
      by simp [commandResult, h₃, hmessages]⟩

end CommandFailureSnapshot

end Arc.Commands
