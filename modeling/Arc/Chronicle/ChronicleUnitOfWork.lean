import Arc.Chronicle.AppendResults
import Arc.Commands.CommandOperations
import Arc.Foundation.PlainObject

/-!
# The Chronicle unit of work

A unit of work collects the events a command chain returns and appends them in one batch
when the root command completes. `commit` changes the disposition as it goes: it is
unknown while the append is out, and settled by its answer; one catch block answers for
the cancellation check, the append and the wait for the observers after it.

The calls `commit` makes are given by what they do. Events, event stores and concurrency
scopes are parameters; scopes are compared by their JSON text, stores by identity.
-/

namespace Arc.Chronicle

open Arc.Commands

/-- A command context; `identity` tells two contexts apart. -/
structure CommandContext where
  identity : ℕ
  tenantId : String
  correlationId : String
  deriving DecidableEq

/-- The pending events of an aggregate, and how many of them are staged. -/
structure AggregateRoot where
  pending : ℕ
  staged : ℕ

/-- One returned-event batch for the entire nested Arc command chain. Events come with the
store they are for, and the disposition is touched by `commit` alone. -/
structure ChronicleUnitOfWork (ε σ κ : Type*) where
  context : CommandContext
  entries : List ε := []
  aggregates : List AggregateRoot := []
  scopes : InsertionMap String κ := .empty
  store : Option σ := none
  nestedFailure : Bool := false
  completed : Bool := false
  disposition : CommandCommitDisposition := .noCommit
  store_of_entries : entries ≠ [] → store.isSome := by simp
  disposition_of_open : completed = false → disposition = .noCommit := by simp

/-- The disposition of a unit that was never completed, as its field states it. -/
theorem noCommit_of_open :
    false = false → CommandCommitDisposition.noCommit = CommandCommitDisposition.noCommit :=
  fun _ => rfl

/-- What a completion timeout is: an integer, or a number that is none. -/
inductive CompletionTimeout
  | integer (milliseconds : ℤ)
  | other
  deriving DecidableEq

/-- What the kernel reports of its observers. -/
structure ObserverCompletion where
  isSuccess : Bool
  failedPartitions : ℕ

/-- How the race between the completion of the observers and the cancellation ends. -/
inductive Race
  | canceled
  | rejected (error : Thrown ValidationResult)
  | completed (completion : ObserverCompletion)

/-- The wait for the observers: whether the signal is aborted before it, and how it ends. -/
structure Waiting where
  aborted : Bool := false
  race : Race

/-- What `appendMany` does; `unreadable` is an answer whose results cannot be traversed. -/
inductive Append
  | throws (error : Thrown ValidationResult)
  | unreadable (error : Thrown ValidationResult)
  | returns (results : List AppendResult)

/-- The calls of one `commit`. -/
structure CommitCalls where
  aborted : Bool := false
  reason : Thrown ValidationResult
  append : Append
  waiting : Waiting

/-- What a call of `commit` leaves, its answer, and the batch it has issued. -/
structure Commit (ε σ κ ρ : Type*) where
  unit : ChronicleUnitOfWork ε σ κ
  answer : Except (Thrown ValidationResult) (CommandResult ρ ValidationResult)
  issued : Option (List ε) := none

/-- What the response handler stages for an aggregate. -/
structure Staging (ε σ κ : Type*) where
  store : σ
  entries : List ε
  scopes : List (String × κ) := []

/-- The calls of one `complete` of the command scope; `handle` is what the response handler
does with the aggregate at a position. -/
structure CompleteCalls (ε σ κ : Type*) where
  resolve : Option (Thrown ValidationResult) := none
  handle : ℕ → Except (Thrown ValidationResult) (Staging ε σ κ)
  commit : CommitCalls

/-- The scope that commits the unit of a command; `begin` gives it its unit. -/
structure ChronicleCommandScope (ε σ κ : Type*) where
  unit : Option (ChronicleUnitOfWork ε σ κ) := none
  completionTimeoutMs : Option CompletionTimeout := none

/-- What a call of `complete` leaves, what it throws, and the batch that was issued. -/
structure Completed (ε σ κ ρ : Type*) where
  scope : ChronicleCommandScope ε σ κ
  result : CommandResult ρ ValidationResult
  thrown : Option (Thrown ValidationResult) := none
  issued : Option (List ε) := none

variable {ε σ κ ρ : Type*}

def AggregateRoot.hasUnstagedEvents (aggregate : AggregateRoot) : Bool :=
  decide (aggregate.staged < aggregate.pending)

/-! ### Waiting for the observers -/

/-- `Number.isSafeInteger(timeoutMs) && timeoutMs > 0` -/
def CompletionTimeout.usable : CompletionTimeout → Bool
  | .integer milliseconds => decide (0 < milliseconds ∧ milliseconds ≤ 9007199254740991)
  | .other => false

def ObserverCompletion.failed (completion : ObserverCompletion) : Bool :=
  !completion.isSuccess || completion.failedPartitions != 0

/-- Wait for the kernel's observer tail; `none` when nothing is thrown. -/
def waitForProjectionCompletion (results : List AppendResult) (timeout : Option CompletionTimeout)
    (waiting : Waiting) : Option (Thrown ValidationResult) :=
  match timeout with
  | none => none
  | some timeout =>
      if results.isEmpty then none
      else if !timeout.usable then
        some (.error "Chronicle completion timeout must be a positive integer in milliseconds")
      else if waiting.aborted then none
      else
        match waiting.race with
        -- cancellation stops waiting, not the acknowledged append
        | .canceled => none
        | .rejected error => some error
        | .completed completion =>
            if completion.failed then
              some (.error ("Chronicle append committed, but observer completion failed for " ++
                toString completion.failedPartitions ++ " partition(s)"))
            else none

/-! ### The unit of work -/

namespace ChronicleUnitOfWork

def hasStagedEvents (unit : ChronicleUnitOfWork ε σ κ) : Bool :=
  !unit.entries.isEmpty || unit.aggregates.any AggregateRoot.hasUnstagedEvents

def track (unit : ChronicleUnitOfWork ε σ κ) (aggregate : AggregateRoot) :
    ChronicleUnitOfWork ε σ κ :=
  { unit with aggregates := unit.aggregates ++ [aggregate] }

/-- Enter the concurrency scopes of one batch; what precedes a conflict stays entered. A name
that every object inherits reads a member, and no scope has the text of one. -/
def enterScopes [DecidableEq κ] : InsertionMap String κ → List (String × κ) →
    InsertionMap String κ × Option (Thrown ValidationResult)
  | scopes, [] => (scopes, none)
  | scopes, (name, scope) :: rest =>
      match scopes.read name with
      | .own entered =>
          if entered = scope then enterScopes (scopes.set name scope) rest
          else (scopes, some (.error ("Conflicting Chronicle concurrency scope: " ++ name)))
      | .inherited => (scopes, some (.error ("Conflicting Chronicle concurrency scope: " ++ name)))
      | .absent => enterScopes (scopes.set name scope) rest

/-- Stage events for the batch, with the error that is thrown. -/
def stage [DecidableEq σ] [DecidableEq κ] (unit : ChronicleUnitOfWork ε σ κ) (store : σ)
    (context : CommandContext) (entries : List ε) (scopes : List (String × κ)) :
    ChronicleUnitOfWork ε σ κ × Option (Thrown ValidationResult) :=
  if unit.completed then
    (unit, some (.error "Cannot stage events in a completed Chronicle unit of work"))
  else if context.tenantId ≠ unit.context.tenantId ∨
      context.correlationId ≠ unit.context.correlationId then
    (unit, some (.error "Nested Chronicle commands must share tenant and correlation ID"))
  else if unit.store.any (· ≠ store) then
    (unit, some (.error "Nested Chronicle commands must use the same event store and namespace"))
  else
    let entered := enterScopes unit.scopes scopes
    match entered.2 with
    | some error =>
        ({ unit with store := some store, scopes := entered.1, store_of_entries := fun _ => rfl },
          some error)
    | none =>
        ({ unit with entries := unit.entries ++ entries, store := some store,
                     scopes := entered.1, store_of_entries := fun _ => rfl }, none)

/-- An aggregate whose events were staged. -/
def advance (unit : ChronicleUnitOfWork ε σ κ) (index count : ℕ) : ChronicleUnitOfWork ε σ κ :=
  { unit with aggregates := unit.aggregates.modify index fun aggregate =>
      { aggregate with staged := aggregate.staged + count } }

/-- Hand the aggregates with unstaged events to the response handler, in order. -/
def stageAggregates [DecidableEq σ] [DecidableEq κ] (context : CommandContext)
    (handle : ℕ → Except (Thrown ValidationResult) (Staging ε σ κ)) :
    List ℕ → ChronicleUnitOfWork ε σ κ →
      ChronicleUnitOfWork ε σ κ × Option (Thrown ValidationResult)
  | [], unit => (unit, none)
  | index :: rest, unit =>
      if unit.aggregates[index]?.any AggregateRoot.hasUnstagedEvents then
        match handle index with
        | .error error => (unit, some error)
        | .ok staging =>
            let staged := unit.stage staging.store context staging.entries staging.scopes
            match staged.2 with
            | some error => (staged.1, some error)
            | none =>
                stageAggregates context handle rest (staged.1.advance index staging.entries.length)
      else stageAggregates context handle rest unit

/-- Stage the events the tracked aggregates have left. -/
def enroll [DecidableEq σ] [DecidableEq κ] (unit : ChronicleUnitOfWork ε σ κ)
    (context : CommandContext) (resolve : Option (Thrown ValidationResult))
    (handle : ℕ → Except (Thrown ValidationResult) (Staging ε σ κ)) :
    ChronicleUnitOfWork ε σ κ × Option (Thrown ValidationResult) :=
  if unit.aggregates.any AggregateRoot.hasUnstagedEvents then
    match resolve with
    | some error => (unit, some error)
    | none => stageAggregates context handle (List.range unit.aggregates.length) unit
  else (unit, none)

/-- A nested command completes: its failure is remembered. -/
def nestedCompleted (unit : ChronicleUnitOfWork ε σ κ)
    (result : CommandResult ρ ValidationResult) :
    Except (Thrown ValidationResult) (ChronicleUnitOfWork ε σ κ) :=
  if unit.completed then
    .error (.error "Cannot complete a nested command in a completed Chronicle unit of work")
  else .ok { unit with nestedFailure := unit.nestedFailure || !result.isSuccess }

/-- A completed unit with the given disposition. -/
def close (unit : ChronicleUnitOfWork ε σ κ) (disposition : CommandCommitDisposition) :
    ChronicleUnitOfWork ε σ κ :=
  { unit with completed := true, disposition := disposition,
              disposition_of_open := fun h => nomatch h }

/-- The result of a command whose commit failed. -/
def failed (result : CommandResult ρ ValidationResult) (message : String) (stack : String) :
    CommandResult ρ ValidationResult :=
  { result with
    response := none
    exceptionMessages := result.exceptionMessages ++ [message]
    exceptionStackTrace := stack
    hasExceptions := true
    isSuccess := false }

/-- The catch block of `commit`. -/
def caught (unit : ChronicleUnitOfWork ε σ κ) (result : CommandResult ρ ValidationResult)
    (error : Thrown ValidationResult) (issued : Option (List ε)) : Commit ε σ κ ρ where
  unit :=
    if unit.store.isNone || unit.disposition != .unknown then unit.close .notCommitted else unit
  answer := .ok (failed result error.text (error.stack.getD ""))
  issued := issued

/-- Read the answer to the batch that was issued. -/
def settle (unit : ChronicleUnitOfWork ε σ κ) (result : CommandResult ρ ValidationResult)
    (timeout : Option CompletionTimeout) (calls : CommitCalls) : Commit ε σ κ ρ :=
  let issued := some unit.entries
  match calls.append with
  | .throws error => caught (unit.close .unknown) result error issued
  | .unreadable error => caught (unit.close .unknown) result error issued
  | .returns results =>
      match checkResults results unit.entries.length with
      | .error error => caught (unit.close .unknown) result error issued
      | .ok none =>
          match waitForProjectionCompletion results timeout calls.waiting with
          | some error => caught (unit.close .committed) result error issued
          | none => { unit := unit.close .committed, answer := .ok result, issued := issued }
      | .ok (some (.validation issues)) =>
          { unit := unit.close .notCommitted
            answer := .ok { result with
              response := none, validationResults := issues, isValid := false, isSuccess := false }
            issued := issued }
      | .ok (some (.denied _)) =>
          caught (unit.close .unknown) result (.error "Unexpected Chronicle append outcome") issued

def commit (unit : ChronicleUnitOfWork ε σ κ) (result : CommandResult ρ ValidationResult)
    (timeout : Option CompletionTimeout) (calls : CommitCalls) : Commit ε σ κ ρ :=
  if unit.completed then
    { unit := unit
      answer := .error (.error "Chronicle unit of work has already completed") }
  else if !result.isSuccess then
    { unit := unit.close unit.disposition, answer := .ok result }
  else if unit.nestedFailure then
    { unit := unit.close unit.disposition
      answer := .ok (failed result "Nested Chronicle command failed; staged events were discarded"
        result.exceptionStackTrace) }
  else if unit.entries.isEmpty then
    { unit := unit.close unit.disposition, answer := .ok result }
  else if calls.aborted then caught (unit.close unit.disposition) result calls.reason none
  else unit.settle result timeout calls

end ChronicleUnitOfWork

/-! ### The command scope -/

namespace ChronicleCommandScope

def isCommitParticipant (scope : ChronicleCommandScope ε σ κ) : Bool :=
  scope.unit.any ChronicleUnitOfWork.hasStagedEvents

/-- The scope takes the running unit, also when it then throws. -/
def «begin» (scope : ChronicleCommandScope ε σ κ) (active : Option (ChronicleUnitOfWork ε σ κ))
    (context : CommandContext) :
    ChronicleCommandScope ε σ κ × Option (Thrown ValidationResult) :=
  let scope := { scope with unit := active }
  match active with
  | none =>
      (scope, some (.error "Chronicle command scope requires a running Chronicle command"))
  | some unit =>
      if context.tenantId ≠ unit.context.tenantId ∨
          context.correlationId ≠ unit.context.correlationId then
        (scope, some (.error "Nested Chronicle commands must share tenant and correlation ID"))
      else (scope, none)

def getCommitDisposition (scope : ChronicleCommandScope ε σ κ) (context : CommandContext) :
    CommandCommitDisposition :=
  match scope.unit with
  | none => .unknown
  | some unit =>
      if context = unit.context ∨ context.correlationId = unit.context.correlationId then
        if unit.disposition = .noCommit ∧ unit.hasStagedEvents = true then .notCommitted
        else unit.disposition
      else .unknown

/-- Complete the scope: stage what its aggregates have left, then commit. A unit of another
context is left alone. -/
def complete [DecidableEq σ] [DecidableEq κ] (scope : ChronicleCommandScope ε σ κ)
    (context : CommandContext) (result : CommandResult ρ ValidationResult)
    (calls : CompleteCalls ε σ κ) : Completed ε σ κ ρ :=
  match scope.unit with
  | none => { scope := scope, result := result }
  | some unit =>
      if unit.context ≠ context then { scope := scope, result := result }
      else
        let enrolled :=
          if result.isSuccess then unit.enroll context calls.resolve calls.handle else (unit, none)
        match enrolled.2 with
        | some error =>
            { scope := { scope with unit := some enrolled.1 }, result := result,
              thrown := some error }
        | none =>
            let commit := enrolled.1.commit result scope.completionTimeoutMs calls.commit
            match commit.answer with
            | .error error =>
                { scope := { scope with unit := some commit.unit }, result := result,
                  thrown := some error, issued := commit.issued }
            | .ok answer =>
                { scope := { scope with unit := some commit.unit }, result := answer,
                  issued := commit.issued }

end ChronicleCommandScope

end Arc.Chronicle
