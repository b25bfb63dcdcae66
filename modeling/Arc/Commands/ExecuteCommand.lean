import Arc.Commands.CommandOperations

/-!
# Executing a command

A command is given by what the code it calls does: its stages up to the response by
their outcome, its scopes by the calls `create`, `begin`, `complete` and
`getCommitDisposition`, its operations by their plan. `complete` is any function of the
result it is given, since a scope may set every field of it.

`executeCommandOperation` begins the scopes, handles the command, enters its
operations, completes the scopes in reverse and recovers. Besides the result, a run
holds the result as it stood after each step, what the scopes did, and the log.
-/

namespace Arc.Commands

/-- What `getCommitDisposition` does. -/
inductive CommitReport (ν : Type*)
  | absent
  | reports (disposition : CommandCommitDisposition)
  | invalid
  | throws (error : Thrown ν)

/-- What a call of `complete` does: the result as it leaves it, and what it throws. -/
structure Completion (ρ ν : Type*) where
  leaves : CommandResult ρ ν
  thrown : Option (Thrown ν) := none

/-- A scope and what its calls do. A report is `none` while the scope is no commit
participant; `reportBefore` is asked for before the operations start. -/
structure CommandExecutionScope (ρ ν : Type*) where
  create : Option (Thrown ν) := none
  begin : Option (Thrown ν) := none
  aborts : Bool := false
  complete : CommandResult ρ ν → Completion ρ ν
  reportBefore : Option (CommitReport ν) := none
  reportAfter : Option (CommitReport ν) := none

/-- How the handler and the preparation of its response end. -/
inductive Handled (ρ ν : Type*)
  | throws (error : Thrown ν)
  | completed (values : CommandResultValues ρ ν)
  | prepared (values : CommandResultValues ρ ν) (operations : Option (List (PlannedOperation ν)))
  | failed (operations : Option (List (PlannedOperation ν))) (error : Thrown ν)

/-- A function on the response that may reject it. -/
abbrev Conversion (ρ ν : Type*) := Option ρ → Except (Thrown ν) (Option ρ)

/-- A command and what the code it calls does. The checks for cancellation between two
stages are part of the outcome of the first; `aborted` says whether the signal is aborted
once the response is prepared, `abortedByReport` once the scopes have reported. -/
structure Command (ρ ν : Type*) where
  correlationId : String
  reason : Thrown ν
  preflight : Except (Thrown ν) (Option (CommandResultValues ρ ν)) := .ok none
  validateOnly : Bool := false
  dependencies : Option (Thrown ν) := none
  scopes : List (CommandExecutionScope ρ ν) := []
  provide : Except (Thrown ν) (Option (CommandResultValues ρ ν)) := .ok none
  handled : Handled ρ ν
  encodeResponse : Conversion ρ ν := .ok
  clientOutput : Conversion ρ ν := .ok
  aborted : Bool := false
  abortedByReport : Bool := false

/-- A result, and what is kept of the first failure. -/
structure Standing (ρ ν : Type*) where
  snapshot : CommandFailureSnapshot ρ ν
  result : CommandResult ρ ν

/-- What `handle` returns. -/
structure Response (ρ ν : Type*) where
  result : CommandResult ρ ν
  journal : Option (CommandOperationExecution ν)
  prepared : Bool
  failure : Option (Thrown ν) := none

/-- Where the command stands before its scopes are completed. -/
structure Attempt (ρ ν : Type*) extends Standing ρ ν where
  journal : Option (CommandOperationExecution ν)
  source : CommandOperationFailureSource := .responseHandling
  log : List CommandEvent := []

/-- Where the command stands while its scopes are completed. -/
structure Completing (ρ ν : Type*) extends Standing ρ ν where
  source : CommandOperationFailureSource
  completions : List (Completion ρ ν) := []
  log : List CommandEvent := []

/-- A run of a command. -/
structure Run (ρ ν : Type*) where
  result : CommandResult ρ ν
  steps : List (CommandResult ρ ν) := []
  completions : List (Completion ρ ν) := []
  planned : Option (List (PlannedOperation ν)) := none
  log : List CommandEvent := []

variable {ρ ν : Type*}

/-- The dispositions that do not tell what is committed. -/
def CommandCommitDisposition.uncertain (disposition : CommandCommitDisposition) : Bool :=
  disposition == .unknown || disposition == .mixed

def CommandCommitDisposition.name : CommandCommitDisposition → String
  | .noCommit => "NoCommit"
  | .notCommitted => "NotCommitted"
  | .committed => "Committed"
  | .unknown => "Unknown"
  | .mixed => "Mixed"

/-- The disposition the scopes report. -/
def disposition (reports : List (Option (CommitReport ν))) :
    Except (Thrown ν) CommandCommitDisposition :=
  match reports.filterMap id with
  | [] => .ok .noCommit
  | [.absent] => .ok .noCommit
  | [.reports disposition] => .ok disposition
  | [.invalid] => .error (.error "Invalid command commit disposition")
  | [.throws error] => .error error
  | _ => .error (.error "Operations support at most one deferred commit participant")

/-- `result = commandFailure(context, error, result); snapshot.capture(result)` -/
def Standing.fail (standing : Standing ρ ν) (error : Thrown ν) : Standing ρ ν :=
  let result := commandFailure standing.snapshot.correlationId error (some standing.result)
  { snapshot := standing.snapshot.capture result, result := result }

def Standing.restored [DecidableEq ν] (standing : Standing ρ ν) : Standing ρ ν :=
  { standing with result := standing.snapshot.restore standing.result }

/-- The result once the failure of `complete` is merged into what it leaves. -/
def Completion.outcome (correlationId : String) (completion : Completion ρ ν) :
    CommandResult ρ ν :=
  match completion.thrown with
  | none => completion.leaves
  | some error => commandFailure correlationId error (some completion.leaves)

/-- Begin the scopes in order. The scopes that are pushed are returned with what stopped the
loop; a scope is pushed before its `begin` is called. -/
def beginScopes (reason : Thrown ν) : List (CommandExecutionScope ρ ν × ℕ) →
    List (CommandExecutionScope ρ ν × ℕ) × Option (Thrown ν)
  | [] => ([], none)
  | scope :: rest =>
      match scope.1.create with
      | some error => ([], some error)
      | none =>
          match scope.1.begin with
          | some error => ([scope], some error)
          | none =>
              if scope.1.aborts then ([scope], some reason)
              else
                let later := beginScopes reason rest
                (scope :: later.1, later.2)

namespace Command

def respond (command : Command ρ ν) : Except (Thrown ν) (Response ρ ν) :=
  match command.provide with
  | .error error => .error error
  | .ok values =>
      let result := commandResult command.correlationId (values.getD {})
      if result.isSuccess then
        match command.handled with
        | .throws error => .error error
        | .completed values =>
            .ok { result := commandResult command.correlationId values, journal := none,
                  prepared := true }
        | .prepared values operations =>
            .ok { result := commandResult command.correlationId values,
                  journal := operations.map fun planned => { planned := planned },
                  prepared := true }
        | .failed operations error =>
            -- the journal is kept for the completion of the scopes and the recovery
            .ok { result := commandResult command.correlationId {},
                  journal := operations.map fun planned => { planned := planned },
                  prepared := true, failure := some error }
      else .ok { result := result, journal := none, prepared := false }

def handle (command : Command ρ ν) :
    List (CommandExecutionScope ρ ν × ℕ) × Except (Thrown ν) (Response ρ ν) :=
  match command.dependencies with
  | some error => ([], .error error)
  | none =>
      let begun := beginScopes command.reason command.scopes.zipIdx
      match begun.2 with
      | some error => (begun.1, .error error)
      | none => (begun.1, command.respond)

/-- Encode the response of a success and check it against the declared output. -/
def encoded (command : Command ρ ν) (result : CommandResult ρ ν) :
    Except (Thrown ν) (CommandResult ρ ν) :=
  if result.isSuccess then
    match (command.encodeResponse result.response).bind command.clientOutput with
    | .error error => .error error
    | .ok response => .ok { result with response := response }
  else .ok result

/-- The catch block around the handler and the operations. -/
def caught (standing : Standing ρ ν) (journal : Option (CommandOperationExecution ν))
    (aborted : Bool) (source : CommandOperationFailureSource) (error : Thrown ν)
    (log : List CommandEvent) : Attempt ρ ν :=
  { standing.fail error with
    journal := journal
    source := if aborted then .cancellation else source
    log := log }

/-- Enter the operations of a response that succeeded. -/
def operate (command : Command ρ ν) (begun : List (CommandExecutionScope ρ ν × ℕ))
    (journal : CommandOperationExecution ν) (standing : Standing ρ ν) : Attempt ρ ν :=
  if command.aborted then
    caught standing (some journal) true .responseHandling command.reason []
  else
    match disposition (begun.map (·.1.reportBefore)) with
    | .error error =>
        caught standing (some journal) command.abortedByReport .responseHandling error []
    | .ok before =>
        if before.eligible then
          let execution := execute command.reason 0 command.abortedByReport journal.planned
          let journal := { journal with
            outcomes := execution.outcomes, failedIndex := execution.failedIndex }
          match execution.thrown with
          | none =>
              { standing with journal := some journal, source := .execution,
                              log := execution.log }
          | some error =>
              caught standing (some journal) execution.aborted .execution error execution.log
        else
          caught standing (some journal) command.abortedByReport .responseHandling
            (.error "Operations cannot start after an early, unknown, or mixed business commit") []

def start (command : Command ρ ν) (begun : List (CommandExecutionScope ρ ν × ℕ))
    (journal : Option (CommandOperationExecution ν)) (standing : Standing ρ ν) : Attempt ρ ν :=
  match journal with
  | none => { standing with journal := none }
  | some journal =>
      if standing.result.isSuccess then command.operate begun journal standing
      else { standing with journal := some journal }

/-- Everything between the begin and the completion of the scopes. -/
def attempt (command : Command ρ ν) (begun : List (CommandExecutionScope ρ ν × ℕ))
    (handled : Except (Thrown ν) (Response ρ ν)) : Attempt ρ ν :=
  let snapshot : CommandFailureSnapshot ρ ν := { correlationId := command.correlationId }
  match handled with
  | .error error =>
      caught { snapshot := snapshot, result := commandResult command.correlationId {} } none
        command.aborted .responseHandling error []
  | .ok response =>
      let standing : Standing ρ ν := { snapshot := snapshot, result := response.result }
      match response.failure with
      | some error =>
          caught standing response.journal command.aborted .responseHandling error []
      | none =>
          if response.prepared then
            match command.encoded response.result with
            | .error error =>
                caught standing response.journal command.aborted .responseHandling error []
            | .ok result =>
                command.start begun response.journal
                  { snapshot := snapshot.capture result, result := result }
          else command.start begun response.journal standing

/-- Complete one scope; with a journal it is given the restored result. -/
def completeScope [DecidableEq ν] (journaled : Bool) (completing : Completing ρ ν)
    (scope : CommandExecutionScope ρ ν × ℕ) : Completing ρ ν :=
  let given :=
    if journaled then completing.snapshot.restore completing.result else completing.result
  let completion := scope.1.complete given
  let result := completion.outcome completing.snapshot.correlationId
  { snapshot := completing.snapshot.capture result
    result := result
    source := if completion.thrown.isSome && completing.snapshot.original.isNone
      then .scopeCompletion else completing.source
    completions := completing.completions ++ [completion]
    log := completing.log ++ [.completed scope.2] }

/-- Check the response the scopes have left. -/
def assertOutput (command : Command ρ ν) (standing : Standing ρ ν) : Standing ρ ν :=
  if standing.result.isSuccess then
    match command.clientOutput standing.result.response with
    | .ok response => { standing with result := { standing.result with response := response } }
    | .error error => standing.fail error
  else standing

/-- The disposition that counts: what cannot be read is unknown. -/
def commit (reported : Except (Thrown ν) CommandCommitDisposition) : CommandCommitDisposition :=
  match reported with
  | .ok disposition => disposition
  | .error _ => .unknown

def readDisposition (reported : Except (Thrown ν) CommandCommitDisposition)
    (standing : Standing ρ ν) : Standing ρ ν :=
  match reported with
  | .ok _ => standing
  | .error error => standing.fail error

def refuseUncertain (disposition : CommandCommitDisposition) (standing : Standing ρ ν) :
    Standing ρ ν :=
  if standing.result.isSuccess && disposition.uncertain then
    standing.fail (.error ("Command commit disposition is " ++ disposition.name))
  else standing

/-- The messages the recovery is given; it recovers when there is one. -/
def failureMessages (standing : Standing ρ ν) : List String :=
  let messages := (standing.snapshot.original.getD standing.result).exceptionMessages
  if !standing.result.isSuccess && messages.isEmpty then ["Command failed"] else messages

/-- The disposition the scopes report after they are completed. -/
def reported (begun : List (CommandExecutionScope ρ ν × ℕ)) :
    Except (Thrown ν) CommandCommitDisposition :=
  disposition (begun.reverse.map (·.1.reportAfter))

/-- `if (!result.isSuccess) result.response = undefined` -/
def withhold (result : CommandResult ρ ν) : CommandResult ρ ν :=
  if result.isSuccess then result else { result with response := none }

def completeScopes [DecidableEq ν] (command : Command ρ ν)
    (begun : List (CommandExecutionScope ρ ν × ℕ)) (attempt : Attempt ρ ν) : Run ρ ν :=
  let completing := begun.reverse.foldl (completeScope attempt.journal.isSome)
    { attempt.toStanding with source := attempt.source }
  let steps := attempt.result ::
    completing.completions.map fun c => c.outcome completing.snapshot.correlationId
  let log := begun.map (.began ·.2) ++ attempt.log ++ completing.log
  match attempt.journal with
  | none =>
      let checked := command.assertOutput completing.toStanding
      { result := withhold checked.result
        steps := steps ++ [checked.result]
        completions := completing.completions
        log := log }
  | some journal =>
      let disposition := commit (reported begun)
      let checked := command.assertOutput completing.restored
      let read := readDisposition (reported begun) checked
      let final := refuseUncertain disposition read
      let recovery := journal.recover disposition (failureMessages final) completing.source
      { result := withhold { final.result with
          recovery := some recovery.summary, operationOutcomes := some recovery.outcomes }
        steps := steps ++ [checked.result, read.result, final.result]
        completions := completing.completions
        planned := some journal.planned
        log := log ++ recovery.log }

/-- Execute a validated command with its scopes and compensation journal. -/
def executeCommandOperation [DecidableEq ν] (command : Command ρ ν) : Run ρ ν :=
  match command.preflight with
  | .error error => { result := commandFailure command.correlationId error none }
  | .ok (some values) => { result := commandResult command.correlationId values }
  | .ok none =>
      if command.validateOnly then { result := commandResult command.correlationId {} }
      else command.completeScopes command.handle.1 (command.attempt command.handle.1 command.handle.2)

end Command

end Arc.Commands
