import Arc.Queries.QueryResult

/-!
# The emissions of an observable query session

What the world does to one emission is a record: how rendering it ends, what each
guard answers, how reporting ends, whether the server is shutting down, what the
consumer does with the result and how closing the source ends. Given such records,
the generator of `results` and the one-shot `current` are functions; the log of the
stream says which emission was received, evaluated and yielded.
-/

namespace Arc.Observable

open Queries

/-- A thrown value, with what the catch blocks ask of it. -/
structure Failure where
  text : String
  isAbortError : Bool := false
  isRegistryDisposed : Bool := false
  deriving DecidableEq, Repr

inductive ObservableEmissionDecision
  | allow
  | suppress
  | denyAndTerminate
  deriving DecidableEq, Repr

/-- How resolving a guard and asking it ends; `invalid` stands for any other value. -/
inductive GuardOutcome
  | decided (decision : ObservableEmissionDecision)
  | invalid
  | throws (error : Failure)
  deriving DecidableEq, Repr

/-- A result of the operation's renderers, with the failure recorded for it. -/
structure Rendered (δ ν : Type*) where
  result : QueryResult δ ν
  failure : Option Failure

/-- What the consumer does once it has a result. -/
inductive Consumer
  | next
  | returns
  deriving DecidableEq, Repr

/-- What happens around one emission of the source. `stopping` and `stopped` say whether a
shutdown transaction has aborted the session before the rendering and after the guards,
`release` how closing the source ends when the stream is left at this emission. -/
structure Emission (δ ν : Type*) where
  stopping : Bool := false
  render : Except Failure (Rendered δ ν)
  reportRendered : Except Failure Unit := .ok ()
  preflight : Except Failure Unit := .ok ()
  check : ℕ → GuardOutcome
  reportDenied : Except Failure Unit := .ok ()
  reportError : Except Failure Unit := .ok ()
  stopped : Bool := false
  consumer : Consumer := .next
  release : Except Failure Unit := .ok ()

/-- What the source hands to the stream. -/
inductive Arrival (δ ν : Type*)
  | emission (e : Emission δ ν)
  | failed (error : Failure)

/-- The state in which the stream's catch block finds the session. -/
structure Caught where
  aborted : Bool := false
  transaction : Bool := false
  servicesDisposed : Bool := false
  report : Except Failure Unit := .ok ()

/-- The log of a stream; an exception result belongs to no emission. -/
inductive StreamEvent (δ ν : Type*)
  | received (e : Emission δ ν)
  | evaluated (e : Emission δ ν) (isFirstEmission : Bool)
  | yielded (e : Option (Emission δ ν)) (result : QueryResult δ ν)

/-- How the generator goes on after an emission. -/
inductive Next
  | continues (firstEmissionDelivered : Bool)
  | leaves
  | throws (error : Failure)

structure ObservableQuerySession (δ ν : Type*) where
  correlationId : String
  guards : ℕ
  exposeExceptionDetails : Bool
  result : Option (QueryResult δ ν)
  source : Bool

def invalidDecision : Failure where
  text := "Error: Invalid observable emission decision"

def sourceNotInitialized : Failure where
  text := "Error: Observable query source was not initialized"

/-- The loop over the guards. -/
def checkGuards (mostRestrictive : ObservableEmissionDecision) :
    List GuardOutcome → Except Failure ObservableEmissionDecision
  | [] => .ok mostRestrictive
  | .decided .denyAndTerminate :: _ => .ok .denyAndTerminate
  | .decided .suppress :: rest => checkGuards .suppress rest
  | .decided .allow :: rest => checkGuards mostRestrictive rest
  | .invalid :: _ => .error invalidDecision
  | .throws error :: _ => .error error

namespace ObservableQuerySession

variable {δ ν : Type*} (session : ObservableQuerySession δ ν)

/-- The initial outcome, if the query was refused. -/
def rejection : Option (QueryResult δ ν) := session.result.filter fun r => !r.isSuccess

def redact (result : QueryResult δ ν) : QueryResult δ ν :=
  if session.exposeExceptionDetails || !result.hasExceptions then result
  else { result with
    exceptionMessages := ["An unexpected error occurred"]
    exceptionStackTrace := "" }

/-- The result a refused emission is answered with. -/
def denied : QueryResult δ ν := queryResult session.correlationId { isAuthorized := false }

/-- The result a failed stream ends with. -/
def unexpected (error : Failure) : QueryResult δ ν :=
  queryResult session.correlationId
    { exceptionMessages := [if session.exposeExceptionDetails then error.text
        else "An unexpected error occurred"] }

def reportResult (e : Emission δ ν) (rendered : Rendered δ ν) : Except Failure Unit :=
  if rendered.failure.isSome then e.reportRendered else .ok ()

/-- The answers of all guards to an emission. -/
def outcomes (e : Emission δ ν) : List GuardOutcome := (List.range session.guards).map e.check

def evaluates (result : QueryResult δ ν) : Bool := result.isSuccess && decide (session.guards ≠ 0)

def decision (e : Emission δ ν) : Except Failure ObservableEmissionDecision :=
  match e.preflight with
  | .error error => .error error
  | .ok _ => checkGuards .allow (session.outcomes e)

/-- Report why an emission is refused; what the second report throws is thrown on. -/
def refuse (e : Emission δ ν) : Except Failure (Option (QueryResult δ ν)) :=
  match e.reportError with
  | .ok _ => .ok (some session.denied)
  | .error error => .error error

def guarded (e : Emission δ ν) (result : QueryResult δ ν) :
    Except Failure (Option (QueryResult δ ν)) :=
  if session.evaluates result then
    match session.decision e with
    | .ok .allow => .ok (some result)
    | .ok .suppress => .ok none
    | .ok .denyAndTerminate =>
        match e.reportDenied with
        | .ok _ => .ok (some session.denied)
        | .error _ => session.refuse e
    | .error _ => session.refuse e
  else .ok (some result)

/-- The stream goes on after this result. -/
def goesOn (result : QueryResult δ ν) : Bool :=
  result.isAuthorized && !result.hasExceptions && result.isValid

/-- The body of the loop, for one emission. -/
def deliver (firstEmissionDelivered : Bool) (e : Emission δ ν) : List (StreamEvent δ ν) × Next :=
  if e.stopping then ([], .leaves)
  else
    match e.render with
    | .error error => ([], .throws error)
    | .ok rendered =>
        match reportResult e rendered with
        | .error error => ([], .throws error)
        | .ok _ =>
            let evaluated := if session.evaluates rendered.result then
              [.evaluated e !firstEmissionDelivered] else []
            match session.guarded e rendered.result with
            | .error error => (evaluated, .throws error)
            | .ok guarded =>
                if e.stopped then (evaluated, .leaves)
                else
                  match guarded with
                  | none => (evaluated, .continues firstEmissionDelivered)
                  | some result =>
                      (evaluated ++ [.yielded (some e) (session.redact result)],
                        if e.consumer = .returns then .leaves
                        else if goesOn result then
                          .continues (firstEmissionDelivered || result.isSuccess)
                        else .leaves)

/-- The loop over the emissions, with what it throws. Leaving it closes the source, and a
failure to do so is thrown in place of the return. -/
def emissions : Bool → List (Arrival δ ν) → List (StreamEvent δ ν) × Except Failure Unit
  | _, [] => ([], .ok ())
  | _, .failed error :: _ => ([], .error error)
  | firstEmissionDelivered, .emission e :: rest =>
      match session.deliver firstEmissionDelivered e with
      | (events, .continues delivered) =>
          (.received e :: (events ++ (emissions delivered rest).1), (emissions delivered rest).2)
      | (events, .leaves) => (.received e :: events, e.release)
      | (events, .throws error) => (.received e :: events, .error error)

/-- What the catch block yields, and what it throws. -/
def caught (c : Caught) (error : Failure) : List (StreamEvent δ ν) × Except Failure Unit :=
  if c.aborted then
    if error.isAbortError || (c.transaction && c.servicesDisposed && error.isRegistryDisposed) then
      ([], .ok ())
    else ([], .error error)
  else
    match c.report with
    | .error failure => ([], .error failure)
    | .ok _ => ([.yielded none (session.unexpected error)], .ok ())

/-- The loop inside its catch block. -/
def guardedEmissions (c : Caught) (firstEmissionDelivered : Bool) (arrivals : List (Arrival δ ν)) :
    List (StreamEvent δ ν) × Except Failure Unit :=
  match session.emissions firstEmissionDelivered arrivals with
  | (events, .ok _) => (events, .ok ())
  | (events, .error error) =>
      (events ++ (session.caught c error).1, (session.caught c error).2)

/-- The whole stream of a session, up to the closing of its scope. -/
def streamResults (c : Caught) (arrivals : List (Arrival δ ν)) :
    List (StreamEvent δ ν) × Except Failure Unit :=
  match session.rejection with
  | some result => ([.yielded none (session.redact result)], .ok ())
  | none =>
      if session.source then session.guardedEmissions c false arrivals
      else session.caught c sourceNotInitialized

/-- The current value of the source, when `present` says it has one. -/
def current (present : Except Failure Bool) (e : Emission δ ν) :
    Except Failure (Option (QueryResult δ ν)) :=
  if session.source then
    match present with
    | .error error => .error error
    | .ok false => .ok none
    | .ok true =>
        match e.render with
        | .error error => .error error
        | .ok rendered =>
            match reportResult e rendered with
            | .error error => .error error
            | .ok _ => session.guarded e rendered.result
  else .ok none

end ObservableQuerySession

end Arc.Observable
