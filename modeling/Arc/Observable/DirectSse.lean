import Arc.Foundation.Machine
import Arc.Queries.QueryResult

/-!
# Direct server-sent events

`directSse` writes the results of a session to a stream. A pull keeps the promise of the next
result when a keep-alive is written in its place, and is suspended at each of its awaits; the
`closed` flag is set by the pull, by the consumer's cancellation and by the release of a shutdown.
The events are those of the session and its iterator, of the timer, of the consumer and of the
shutdown transaction, and the turns in which a suspended function goes on. The stream is the
platform's: a controller refuses frames, and to be closed, unless its stream is readable and no
close was requested.
-/

namespace Arc.Observable

open Arc.Queries (QueryResult)

variable {δ ν : Type}

/-- What a call of `next` gives. -/
inductive NextOutcome (δ ν : Type)
  | value (result : QueryResult δ ν)
  | done
  | throws

/-- The promise of the next result. -/
inductive PendingNext (δ ν : Type)
  | none
  | outstanding
  | settled (outcome : NextOutcome δ ν)

/-- What has won the race of a pull. -/
inductive PullRace (δ ν : Type)
  | keepalive
  | result (outcome : NextOutcome δ ν)

/-- Where a pull is suspended: in its race, at `session.close()` and `iterator.return()` after a
result that is the last, or at `reportTransportFailure` and `session.close()` after a failure. The
outcome of what is awaited is kept until the pull goes on. -/
inductive PullPhase (δ ν : Type)
  | idle
  | racing (winner : Option (PullRace δ ν))
  | closing
  | returning (outcome : Option Bool)
  | reporting (outcome : Option Bool)
  | closingAfter

/-- A race that is not won yet is won by the promise that settles. -/
def PullPhase.settle (outcome : NextOutcome δ ν) : PullPhase δ ν → PullPhase δ ν
  | .racing none => .racing (some (.result outcome))
  | pull => pull

/-- Where the callback of a cancellation is suspended. -/
inductive CancelWork
  | none
  | closing
  | returning (outcome : Option Bool)
  | settled
  deriving DecidableEq, Repr

/-- Where `joinWork` is, with which a shutdown transaction closes the session. -/
inductive JoinWork
  | none
  | returning (outcome : Option Bool)
  | closing
  | settled
  deriving DecidableEq, Repr

/-- `session.close()` has one promise. -/
inductive SessionClose
  | open'
  | closing
  | closed (ok : Bool)
  deriving DecidableEq, Repr

inductive StreamState
  | readable
  | closed
  | errored
  deriving DecidableEq, Repr

/-- What a pull fails with: an error of the iteration, of the session's close or of the
serialization of a result, or of the controller that it calls. -/
inductive DeliveryFailure
  | iteration
  | close
  | serialization
  | controller
  deriving DecidableEq, Repr

/-- What has happened to the stream. -/
inductive DeliveryEntry (δ ν : Type)
  | data (result : QueryResult δ ν) (frame : String)
  | keepalive
  | cancelled
  | released

/-- The delivery of one session. What has happened is kept too: the calls of `next` and its
answers, the results it gave, the entries of the stream and the failures that were reported. -/
structure DirectSse (δ ν : Type) where
  pending : PendingNext δ ν := .none
  closed : Bool := false
  stream : StreamState := .readable
  closeRequested : Bool := false
  queue : List String := []
  pull : PullPhase δ ν := .idle
  cancel : CancelWork := .none
  join : JoinWork := .none
  session : SessionClose := .open'
  iteratorFinished : Bool := false
  released : Bool := false
  calls : ℕ := 0
  answers : ℕ := 0
  results : List (QueryResult δ ν) := []
  log : List (DeliveryEntry δ ν) := []
  reported : List DeliveryFailure := []

inductive DeliveryEvent (δ ν : Type)
  | pull
  | next (outcome : NextOutcome δ ν)
  | timeout
  | resume
  | closeSettles (ok : Bool)
  | returnSettles (ok : Bool)
  | reportSettles (ok : Bool)
  | read
  | cancel
  | cancelReturns (ok : Bool)
  | cancelResumes
  | release
  | joinWork
  | joinReturns (ok : Bool)
  | joinResumes

/-- A result after which nothing follows. -/
def isLast (result : QueryResult δ ν) : Bool :=
  !result.isAuthorized || result.hasExceptions || !result.isValid

def dataFrame (json : String) : String := "data: " ++ json ++ "\n\n"

def keepaliveFrame : String := ": keepalive\n\n"

namespace DirectSse

/-! ### The stream -/

/-- Whether the controller takes a frame, or may be closed. -/
def isOpen (s : DirectSse δ ν) : Bool := s.stream == .readable && !s.closeRequested

/-- `controller.enqueue(frame)`, when the controller takes it. -/
def enqueue (s : DirectSse δ ν) (entry : DeliveryEntry δ ν) (frame : String) : DirectSse δ ν :=
  { s with queue := s.queue ++ [frame], log := s.log ++ [entry] }

/-- `controller.close()`, when it may be closed: the stream ends when its frames are read. -/
def closeController (s : DirectSse δ ν) : DirectSse δ ν :=
  { s with closeRequested := true, stream := if s.queue.isEmpty then .closed else s.stream }

/-- `controller.error(error)`, which does nothing to a stream that has ended. -/
def errorController (s : DirectSse δ ν) : DirectSse δ ν :=
  if s.stream = .readable then { s with stream := .errored, queue := [] } else s

/-- The consumer reads a frame. -/
def read (s : DirectSse δ ν) : Option (DirectSse δ ν) :=
  match s.stream, s.queue with
  | .readable, _ :: queue =>
      some { s with
        queue := queue
        stream := if queue.isEmpty && s.closeRequested then .closed else .readable }
  | _, _ => none

/-- `session.close()` -/
def closeSession (s : DirectSse δ ν) : DirectSse δ ν :=
  { s with session := if s.session = .open' then .closing else s.session }

/-! ### Pulls -/

/-- The `catch` block, up to its first await. -/
def fail (s : DirectSse δ ν) (failure : DeliveryFailure) : DirectSse δ ν :=
  { s.errorController with
    closed := true
    reported := s.reported ++ [failure]
    pull := .reporting none }

/-- A stream asks for a frame unless it is asking already. -/
def beginPull (s : DirectSse δ ν) : Option (DirectSse δ ν) :=
  match s.pull with
  | .idle =>
      if !s.isOpen then none
      else if s.closed then some s
      else
        match s.pending with
        | .none => some { s with
            pending := .outstanding, calls := s.calls + 1, pull := .racing none }
        | .outstanding => some { s with pull := .racing none }
        | .settled outcome => some { s with pull := .racing (some (.result outcome)) }
  | _ => none

/-- The promise of a call of `next` settles; an iterator that has finished gives nothing more. -/
def settleNext (s : DirectSse δ ν) (outcome : NextOutcome δ ν) : Option (DirectSse δ ν) :=
  match s.pending with
  | .outstanding =>
      let settled := { s with
        pending := .settled outcome
        answers := s.answers + 1
        pull := s.pull.settle outcome }
      match outcome with
      | .value result =>
          if s.iteratorFinished then none else some { settled with results := s.results ++ [result] }
      | _ => some { settled with iteratorFinished := true }
  | _ => none

/-- The timer of a race. -/
def timeout (s : DirectSse δ ν) : Option (DirectSse δ ν) :=
  match s.pull with
  | .racing none => some { s with pull := .racing (some .keepalive) }
  | _ => none

/-- A keep-alive is written. -/
def writeKeepalive (s : DirectSse δ ν) : DirectSse δ ν :=
  if s.isOpen then { s.enqueue .keepalive keepaliveFrame with pull := .idle }
  else s.fail .controller

/-- A result is written; after one that is the last the session is closed. -/
def deliver (stringifyWire : QueryResult δ ν → Option String) (s : DirectSse δ ν)
    (result : QueryResult δ ν) : DirectSse δ ν :=
  match stringifyWire result with
  | none => s.fail .serialization
  | some json =>
      if s.isOpen then
        let written := s.enqueue (.data result (dataFrame json)) (dataFrame json)
        if isLast result then { written.closeSession with closed := true, pull := .closing }
        else { written with pull := .idle }
      else s.fail .controller

/-- The iteration is over, or the session is closed after its last result. -/
def finish (s : DirectSse δ ν) : DirectSse δ ν :=
  if s.isOpen then { s.closeController with pull := .idle } else s.fail .controller

/-- A pull goes on after its race. -/
def raced (stringifyWire : QueryResult δ ν → Option String) (s : DirectSse δ ν) :
    PullRace δ ν → DirectSse δ ν
  | .result .throws => s.fail .iteration
  | .keepalive => if s.closed then { s with pull := .idle } else s.writeKeepalive
  | .result .done =>
      if s.closed then { s with pull := .idle }
      else { s with pending := .none, closed := true }.finish
  | .result (.value result) =>
      if s.closed then { s with pull := .idle }
      else { s with pending := .none }.deliver stringifyWire result

/-- A suspended pull goes on. -/
def resume (stringifyWire : QueryResult δ ν → Option String) (s : DirectSse δ ν) :
    Option (DirectSse δ ν) :=
  match s.pull with
  | .racing (some winner) => some (s.raced stringifyWire winner)
  | .closing =>
      match s.session with
      | .closed true => some { s with pull := .returning none }
      | .closed false => some (s.fail .close)
      | _ => none
  | .returning (some ok) => some (if ok then s.finish else s.fail .iteration)
  | .reporting (some _) => some { s.closeSession with pull := .closingAfter }
  | .closingAfter =>
      match s.session with
      | .closed _ => some { s with pull := .idle }
      | _ => none
  | _ => none

def reportSettles (s : DirectSse δ ν) (ok : Bool) : Option (DirectSse δ ν) :=
  match s.pull with
  | .reporting none => some { s with pull := .reporting (some ok) }
  | _ => none

/-! ### The session and its iterator -/

def closeSettles (s : DirectSse δ ν) (ok : Bool) : Option (DirectSse δ ν) :=
  match s.session with
  | .closing => some { s with session := .closed ok }
  | _ => none

/-- Whether a call of `return` may settle: the iterator answers its calls in turn. -/
def mayReturn (s : DirectSse δ ν) : Bool :=
  match s.pending with
  | .outstanding => false
  | _ => true

def returnSettles (s : DirectSse δ ν) (ok : Bool) : Option (DirectSse δ ν) :=
  match s.pull with
  | .returning none =>
      if s.mayReturn then some { s with pull := .returning (some ok), iteratorFinished := true }
      else none
  | _ => none

/-! ### Cancellation and release -/

/-- `cancel()`, for a stream that has not ended. -/
def beginCancel (s : DirectSse δ ν) : Option (DirectSse δ ν) :=
  if s.stream = .readable then
    some { s.closeSession with
      stream := .closed
      queue := []
      closed := true
      cancel := .closing
      log := s.log ++ [.cancelled] }
  else none

def cancelReturns (s : DirectSse δ ν) (ok : Bool) : Option (DirectSse δ ν) :=
  match s.cancel with
  | .returning none =>
      if s.mayReturn then some { s with cancel := .returning (some ok), iteratorFinished := true }
      else none
  | _ => none

def cancelResumes (s : DirectSse δ ν) : Option (DirectSse δ ν) :=
  match s.cancel with
  | .closing =>
      match s.session with
      | .closed _ => some { s with cancel := .returning none }
      | _ => none
  | .returning (some _) => some { s with cancel := .settled }
  | _ => none

/-- The release of the transport; a controller that is closed already is left alone. -/
def release (s : DirectSse δ ν) : DirectSse δ ν :=
  let released := { s with closed := true, released := true, log := s.log ++ [.released] }
  if s.isOpen then released.closeController else released

/-- `joinWork()`, in the work phase of a shutdown that has released the transport. -/
def beginJoin (s : DirectSse δ ν) : Option (DirectSse δ ν) :=
  match s.join with
  | .none => if s.released then some { s with join := .returning none } else none
  | _ => none

def joinReturns (s : DirectSse δ ν) (ok : Bool) : Option (DirectSse δ ν) :=
  match s.join with
  | .returning none =>
      if s.mayReturn then some { s with join := .returning (some ok), iteratorFinished := true }
      else none
  | _ => none

def joinResumes (s : DirectSse δ ν) : Option (DirectSse δ ν) :=
  match s.join with
  | .returning (some true) => some { s.closeSession with join := .closing }
  | .returning (some false) => some { s with join := .settled }
  | .closing =>
      match s.session with
      | .closed _ => some { s with join := .settled }
      | _ => none
  | _ => none

def step (stringifyWire : QueryResult δ ν → Option String) (s : DirectSse δ ν) :
    DeliveryEvent δ ν → Option (DirectSse δ ν)
  | .pull => s.beginPull
  | .next outcome => s.settleNext outcome
  | .timeout => s.timeout
  | .resume => s.resume stringifyWire
  | .closeSettles ok => s.closeSettles ok
  | .returnSettles ok => s.returnSettles ok
  | .reportSettles ok => s.reportSettles ok
  | .read => s.read
  | .cancel => s.beginCancel
  | .cancelReturns ok => s.cancelReturns ok
  | .cancelResumes => s.cancelResumes
  | .release => some s.release
  | .joinWork => s.beginJoin
  | .joinReturns ok => s.joinReturns ok
  | .joinResumes => s.joinResumes

def machine (stringifyWire : QueryResult δ ν → Option String) :
    Machine (DirectSse δ ν) (DeliveryEvent δ ν) where
  init := {}
  step := step stringifyWire

end DirectSse

end Arc.Observable
