import Mathlib.Data.List.Basic

/-!
# Observations of a collection

An opening asks the server for its time, opens a change stream and reads the initial snapshot;
`MongoObservation` then owns the stream. Its iteration waits for a change, drains the changes that
are queued and reads a snapshot, and each of these can be suspended when the observation is closed
or its signal aborted. A subscriber iterates the observation, and the disposal of a primed
snapshot closes it. The numbers of changes that were delivered and consumed, and that were consumed
when a read began and when the read of the last value began, are kept too.
-/

namespace Arc.MongoDB

/-- What an iteration or an opening fails with. An error of the stream tells whether it was raised
when the observation was closed or aborted. -/
inductive ObservationError
  | opening
  | consumed
  | stream (raisedClosed : Bool)
  | streamEnded
  | read
  | close
  deriving DecidableEq, Repr

/-- What `next` and `tryNext` give; without a change the stream has ended, or none is queued. -/
inductive StreamOutcome
  | change
  | none
  | fails (raisedClosed : Bool)
  deriving DecidableEq, Repr

/-- Where an opening is suspended: at the `hello` of the server, at the initial read, at
`observation.close()` when the signal is aborted, at `stream.close()` of its `catch` block; or it
has an observation, or has failed. -/
inductive OpeningPhase
  | hello
  | reading
  | aborting
  | failing
  | opened
  | failed
  deriving DecidableEq, Repr

/-- Where an iteration is suspended: at a `yield`, until the subscriber has taken the value, at
`next`, `tryNext` or a read, or in its `finally` block. -/
inductive Iteration
  | unstarted
  | yielded
  | taken
  | waiting (outcome : Option StreamOutcome)
  | draining (outcome : Option StreamOutcome)
  | reading (outcome : Option Bool)
  | finishing (error : Option ObservationError)
  | ended (error : Option ObservationError)
  deriving DecidableEq, Repr

/-- Where a subscription is suspended: at its opening, at the close of an observation that came
too late, or at the iteration. -/
inductive SubscriberPhase
  | opening
  | closing
  | iterating
  | done
  deriving DecidableEq, Repr

structure Subscriber where
  phase : SubscriberPhase := .opening
  closed : Bool := false
  unsubscribed : Bool := false
  completed : Bool := false
  reported : List ObservationError := []
  deriving DecidableEq, Repr

/-- Where `asyncDispose` of an observable is suspended, after it has taken a primed snapshot. -/
inductive DisposalPhase
  | opening
  | closing
  | done
  deriving DecidableEq, Repr

/-- An opening with its stream, its observation and those who use it. -/
structure Opening where
  phase : OpeningPhase := .hello
  watched : Bool := false
  closes : ℕ := 0
  built : Bool := false
  closed : Bool := false
  closeOutcome : Option Bool := none
  releases : ℕ := 0
  tracked : Bool := false
  queued : ℕ := 0
  iteration : Iteration := .unstarted
  delivered : ℕ := 0
  consumed : ℕ := 0
  readFrom : ℕ := 0
  emittedFrom : ℕ := 0
  failedOpen : Bool := false
  subscriber : Option Subscriber := none
  adoptions : ℕ := 0
  disposal : Option DisposalPhase := none
  deriving DecidableEq, Repr

inductive OpeningEvent
  | hello (ok : Bool)
  | initialRead (ok : Bool)
  | abortThrown
  | catchSettles
  | closeSettles (ok : Bool)
  | change
  | next (outcome : StreamOutcome)
  | tryNext (outcome : StreamOutcome)
  | read (ok : Bool)
  | resume
  | opened
  | consume
  | finish
  | closingDone
  | unsubscribe
  | disposalResumes
  deriving DecidableEq, Repr

namespace Opening

variable (aborted : Bool)

/-! ### The observation -/

/-- `close()`, which closes the stream once. -/
def close (o : Opening) : Opening :=
  if o.closed then o else { o with closed := true, closes := o.closes + 1 }

/-- `this.#closed || this.#signal.aborted` -/
def isOver (o : Opening) : Bool := o.closed || aborted

/-- The `finally` block of the iteration. -/
def leave (o : Opening) (error : Option ObservationError) : Opening :=
  { o.close with iteration := .finishing error }

/-- The stream's close is over, and the observation is released. -/
def closeSettles (o : Opening) (ok : Bool) : Option Opening :=
  if o.built && o.closed && o.closeOutcome.isNone then
    some { o with closeOutcome := some ok, releases := o.releases + 1, tracked := false }
  else none

/-! ### The opening -/

def hello (o : Opening) (ok : Bool) : Option Opening :=
  match o.phase with
  | .hello => some (if ok then { o with phase := .reading, watched := true }
      else { o with phase := .failed })
  | _ => none

/-- The initial snapshot is there, or the `catch` block closes the stream. The constructor closes
an observation whose signal is aborted. -/
def initialRead (o : Opening) (ok : Bool) : Option Opening :=
  match o.phase with
  | .reading =>
      some (if ok then
        if aborted then { o.close with built := true, phase := .aborting }
        else { o with built := true, tracked := true, phase := .opened }
      else { o with phase := .failing, closes := o.closes + 1 })
  | _ => none

/-- The `AbortError` is thrown into the `catch` block, which closes the stream. -/
def abortThrown (o : Opening) : Option Opening :=
  match o.phase with
  | .aborting =>
      if o.closeOutcome.isSome then some { o with phase := .failing, closes := o.closes + 1 }
      else none
  | _ => none

def catchSettles (o : Opening) : Option Opening :=
  match o.phase with
  | .failing => some { o with phase := .failed }
  | _ => none

/-! ### The iteration -/

/-- The server delivers a change. -/
def change (o : Opening) : Option Opening :=
  if o.watched && !o.closed then
    some { o with delivered := o.delivered + 1, queued := o.queued + 1 }
  else none

/-- A change can be taken when one is queued, and an error knows when it is raised. -/
def takes (o : Opening) : StreamOutcome → Option Opening
  | .change => if 0 < o.queued then some { o with queued := o.queued - 1 } else none
  | .none => some o
  | .fails raisedClosed => if raisedClosed = o.isOver aborted then some o else none

def next (o : Opening) (outcome : StreamOutcome) : Option Opening :=
  match o.iteration with
  | .waiting none =>
      (o.takes aborted outcome).map fun o => { o with iteration := .waiting (some outcome) }
  | _ => none

def tryNext (o : Opening) (outcome : StreamOutcome) : Option Opening :=
  match o.iteration with
  | .draining none =>
      (o.takes aborted outcome).map fun o => { o with iteration := .draining (some outcome) }
  | _ => none

def read (o : Opening) (ok : Bool) : Option Opening :=
  match o.iteration with
  | .reading none => some { o with iteration := .reading (some ok) }
  | _ => none

/-- The head of the loop. -/
def loop (o : Opening) : Opening :=
  if o.isOver aborted then o.leave none else { o with iteration := .waiting none }

/-- The head of the loop that drains the stream. -/
def drain (o : Opening) : Opening :=
  if o.isOver aborted then o.leave none else { o with iteration := .draining none }

/-- The iteration throws an error of the stream. -/
def throwStream (o : Opening) (error : ObservationError) : Opening :=
  { o with failedOpen := o.failedOpen || !o.isOver aborted }.leave (some error)

/-- A suspended iteration goes on. -/
def resume (o : Opening) : Option Opening :=
  match o.iteration with
  | .taken => some (o.loop aborted)
  | .waiting (some (.fails raisedClosed)) =>
      some (if o.isOver aborted then o.leave none
        else o.throwStream aborted (.stream raisedClosed))
  | .waiting (some .none) =>
      some (if o.isOver aborted then o.leave none else o.throwStream aborted .streamEnded)
  | .waiting (some .change) =>
      some (if o.isOver aborted then o.leave none
        else { o with consumed := o.consumed + 1, iteration := .draining none })
  | .draining (some (.fails raisedClosed)) =>
      some (o.throwStream aborted (.stream raisedClosed))
  | .draining (some .change) => some ({ o with consumed := o.consumed + 1 }.drain aborted)
  | .draining (some .none) =>
      some (if o.isOver aborted then o.leave none
        else { o with iteration := .reading none, readFrom := o.consumed })
  | .reading (some true) => some { o with iteration := .yielded, emittedFrom := o.readFrom }
  | .reading (some false) => some (o.leave (some .read))
  | .finishing error =>
      match o.closeOutcome with
      | some true => some { o with iteration := .ended error }
      | some false => some { o with iteration := .ended (some .close) }
      | none => none
  | _ => none

/-! ### The subscriber -/

/-- `subscriber.error(error)`, with the teardown of the subscription. -/
def reportError (o : Opening) (subscriber : Subscriber) (error : ObservationError) : Opening :=
  if subscriber.closed then o
  else { o with subscriber := some { subscriber with
    closed := true, reported := subscriber.reported ++ [error] } }

/-- The subscription is over. -/
def settle (o : Opening) : Opening :=
  { o with subscriber := o.subscriber.map fun subscriber => { subscriber with phase := .done } }

/-- The opening of a subscription has settled: an observation that comes too late is closed, and
another one is iterated, from its initial snapshot on. -/
def opened (o : Opening) : Option Opening :=
  match o.subscriber with
  | some subscriber =>
      match subscriber.phase, o.phase with
      | .opening, .failed => some (o.reportError subscriber .opening).settle
      | .opening, .opened =>
          if subscriber.closed then
            some { o.close with subscriber := some { subscriber with phase := .closing } }
          else if o.iteration = .unstarted then
            some { o with
              iteration := .yielded
              subscriber := some { subscriber with phase := .iterating } }
          else some (o.close.reportError subscriber .consumed).settle
      | _, _ => none
  | none => none

/-- The subscriber takes a value, unless it has unsubscribed. -/
def consume (o : Opening) : Option Opening :=
  match o.subscriber, o.iteration with
  | some subscriber, .yielded =>
      match subscriber.phase with
      | .iterating =>
          some (if subscriber.closed then o.leave none else { o with iteration := .taken })
      | _ => none
  | _, _ => none

/-- The iteration of a subscriber is over. -/
def finish (o : Opening) : Option Opening :=
  match o.subscriber, o.iteration with
  | some subscriber, .ended error =>
      match subscriber.phase with
      | .iterating =>
          match error with
          | some error => some (o.reportError subscriber error).settle
          | none =>
              some { o with subscriber := some { subscriber with
                closed := true
                completed := subscriber.completed || !subscriber.closed
                phase := .done } }
      | _ => none
  | _, _ => none

def closingDone (o : Opening) : Option Opening :=
  match o.subscriber with
  | some subscriber =>
      match subscriber.phase with
      | .closing => if o.closeOutcome.isSome then some o.settle else none
      | _ => none
  | none => none

/-- The teardown closes an observation that the subscription has. -/
def unsubscribe (o : Opening) : Option Opening :=
  match o.subscriber with
  | some subscriber =>
      if subscriber.closed then none
      else
        let left := { o with subscriber := some { subscriber with
          closed := true, unsubscribed := true } }
        some (if subscriber.phase = .iterating then left.close else left)
  | none => none

/-! ### The disposal of a primed snapshot -/

def disposalResumes (o : Opening) : Option Opening :=
  match o.disposal with
  | some .opening =>
      match o.phase with
      | .opened => some { o.close with disposal := some .closing }
      | .failed => some { o with disposal := some .done }
      | _ => none
  | some .closing =>
      if o.closeOutcome.isSome then some { o with disposal := some .done } else none
  | _ => none

def step (o : Opening) : OpeningEvent → Option Opening
  | .hello ok => o.hello ok
  | .initialRead ok => o.initialRead aborted ok
  | .abortThrown => o.abortThrown
  | .catchSettles => o.catchSettles
  | .closeSettles ok => o.closeSettles ok
  | .change => o.change
  | .next outcome => o.next aborted outcome
  | .tryNext outcome => o.tryNext aborted outcome
  | .read ok => o.read ok
  | .resume => o.resume aborted
  | .opened => o.opened
  | .consume => o.consume
  | .finish => o.finish
  | .closingDone => o.closingDone
  | .unsubscribe => o.unsubscribe
  | .disposalResumes => o.disposalResumes

end Opening

end Arc.MongoDB
