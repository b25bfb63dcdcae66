import Arc.Foundation.Machine

/-!
# Emissions of a subscribable source

`toEmissions` turns what a source pushes into an asynchronous iteration: a queue, one slot for
waking the generator, and flags that the observer and the cancellation set. The events are the
calls of the source, those of the consumer, and the turns in which a suspended generator goes
on. The source is well behaved: it calls from its subscription on, nothing after `error` or
`complete` and nothing once it is unsubscribed. Iterables are passed on by another branch.
-/

namespace Arc.Observable

/-- What the consumer asks of the generator. -/
inductive Request
  | next
  | return'
  deriving DecidableEq, Repr

/-- Where the generator is: in `subscribe`, at a `yield` that nobody has asked to go on, with a
value on its way to the consumer, at the `await` of the wake-up, before the turn after it, at
the `await` of a return, or at its end. -/
inductive GeneratorPhase (α : Type)
  | start
  | subscribing
  | suspended
  | yielding (value : α)
  | waiting
  | woken
  | returning
  | ended
  deriving DecidableEq, Repr

inductive EmissionFailure (ε : Type)
  | queueFull
  | source (error : ε)
  deriving DecidableEq, Repr

inductive SourceState
  | active
  | failed
  | completed
  deriving DecidableEq, Repr

/-- The variables of the generator, and what has happened: what the source has pushed and the
consumer has got, whether a push found the queue full, whether the consumer has asked to
return, how often the source was unsubscribed, and what the iteration has thrown. -/
structure Emissions (α ε : Type) where
  phase : GeneratorPhase α := .start
  requests : List Request := []
  pending : List α := []
  wake : Bool := false
  finished : Bool := false
  failure : Option (EmissionFailure ε) := none
  unsubscribed : Bool := false
  aborted : Bool := false
  source : SourceState := .active
  pushed : List α := []
  yielded : List α := []
  overflowed : Bool := false
  returned : Bool := false
  subscribed : Bool := false
  unsubscribes : ℕ := 0
  thrown : Option (EmissionFailure ε) := none
  deriving DecidableEq, Repr

inductive EmissionEvent (α ε : Type)
  | next (value : α)
  | error (error : ε)
  | complete
  | subscribed
  | pull
  | return'
  | abort
  | release
  | turn
  deriving DecidableEq, Repr

namespace Emissions

variable {α ε : Type}

/-- `wake?.(); wake = undefined` -/
def notify (s : Emissions α ε) : Emissions α ε :=
  if s.wake then { s with phase := .woken, wake := false } else s

def unsubscribe (s : Emissions α ε) : Emissions α ε :=
  if s.unsubscribed then s
  else { s with unsubscribed := true, unsubscribes := s.unsubscribes + 1 }

def cancel (s : Emissions α ε) : Emissions α ε :=
  notify (unsubscribe { s with finished := true })

/-- The `finally` block; what is still asked for is answered as done. -/
def leave (s : Emissions α ε) (thrown : Option (EmissionFailure ε)) : Emissions α ε :=
  { unsubscribe s with phase := .ended, requests := [], thrown := thrown }

/-- `while (!signal.aborted)` up to the next `yield` or `await`, or to the end. -/
def loop (s : Emissions α ε) : Emissions α ε :=
  if s.aborted then s.leave none
  else
    match s.failure, s.pending with
    | some failure, _ => s.leave (some failure)
    | none, value :: pending => { s with phase := .yielding value, pending := pending }
    | none, [] =>
        if s.finished then s.leave none else { s with phase := .waiting, wake := true }

/-- The value has reached the consumer, and the generator goes on if there is a request. -/
def deliver (s : Emissions α ε) (value : α) : Emissions α ε :=
  let delivered := { s with yielded := s.yielded ++ [value], requests := s.requests.tail }
  match delivered.requests with
  | [] => { delivered with phase := .suspended }
  | .next :: _ => delivered.loop
  | .return' :: _ => { delivered with phase := .returning }

/-! ### The observer -/

def next (maximumPending : ℕ) (s : Emissions α ε) (value : α) : Emissions α ε :=
  let pushed := { s with pushed := s.pushed ++ [value] }
  if s.finished then pushed
  else if maximumPending ≤ s.pending.length then
    notify { pushed with failure := some .queueFull, finished := true, overflowed := true }
  else notify { pushed with pending := s.pending ++ [value] }

def error (s : Emissions α ε) (error : ε) : Emissions α ε :=
  notify { s with failure := some (.source error), finished := true, source := .failed }

def complete (s : Emissions α ε) : Emissions α ε :=
  notify { s with finished := true, source := .completed }

/-- A well-behaved source may call its observer. -/
def sourceCalls (s : Emissions α ε) : Bool :=
  s.subscribed && s.source == .active && !s.unsubscribed

/-- The abort listener is installed. -/
def listening (s : Emissions α ε) : Bool :=
  match s.phase with
  | .start | .subscribing | .ended => false
  | _ => true

/-! ### The consumer -/

def pull (s : Emissions α ε) : Emissions α ε :=
  match s.phase with
  | .start =>
      if s.aborted then { s with phase := .ended }
      else { s with phase := .subscribing, requests := [.next], subscribed := true }
  | .suspended => { s with requests := [.next] }.loop
  | .ended => s
  | _ => { s with requests := s.requests ++ [.next] }

def return' (s : Emissions α ε) : Emissions α ε :=
  let asked := { s with returned := true }
  match s.phase with
  | .start => { asked with phase := .ended }
  | .suspended => { asked with phase := .returning, requests := [.return'] }
  | .ended => asked
  | _ => { asked with requests := s.requests ++ [.return'] }

def abort (s : Emissions α ε) : Emissions α ε :=
  let aborted := { s with aborted := true }
  if s.listening then aborted.cancel else aborted

/-- `subscribe` has returned: the listener is installed and the loop begins. -/
def subscribe (s : Emissions α ε) : Emissions α ε :=
  loop (if s.aborted then s.cancel else s)

/-- The turn after an `await`. -/
def turn (s : Emissions α ε) : Option (Emissions α ε) :=
  match s.phase with
  | .yielding value => some (s.deliver value)
  | .woken => some s.loop
  | .returning => some (s.leave none)
  | _ => none

def step (maximumPending : ℕ) (s : Emissions α ε) : EmissionEvent α ε → Option (Emissions α ε)
  | .next value => if s.sourceCalls then some (next maximumPending s value) else none
  | .error error => if s.sourceCalls then some (s.error error) else none
  | .complete => if s.sourceCalls then some s.complete else none
  | .subscribed => if s.phase matches .subscribing then some s.subscribe else none
  | .pull => some s.pull
  | .return' => some s.return'
  | .abort => if s.aborted then none else some s.abort
  | .release => if s.listening then some s.cancel else none
  | .turn => s.turn

end Emissions

/-- Every run of `toEmissions` over a subscribable source. -/
def toEmissions (α ε : Type) (maximumPending : ℕ) : Machine (Emissions α ε) (EmissionEvent α ε) where
  init := {}
  step := Emissions.step maximumPending

end Arc.Observable
