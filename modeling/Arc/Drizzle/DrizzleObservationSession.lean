import Arc.Foundation.Machine
import Mathlib.Data.Nat.Notation

/-!
# One Drizzle observation session

A session reads a snapshot, keeps it for `current()` and for the subscriber that adopts it,
and reads again after each change notification. Everything asynchronous is a process of its
own, suspended at an await: the initial read, the adoption, each call of `current()` and
each run of `pump`. A step resumes one of them with what the awaited promise answered, or is
one call of the lease, the signal or the subscriber.

A `Reading` carries the number of notifications the session had seen when its read started.
The numbers are counted in `changed` and in `resumeRead`; no function of the source reads
them.
-/

namespace Arc.Drizzle

/-- What `listen` returned: a plain release callback, or a lease with or without
`whenReady`. -/
inductive ListenMode
  | callback
  | lease (fenced : Bool)
  deriving DecidableEq, Repr

structure Reading (T : Type*) where
  value : T
  since : ℕ
  deriving DecidableEq

inductive Delivery (T : Type*)
  | next (reading : Reading T)
  | error (message : String)
  | complete
  deriving DecidableEq

/-- The await `readSnapshot` is suspended at. -/
inductive SnapshotRead
  | waiting
  | reading (generation : Option ℕ) (since : ℕ)

/-- What an awaited call answers; `current` is what `isCurrent` says of the generation. -/
inductive Answer (T : Type*)
  | ready (generation : Option ℕ)
  | unready (message : String)
  | value (value : T) (current : Bool)
  | failed (message : String) (current : Bool)

inductive ReadStep (T : Type*)
  | suspended (read : SnapshotRead)
  | returned (reading : Reading T)
  | thrown (message : String)

/-- The promise of the first snapshot. -/
inductive Initial (T : Type*)
  | unstarted
  | awaitingReady
  | plain (since : ℕ)
  | reading (read : SnapshotRead)
  | read (reading : Reading T)
  | failing (message : String)
  | fulfilled
  | rejected (message : String)

inductive Adoption
  | unadopted
  | awaitingInitial
  | awaitingReady
  | awaitingGate (gate : Option ℕ)
  | failing (message : String)
  | done

inductive CurrentCall (T : Type*)
  | awaitingInitial
  | awaitingReady
  | awaitingGate (gate : Option ℕ)
  | returned (snapshot : Option (Reading T))
  | rejected (message : String)

/-- One run of `pump`; `delivered` is the call of the subscriber. -/
inductive Pump (T : Type*)
  | reading (catchingUp : Bool) (read : SnapshotRead)
  | read (catchingUp : Bool) (reading : Reading T)
  | delivered
  | thrown (message : String)
  | done

def Pump.active {T : Type*} : Pump T → Bool
  | .done => false
  | _ => true

/-- The promises `current()` and an adoption may wait for. A gate is a position in
`resolved`. -/
structure Gates where
  catchup : Bool
  catchupFinished : Option ℕ
  readFinished : Option ℕ
  resolved : List Bool

namespace Gates

def new : Gates := ⟨false, none, none, []⟩

def resolve (g : Gates) : Option ℕ → List Bool
  | none => g.resolved
  | some gate => g.resolved.set gate true

def openCatchup (g : Gates) : Gates :=
  match g.catchupFinished with
  | some _ => { g with catchup := true }
  | none =>
      { g with
        catchup := true
        catchupFinished := some g.resolved.length
        resolved := g.resolved ++ [false] }

def settleCatchup (g : Gates) : Gates :=
  { g with catchup := false, catchupFinished := none, resolved := g.resolve g.catchupFinished }

def openRead (g : Gates) : Gates :=
  { g with readFinished := some g.resolved.length, resolved := g.resolved ++ [false] }

def finishRead (g : Gates) : Gates :=
  { g with readFinished := none, resolved := g.resolve g.readFinished }

/-- Awaiting nothing resumes at once. -/
def passes (g : Gates) : Option ℕ → Bool
  | none => true
  | some gate => g.resolved[gate]?.getD false

end Gates

/-- The subscriber's side: what it was given, and whether it takes more. -/
structure Outlet (T : Type*) where
  closed : Bool
  delivered : List (Delivery T)

namespace Outlet

variable {T : Type*}

def terminal : Delivery T → Bool
  | .next _ => false
  | _ => true

def send (o : Outlet T) (d : Delivery T) : Outlet T :=
  if o.closed then o else ⟨terminal d, o.delivered ++ [d]⟩

end Outlet

/-- Whether the lease's `release` is at hand, and how often it and `onClose` were called. -/
structure Ownership where
  released : Bool
  held : Bool
  leaseReleases : ℕ
  onCloses : ℕ

namespace Ownership

def new : Ownership := ⟨false, false, 0, 0⟩

def release (o : Ownership) : Ownership :=
  if o.released then o
  else
    { released := true, held := false
      leaseReleases := o.leaseReleases + o.held.toNat, onCloses := o.onCloses + 1 }

end Ownership

structure DrizzleObservationSession (T : Type*) where
  constructed : Bool
  mode : Option ListenMode
  closed : Bool
  error : Option String
  dirty : Bool
  running : Bool
  scheduled : Bool
  hasValue : Bool
  emitted : Bool
  snapshot : Option (Reading T)
  subscribed : Bool
  gates : Gates
  ownership : Ownership
  outlet : Outlet T
  initial : Initial T
  adoption : Adoption
  calls : List (CurrentCall T)
  pumps : List (Pump T)
  pumpPromise : Option ℕ
  notifications : ℕ

namespace DrizzleObservationSession

variable {T : Type*}

/-- A session whose signal is not aborted is inside its call of `listen`. -/
def new (T : Type*) (aborted : Bool) : DrizzleObservationSession T where
  constructed := aborted
  mode := none
  closed := aborted
  error := none
  dirty := false
  running := false
  scheduled := false
  hasValue := false
  emitted := false
  snapshot := none
  subscribed := false
  gates := .new
  ownership := .new
  outlet := ⟨false, []⟩
  initial := if aborted then .rejected "Drizzle observation was closed" else .unstarted
  adoption := .unadopted
  calls := []
  pumps := []
  pumpPromise := none
  notifications := 0

/-- Whether the lease has `whenReady`. -/
def fenced (s : DrizzleObservationSession T) : Bool := decide (s.mode = some (.lease true))

def closedError (s : DrizzleObservationSession T) : String :=
  s.error.getD "Drizzle observation was closed"

/-! ### Closing -/

def fail (s : DrizzleObservationSession T) (message : String) : DrizzleObservationSession T :=
  if s.closed then s
  else
    { s with
      error := some message
      closed := true
      gates := s.gates.settleCatchup
      ownership := s.ownership.release
      outlet := if s.subscribed then s.outlet.send (.error message) else s.outlet }

def close (s : DrizzleObservationSession T) : DrizzleObservationSession T :=
  if s.closed then s
  else
    { s with
      closed := true
      gates := s.gates.settleCatchup
      ownership := s.ownership.release
      outlet := if s.subscribed then s.outlet.send .complete else s.outlet }

/-! ### Reading -/

def schedule (s : DrizzleObservationSession T) : DrizzleObservationSession T :=
  if s.scheduled || s.running || s.closed then s else { s with scheduled := true }

/-- The notification `listen` was given. -/
def changed (s : DrizzleObservationSession T) (catchup : Bool) : DrizzleObservationSession T :=
  if s.closed then s
  else
    let s := { s with
      dirty := true
      notifications := s.notifications + 1
      gates := if catchup then s.gates.openCatchup else s.gates }
    if s.subscribed || catchup then s.schedule else s

/-- Resume `readSnapshot`. A read that fails or answers on a lost connection starts over. -/
def resumeRead (s : DrizzleObservationSession T) : SnapshotRead → Answer T → Option (ReadStep T)
  | .waiting, .ready generation =>
      if generation.isSome = s.fenced then
        some (if s.closed then .thrown s.closedError
          else .suspended (.reading generation s.notifications))
      else none
  | .waiting, .unready message => if s.fenced then some (.thrown message) else none
  | .reading generation since, .value value current =>
      some (if s.closed then .thrown s.closedError
        else if generation.isSome && !current then .suspended .waiting
        else .returned ⟨value, since⟩)
  | .reading generation _, .failed message current =>
      some (if generation.isSome && !current then
          if s.closed then .thrown s.closedError else .suspended .waiting
        else .thrown message)
  | _, _ => none

def setPump (s : DrizzleObservationSession T) (p : ℕ) (pump : Pump T) :
    DrizzleObservationSession T :=
  { s with pumps := s.pumps.set p pump }

/-- The body of the loop of `pump`, up to the await of its read. -/
def startRead (s : DrizzleObservationSession T) (p : ℕ) : DrizzleObservationSession T :=
  { s with
    dirty := false
    gates := s.gates.openRead
    pumps := s.pumps.set p (.reading s.gates.catchup .waiting) }

/-- The end of `pump`. -/
def endPump (s : DrizzleObservationSession T) (p : ℕ) : DrizzleObservationSession T :=
  { s with running := false, pumpPromise := none, pumps := s.pumps.set p .done }

/-- The condition of the loop of `pump`. -/
def loop (s : DrizzleObservationSession T) (p : ℕ) : DrizzleObservationSession T :=
  if s.dirty && !s.closed then s.startRead p else s.endPump p

def pump (s : DrizzleObservationSession T) : DrizzleObservationSession T :=
  if s.pumpPromise.isSome then s
  else if s.closed || !s.hasValue || !s.dirty then s
  else
    let s' : DrizzleObservationSession T := { s with
      running := true
      pumps := s.pumps ++ [.done]
      pumpPromise := some s.pumps.length }
    s'.startRead s.pumps.length

def finishRead (s : DrizzleObservationSession T) : DrizzleObservationSession T :=
  { s with gates := s.gates.finishRead }

/-- A read of pump `p` has returned. -/
def pumped (s : DrizzleObservationSession T) (p : ℕ) (catchingUp : Bool) (reading : Reading T) :
    DrizzleObservationSession T :=
  if s.closed then s.finishRead.endPump p
  else
    let s := { s with
      snapshot := some reading
      gates := if catchingUp then s.gates.settleCatchup else s.gates }
    if s.emitted then { s with outlet := s.outlet.send (.next reading) }.setPump p .delivered
    else s.finishRead.loop p

/-! ### The first snapshot -/

/-- `listen` has returned. -/
def listened (s : DrizzleObservationSession T) (mode : ListenMode) :
    DrizzleObservationSession T :=
  { s with
    constructed := true
    mode := some mode
    ownership := { s.ownership with
      held := true, leaseReleases := s.ownership.leaseReleases + s.closed.toNat }
    initial := match mode with
      | .callback => .plain s.notifications
      | .lease _ => .awaitingReady }

def toInitial : ReadStep T → Initial T
  | .suspended read => .reading read
  | .returned reading => .read reading
  | .thrown message => .failing message

/-- What happens to the value of the initial read. -/
def primed (s : DrizzleObservationSession T) (reading : Reading T) :
    DrizzleObservationSession T :=
  if s.closed then { s with initial := .failing s.closedError }
  else
    let s := { s with hasValue := true, snapshot := some reading, initial := .fulfilled }
    if s.dirty && (s.subscribed || s.gates.catchup) then s.schedule else s

/-- Resume the initial promise. -/
def resumeInitial (s : DrizzleObservationSession T) (answer : Answer T) :
    Option (DrizzleObservationSession T) :=
  match s.initial, answer with
  | .awaitingReady, .ready _ =>
      some { s with
        initial := if s.closed then .failing s.closedError else .reading .waiting }
  | .awaitingReady, .unready message => some { s with initial := .failing message }
  | .plain since, .value value _ => some { s with initial := .read ⟨value, since⟩ }
  | .plain _, .failed message _ => some { s with initial := .failing message }
  | .reading read, answer =>
      (s.resumeRead read answer).map fun r => { s with initial := toInitial r }
  | _, _ => none

/-- Run the callbacks of the initial promise. -/
def settleInitial (s : DrizzleObservationSession T) : Option (DrizzleObservationSession T) :=
  match s.initial with
  | .read reading => some (s.primed reading)
  | .failing message =>
      let s := s.fail message
      some { s with initial := .rejected (s.error.getD message) }
  | _ => none

/-! ### Adoption -/

/-- Give the subscriber its first value. -/
def deliverFirst (s : DrizzleObservationSession T) : DrizzleObservationSession T :=
  let s := { s with adoption := .done }
  if s.closed || s.outlet.closed then s
  else
    match s.snapshot with
    | none => s
    | some reading =>
        let s := { s with emitted := true, outlet := s.outlet.send (.next reading) }
        if s.dirty then s.schedule else s

/-- Whether a re-read is to be waited for before the snapshot is used. -/
def behind (s : DrizzleObservationSession T) : Bool :=
  s.gates.catchup || s.fenced && (s.running || s.dirty)

def awaited (s : DrizzleObservationSession T) : Option ℕ :=
  s.gates.catchupFinished.or s.gates.readFinished

def adoptReady (s : DrizzleObservationSession T) : DrizzleObservationSession T :=
  if s.behind then { s.pump with adoption := .awaitingGate s.pump.awaited } else s.deliverFirst

def adopt (s : DrizzleObservationSession T) : DrizzleObservationSession T :=
  match s.error with
  | some message => { s with outlet := s.outlet.send (.error message), adoption := .done }
  | none =>
      if s.closed then { s with outlet := s.outlet.send .complete, adoption := .done }
      else { s with subscribed := true, adoption := .awaitingInitial }

/-- Resume the adoption with what `whenReady` answered, where it awaits that. -/
def resumeAdoption (s : DrizzleObservationSession T) (answer : Answer T) :
    Option (DrizzleObservationSession T) :=
  match s.adoption, s.initial, answer with
  | .awaitingInitial, .fulfilled, _ =>
      some (if s.fenced then { s with adoption := .awaitingReady } else s.adoptReady)
  | .awaitingInitial, .rejected message, _ => some { s with adoption := .failing message }
  | .awaitingReady, _, .ready _ => some s.adoptReady
  | .awaitingReady, _, .unready message => some { s with adoption := .failing message }
  | .awaitingGate gate, _, _ => if s.gates.passes gate then some s.deliverFirst else none
  | .failing message, _, _ =>
      some { s with
        adoption := .done
        outlet := s.outlet.send (.error (s.error.getD message)) }.close
  | _, _, _ => none

/-! ### `current()` -/

def setCall (s : DrizzleObservationSession T) (i : ℕ) (call : CurrentCall T) :
    DrizzleObservationSession T :=
  { s with calls := s.calls.set i call }

def finishCurrent (s : DrizzleObservationSession T) (i : ℕ) : DrizzleObservationSession T :=
  s.setCall i (if s.closed then .rejected s.closedError else .returned s.snapshot)

def currentReady (s : DrizzleObservationSession T) (i : ℕ) : DrizzleObservationSession T :=
  if s.behind then s.pump.setCall i (.awaitingGate s.pump.awaited) else s.finishCurrent i

def current (s : DrizzleObservationSession T) : DrizzleObservationSession T :=
  { s with calls := s.calls ++
      [if s.closed then .rejected s.closedError else .awaitingInitial] }

/-- Resume a call of `current()`. -/
def resumeCurrent (s : DrizzleObservationSession T) (i : ℕ) (answer : Answer T) :
    Option (DrizzleObservationSession T) :=
  match s.calls[i]?, s.initial, answer with
  | some .awaitingInitial, .fulfilled, _ =>
      some (if s.fenced then s.setCall i .awaitingReady else s.currentReady i)
  | some .awaitingInitial, .rejected message, _ => some (s.setCall i (.rejected message))
  | some .awaitingReady, _, .ready _ => some (s.currentReady i)
  | some .awaitingReady, _, .unready message => some (s.setCall i (.rejected message))
  | some (.awaitingGate gate), _, _ =>
      if s.gates.passes gate then some (s.finishCurrent i) else none
  | _, _, _ => none

/-- Closing the session cancels the calls that still wait. -/
def cancelCurrent (s : DrizzleObservationSession T) (i : ℕ) :
    Option (DrizzleObservationSession T) :=
  match s.closed, s.calls[i]? with
  | true, some .awaitingInitial | true, some .awaitingReady | true, some (.awaitingGate _) =>
      some (s.setCall i (.rejected s.closedError))
  | _, _ => none

/-! ### Pumps -/

def toPump (catchingUp : Bool) : ReadStep T → Pump T
  | .suspended read => .reading catchingUp read
  | .returned reading => .read catchingUp reading
  | .thrown message => .thrown message

/-- Resume the read of pump `p`. -/
def resumePumpRead (s : DrizzleObservationSession T) (p : ℕ) (answer : Answer T) :
    Option (DrizzleObservationSession T) :=
  match s.pumps[p]? with
  | some (.reading catchingUp read) =>
      (s.resumeRead read answer).map fun r => s.setPump p (toPump catchingUp r)
  | _ => none

/-- Resume pump `p` after its read, or after the call of the subscriber. -/
def resumePump (s : DrizzleObservationSession T) (p : ℕ) :
    Option (DrizzleObservationSession T) :=
  match s.pumps[p]? with
  | some (.read catchingUp reading) => some (s.pumped p catchingUp reading)
  | some .delivered => some (s.finishRead.loop p)
  | some (.thrown message) => some ((s.finishRead.fail message).endPump p)
  | _ => none

end DrizzleObservationSession

/-- What may happen to a session. `close` is the completion callback, the abort of the
signal and the call of its owner. -/
inductive SessionEvent (T : Type*)
  | listened (mode : ListenMode)
  | listenThrew
  | changed (catchup : Bool)
  | fail (message : String)
  | close
  | adopt
  | unsubscribe
  | current
  | immediate
  | resumeInitial (answer : Answer T)
  | settleInitial
  | resumeAdoption (answer : Answer T)
  | resumeCurrent (call : ℕ) (answer : Answer T)
  | cancelCurrent (call : ℕ)
  | resumePumpRead (pump : ℕ) (answer : Answer T)
  | resumePump (pump : ℕ)

namespace DrizzleObservationSession

variable {T : Type*}

/-- Whether `listen` is still being called. -/
def listening (s : DrizzleObservationSession T) : Bool :=
  match s.initial with
  | .unstarted => true
  | _ => false

/-- An observable hands a session to one subscriber only. -/
def adoptable (s : DrizzleObservationSession T) : Bool :=
  match s.adoption with
  | .unadopted => s.constructed
  | _ => false

def step (s : DrizzleObservationSession T) :
    SessionEvent T → Option (DrizzleObservationSession T)
  | .listened mode => if s.listening then some (s.listened mode) else none
  | .listenThrew =>
      if s.listening then
        some { s with closed := true, initial := .rejected s.closedError }
      else none
  | .changed catchup => some (s.changed catchup)
  | .fail message => some (s.fail message)
  | .close => some s.close
  | .adopt => if s.adoptable then some s.adopt else none
  -- the teardown of the subscription closes the session
  | .unsubscribe =>
      match s.adoption with
      | .unadopted => none
      | _ => some { s with outlet := { s.outlet with closed := true } }.close
  | .current => if s.constructed then some s.current else none
  | .immediate => if s.scheduled then some { s with scheduled := false }.pump else none
  | .resumeInitial answer => s.resumeInitial answer
  | .settleInitial => s.settleInitial
  | .resumeAdoption answer => s.resumeAdoption answer
  | .resumeCurrent call answer => s.resumeCurrent call answer
  | .cancelCurrent call => s.cancelCurrent call
  | .resumePumpRead p answer => s.resumePumpRead p answer
  | .resumePump p => s.resumePump p

/-- A session over all interleavings. -/
def machine (T : Type*) (aborted : Bool) :
    Machine (DrizzleObservationSession T) (SessionEvent T) where
  init := new T aborted
  step := step

end DrizzleObservationSession

end Arc.Drizzle
