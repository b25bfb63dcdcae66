import Arc.Foundation.Ledger
import Arc.Foundation.Machine

/-!
# Admission of observable sessions

`ObservableSessions` keeps the sessions of one server in sets, counts the ones
still opening, and remembers which caller owns what. Every call of `openSession`
is one record of the ledger `calls`; its position stands for the session object
the call creates. The record says what has happened to the call and to its
session, and the functions below are the source's, one for each stretch of code
between two awaits.

The session's own behaviour enters as its callbacks: `onRelease` once, then
`onClose` once.
-/

namespace Arc.Observable

inductive Admission
  | subscription
  | snapshot
  deriving DecidableEq, Repr

/-- Where a call of `openSession` is suspended. -/
inductive CallPhase
  | opening
  | closingDisposed
  | settled
  deriving DecidableEq, Repr

/-- A call of `openSession` and the session it creates. -/
structure OpenCall where
  key : String
  admission : Admission
  created : Bool
  phase : CallPhase
  aborted : Bool
  ownerReleased : Bool
  held : Bool
  live : Bool
  reserved : Bool
  released : Bool
  closed : Bool
  deriving DecidableEq, Repr

namespace OpenCall

/-- A call that has just reserved its slot. -/
def started (key : String) (admission : Admission) (created : Bool) : OpenCall where
  key := key
  admission := admission
  created := created
  phase := .opening
  aborted := false
  ownerReleased := false
  held := false
  live := false
  reserved := false
  released := false
  closed := false

def inFlight (c : OpenCall) : Bool := decide (c.phase ≠ .settled)

def opensSubscription (c : OpenCall) : Bool := c.inFlight && decide (c.admission = .subscription)

def opensSnapshot (c : OpenCall) : Bool := c.inFlight && decide (c.admission = .snapshot)

/-- The session is an active subscription: opened or promoted, and not yet released. -/
def active (c : OpenCall) : Bool :=
  c.live && !c.released && (decide (c.admission = .subscription) || c.reserved)

/-- The session is an active snapshot. -/
def waiting (c : OpenCall) : Bool :=
  c.live && !c.released && decide (c.admission = .snapshot) && !c.reserved

/-- The call still counts against the openings of its caller. -/
def holdsOwner (key : String) (c : OpenCall) : Bool :=
  c.opensSubscription && !c.ownerReleased && decide (c.key = key)

/-- An opening of the caller whose signal has not been aborted. -/
def opensFor (key : String) (c : OpenCall) : Bool :=
  c.opensSubscription && !c.aborted && decide (c.key = key)

def activeFor (key : String) (c : OpenCall) : Bool := c.active && decide (c.key = key)

end OpenCall

structure ObservableSessions where
  subscriptions : ℕ
  subscriptionsPerCaller : ℕ
  observableSessions : Finset ℕ
  snapshotSessions : Finset ℕ
  retiringSessions : Finset ℕ
  openingSessions : Finset ℕ
  releasedOpening : Finset ℕ
  observableOwners : InsertionMap ℕ String
  openingOwners : InsertionMap String ℤ
  openingObservableSessions : ℤ
  openingSnapshots : ℤ
  disposed : Bool
  servicesDisposed : Bool
  calls : List OpenCall

/-- What `openSession` answers before its first await. -/
inductive Opened
  | disposed
  | canceled
  | unknown
  | limited
  | pending (call : ℕ)

namespace ObservableSessions

def new (subscriptions subscriptionsPerCaller : ℕ) : ObservableSessions where
  subscriptions := subscriptions
  subscriptionsPerCaller := subscriptionsPerCaller
  observableSessions := ∅
  snapshotSessions := ∅
  retiringSessions := ∅
  openingSessions := ∅
  releasedOpening := ∅
  observableOwners := .empty
  openingOwners := .empty
  openingObservableSessions := 0
  openingSnapshots := 0
  disposed := false
  servicesDisposed := false
  calls := []

/-- Write the record of a call. -/
def update (s : ObservableSessions) (k : ℕ) (c : OpenCall) : ObservableSessions :=
  { s with calls := s.calls.set k c }

/-- The openings counted for a caller. -/
def openingOwned (s : ObservableSessions) (key : String) : ℤ := (s.openingOwners.get key).getD 0

/-- The active subscription sessions a caller owns. -/
def owned (s : ObservableSessions) (key : String) : ℕ :=
  (s.observableOwners.entries.filter fun e => decide (e.2 = key)).length

def hasSubscriptionCapacity (s : ObservableSessions) (active opening owned openingOwned : ℤ) :
    Bool :=
  decide (active + opening < s.subscriptions) &&
    decide (owned + openingOwned < s.subscriptionsPerCaller)

def hasSessionCapacity (s : ObservableSessions) (key : String) : Bool :=
  !s.disposed && s.hasSubscriptionCapacity s.observableSessions.card s.openingObservableSessions
    (s.owned key) (s.openingOwned key)

/-! ### The callbacks of a session -/

/-- The session no longer counts as active. -/
def forget (s : ObservableSessions) (k : ℕ) : ObservableSessions :=
  { s with
    observableSessions := s.observableSessions.erase k
    snapshotSessions := s.snapshotSessions.erase k
    observableOwners := s.observableOwners.delete k }

def onRelease (s : ObservableSessions) (k : ℕ) (c : OpenCall) : ObservableSessions :=
  update (if c.held then
      { s.forget k with retiringSessions := insert k s.retiringSessions }
    else if c.created then { s with releasedOpening := insert k s.releasedOpening }
    else s) k { c with released := true }

def onClose (s : ObservableSessions) (k : ℕ) (c : OpenCall) : ObservableSessions :=
  let s := if c.created then
      { s with
        openingSessions := s.openingSessions.erase k
        releasedOpening := s.releasedOpening.erase k }
    else s
  update (if c.held then
      { s.forget k with retiringSessions := s.retiringSessions.erase k }
    else s) k { c with closed := true }

/-! ### Opening -/

/-- One opening less for a caller; its entry goes with the last one. -/
def decrementOwner (owners : InsertionMap String ℤ) (key : String) : InsertionMap String ℤ :=
  let remaining := (owners.get key).getD 1 - 1
  if remaining ≠ 0 then owners.set key remaining else owners.delete key

/-- Give the caller's opening back, once. -/
def releaseOwner (s : ObservableSessions) (k : ℕ) (c : OpenCall) : ObservableSessions :=
  if c.ownerReleased then s
  else
    update { s with openingOwners := decrementOwner s.openingOwners c.key } k
      { c with ownerReleased := true }

/-- The finally block of `openSession`. -/
def finish (s : ObservableSessions) (k : ℕ) (c : OpenCall) : ObservableSessions :=
  match c.admission with
  | .snapshot =>
      update { s with openingSnapshots := s.openingSnapshots - 1 } k { c with phase := .settled }
  | .subscription =>
      update { s.releaseOwner k c with
        openingObservableSessions := s.openingObservableSessions - 1 } k
        { c with ownerReleased := true, phase := .settled }

/-- Enter the call into the ledger; the session is visible from here on. -/
def start (s : ObservableSessions) (key : String) (admission : Admission) (created : Bool) :
    ObservableSessions :=
  { s with
    openingSessions := if created then insert s.calls.length s.openingSessions
      else s.openingSessions
    calls := s.calls ++ [.started key admission created] }

/-- The part of `openSession` before its await. `created` says whether the session
object could be constructed. -/
def openSession (s : ObservableSessions) (key : String) (admission : Admission)
    (canceled known created : Bool) : ObservableSessions × Opened :=
  if s.disposed then (s, .disposed)
  else if canceled then (s, .canceled)
  else if !known then (s, .unknown)
  else match admission with
    | .subscription =>
        if !s.hasSessionCapacity key then (s, .limited)
        else
          (start { s with
            openingOwners := s.openingOwners.set key (s.openingOwned key + 1)
            openingObservableSessions := s.openingObservableSessions + 1 } key admission created,
            .pending s.calls.length)
    | .snapshot =>
        if (s.subscriptions : ℤ) < s.openingSnapshots + 1 + s.snapshotSessions.card then
          (s, .limited)
        else
          (start { s with openingSnapshots := s.openingSnapshots + 1 } key admission created,
            .pending s.calls.length)

/-- The callbacks of the session know it, and it is no longer an opening one. -/
def hold (s : ObservableSessions) (k : ℕ) (c : OpenCall) : ObservableSessions :=
  update { s with openingSessions := s.openingSessions.erase k } k { c with held := true }

/-- Enter an accepted session into the set of its admission. -/
def activate (s : ObservableSessions) (k : ℕ) (c : OpenCall) : ObservableSessions :=
  match c.admission with
  | .snapshot =>
      update { s with snapshotSessions := insert k s.snapshotSessions } k { c with live := true }
  | .subscription =>
      update { s with
        observableSessions := insert k s.observableSessions
        observableOwners := s.observableOwners.set k c.key } k { c with live := true }

/-- The synchronous part of closing a session: it is released unless it was. -/
def closeSession (s : ObservableSessions) (k : ℕ) (c : OpenCall) : ObservableSessions :=
  if c.released then s else s.onRelease k c

/-- The session of a call has been opened, and may carry a rejection. -/
def opened (s : ObservableSessions) (k : ℕ) (c : OpenCall) (rejected : Bool) :
    ObservableSessions :=
  if s.disposed || s.servicesDisposed then
    ((s.hold k c).closeSession k { c with held := true }).update k
      { c with held := true, released := true, phase := .closingDisposed }
  else if rejected then (s.hold k c).finish k { c with held := true }
  else ((s.hold k c).activate k { c with held := true }).finish k
    { c with held := true, live := true }

/-- Promote a snapshot session to a subscription; `none` stands for the limit error. -/
def reserveSession (s : ObservableSessions) (k : ℕ) (c : OpenCall) : Option ObservableSessions :=
  if !s.hasSessionCapacity c.key then none
  else
    some (update { s with
      snapshotSessions := s.snapshotSessions.erase k
      observableSessions := insert k s.observableSessions
      observableOwners := s.observableOwners.set k c.key } k { c with reserved := true })

/-- The abort listener of an opening subscription. -/
def abort (s : ObservableSessions) (k : ℕ) (c : OpenCall) : ObservableSessions :=
  if c.opensSubscription then
    (s.releaseOwner k c).update k { c with ownerReleased := true, aborted := true }
  else s.update k { c with aborted := true }

end ObservableSessions

/-- What may happen to the sessions of a server. -/
inductive SessionEvent
  | openSession (key : String) (admission : Admission) (canceled known created : Bool)
  | abort (call : ℕ)
  | opened (call : ℕ) (rejected : Bool)
  | failed (call : ℕ)
  | closedDisposed (call : ℕ)
  | reserve (call : ℕ)
  | release (call : ℕ)
  | close (call : ℕ)
  | markDisposed
  | disposeServices

namespace ObservableSessions

/-- An event of one call, given its record. A session without rejection has not been
released while it was opening, unless the server is shutting down. A snapshot is
promoted by the request that opened it, before that request closes it; any other
close follows the disposal of the server. -/
def stepCall (s : ObservableSessions) (k : ℕ) (c : OpenCall) :
    SessionEvent → Option ObservableSessions
  | .abort _ => some (s.abort k c)
  | .opened _ rejected =>
      if c.created && decide (c.phase = .opening) && (rejected || !c.released || s.disposed) then
        some (s.opened k c rejected)
      else none
  | .failed _ => if c.phase = .opening then some (s.finish k c) else none
  | .closedDisposed _ => if c.phase = .closingDisposed then some (s.finish k c) else none
  | .reserve _ =>
      if c.live && decide (c.admission = .snapshot) && (!c.released || s.disposed) then
        some ((s.reserveSession k c).getD s)
      else none
  | .release _ => if c.created && !c.released then some (s.onRelease k c) else none
  | .close _ => if c.released && !c.closed then some (s.onClose k c) else none
  | _ => none

def step (s : ObservableSessions) : SessionEvent → Option ObservableSessions
  | .openSession key admission canceled known created =>
      some (s.openSession key admission canceled known created).1
  | .markDisposed => some { s with disposed := true }
  | .disposeServices => some { s with servicesDisposed := true }
  | .abort k => s.calls[k]?.bind fun c => s.stepCall k c (.abort k)
  | .opened k rejected => s.calls[k]?.bind fun c => s.stepCall k c (.opened k rejected)
  | .failed k => s.calls[k]?.bind fun c => s.stepCall k c (.failed k)
  | .closedDisposed k => s.calls[k]?.bind fun c => s.stepCall k c (.closedDisposed k)
  | .reserve k => s.calls[k]?.bind fun c => s.stepCall k c (.reserve k)
  | .release k => s.calls[k]?.bind fun c => s.stepCall k c (.release k)
  | .close k => s.calls[k]?.bind fun c => s.stepCall k c (.close k)

/-- The sessions of one server over all interleavings of their events. -/
def machine (subscriptions subscriptionsPerCaller : ℕ) :
    Machine ObservableSessions SessionEvent where
  init := .new subscriptions subscriptionsPerCaller
  step := step

end ObservableSessions

end Arc.Observable
