import Arc.Foundation.History
import Arc.Foundation.Machine
import Mathlib.Data.Finset.Basic

/-!
# Tearing an observable query session down

A session is closed by `close`, by the phases of a server shutdown (`joinWork`,
`finishScope`) and by the end of its own stream, all of which may overlap. The state
holds the fields they share and where each of them is suspended; an event calls an
entry point, resumes one of them or settles something one of them waits for. The
log records what was done, in order.

A shutdown transaction is only ever made by a registry that has stopped to admit
executions, so `coordinateShutdown` comes after `drain`.
-/

namespace Arc.Observable

/-- Which of the callbacks of a session throw. -/
structure Callbacks where
  onReleaseThrows : Bool := false
  endThrows : Bool := false
  onCloseThrows : Bool := false

/-- Where the generator of `results` is; it is `running` until it yields or gets to its
finally block, which is `leaving`. -/
inductive StreamPhase
  | unopened
  | suspended
  | running
  | yielded
  | leaving
  | disposing
  | completed
  deriving DecidableEq

/-- The disposal of the scope: it waits for operations under a transaction, then calls
`dispose`, then settles. -/
inductive ScopePhase
  | opened
  | waiting (operations : Finset ℕ)
  | disposing
  | settled (failed : Bool)
  deriving DecidableEq

/-- The promise of `close`: the uncoordinated form returns the iterator and disposes the
scope, the coordinated form releases the producer. -/
inductive ClosePhase
  | opened
  | returning
  | disposing
  | releasing
  | settled
  deriving DecidableEq

inductive JoinPhase
  | waiting (operations : Finset ℕ)
  | returning
  | closing
  deriving DecidableEq

/-- What tears a session down without a transaction, or for one. -/
inductive TeardownEntry
  | close
  | finishScope
  | stream
  deriving DecidableEq

/-- What is done to the world; `tornDown` marks that an entry point has settled. -/
inductive Effect
  | releaseProducer
  | onRelease
  | scopeDispose
  | scopeSettled
  | endSubscription
  | onClose
  | coordinated
  | admitted (operation : ℕ)
  | settled (operation : ℕ)
  | tornDown (entry : TeardownEntry)
  deriving DecidableEq

structure SessionTeardown where
  transaction : Bool
  draining : Bool
  released : Bool
  subscriptionEnded : Bool
  producerClosing : Bool
  scopeClosed : ScopePhase
  closed : ClosePhase
  stream : StreamPhase
  joining : List JoinPhase
  finishing : ℕ
  operations : Finset ℕ
  admitted : ℕ
  log : List Effect

inductive TeardownEvent
  | close
  | resumeClose
  | finishScope
  | resumeFinish
  | joinWork
  | resumeJoin (join : ℕ)
  | drain
  | coordinateShutdown
  | releaseProducer
  | scopeClosedByRegistry
  | run
  | operationSettled (operation : ℕ)
  | scopeDisposed (failed : Bool)
  | results
  | next
  | yields
  | ends
  | consumerReturn
  | resumeStream

namespace SessionTeardown

def new : SessionTeardown where
  transaction := false
  draining := false
  released := false
  subscriptionEnded := false
  producerClosing := false
  scopeClosed := .opened
  closed := .opened
  stream := .unopened
  joining := []
  finishing := 0
  operations := ∅
  admitted := 0
  log := []

variable (c : Callbacks) (s : SessionTeardown)

def note (e : Effect) : SessionTeardown := { s with log := s.log ++ [e] }

/-- The next call of `releaseAdmission` throws. -/
def releaseThrows : Bool := c.onReleaseThrows && !s.released

def releaseAdmission : SessionTeardown :=
  if s.released then s else note { s with released := true } .onRelease

def endSubscription : SessionTeardown :=
  if s.subscriptionEnded then s else note { s with subscriptionEnded := true } .endSubscription

def releaseProducer : SessionTeardown :=
  if s.producerClosing then s else note { s with producerClosing := true } .releaseProducer

/-- Start to dispose the scope, unless that was done, with whether the call throws. -/
def disposeScope : SessionTeardown × Bool :=
  if s.scopeClosed ≠ .opened then (s, false)
  else if s.releaseThrows c then (s.releaseAdmission, true)
  else if s.transaction then ({ s.releaseAdmission with scopeClosed := .waiting s.operations }, false)
  else (note { s.releaseAdmission with scopeClosed := .disposing } .scopeDispose, false)

/-- What follows the disposal of the scope, whether or not it failed. -/
def finishDisposal (failed : Bool) : SessionTeardown :=
  let ended := ({ s with
    scopeClosed := .settled (failed || c.endThrows || c.onCloseThrows) }.note
      .scopeSettled).endSubscription
  ended.note .onClose

/-- Ask the generator to return: one that has not run completes, one that is suspended at a
yield goes on to close its source, any other is asked once it gets there. -/
def returnIterator : SessionTeardown :=
  match s.stream with
  | .suspended => { s with stream := .completed }
  | .yielded => { s with stream := .running }
  | _ => s

/-- Wait for the disposal of the scope on behalf of the uncoordinated `close`. -/
def closeDisposes : SessionTeardown :=
  { (s.disposeScope c).1 with closed := .disposing }

def closeUncoordinated : SessionTeardown :=
  if s.releaseThrows c then s.releaseAdmission.note (.tornDown .close)
  else if s.stream = .unopened then s.releaseAdmission.closeDisposes c
  else { s.releaseAdmission.returnIterator with closed := .returning }

def close : SessionTeardown :=
  if s.closed ≠ .opened then s
  else if !s.transaction then s.closeUncoordinated c
  else if s.releaseThrows c then s.releaseAdmission
  else { s.releaseAdmission.releaseProducer with closed := .releasing }

def resumeClose : Option SessionTeardown :=
  match s.closed with
  | .returning => if s.stream = .completed then some (s.closeDisposes c) else none
  | .disposing =>
      match s.scopeClosed with
      | .settled _ => some ({ s with closed := .settled }.note (.tornDown .close))
      | _ => none
  | .releasing => some { s.releaseAdmission with closed := .settled }
  | _ => none

def finishScope : SessionTeardown :=
  if (s.disposeScope c).2 then (s.disposeScope c).1.note (.tornDown .finishScope)
  else { (s.disposeScope c).1 with finishing := s.finishing + 1 }

def resumeFinish : Option SessionTeardown :=
  match s.scopeClosed with
  | .settled _ =>
      if s.finishing = 0 then none
      else some ({ s with finishing := s.finishing - 1 }.note (.tornDown .finishScope))
  | _ => none

def resumeJoin (join : ℕ) : Option SessionTeardown :=
  match s.joining[join]? with
  | some (.waiting operations) =>
      if operations ∩ s.operations = ∅ then
        if s.stream = .unopened then
          some ({ s with joining := s.joining.set join .closing }.close c)
        else some { s.returnIterator with joining := s.joining.set join .returning }
      else none
  | some .returning =>
      if s.stream = .completed then
        some ({ s with joining := s.joining.set join .closing }.close c)
      else none
  | _ => none

def coordinateShutdown : SessionTeardown :=
  if s.transaction then s
  else (note { s with transaction := true } .coordinated).releaseProducer

/-- Admit an operation, unless the registry refuses it. -/
def run : SessionTeardown :=
  if s.draining then s
  else note { s with
    operations := insert s.admitted s.operations
    admitted := s.admitted + 1 } (.admitted s.admitted)

/-- The finally block of the generator. -/
def closeScope : SessionTeardown :=
  if s.transaction then { s.releaseAdmission with stream := .completed }
  else if (s.disposeScope c).2 then
    { (s.disposeScope c).1 with stream := .completed }.note (.tornDown .stream)
  else { (s.disposeScope c).1 with stream := .disposing }

def resumeStream : Option SessionTeardown :=
  match s.stream with
  | .leaving => some (s.closeScope c)
  | .disposing =>
      match s.scopeClosed with
      | .settled _ => some ({ s with stream := .completed }.note (.tornDown .stream))
      | _ => none
  | _ => none

def operationSettled (operation : ℕ) : Option SessionTeardown :=
  if operation ∈ s.operations then
    some (note { s with operations := s.operations.erase operation } (.settled operation))
  else none

/-- The disposal of the scope goes on: once its operations have settled `dispose` is
called, and once that has settled the callbacks are. -/
def scopeDisposed (failed : Bool) : Option SessionTeardown :=
  match s.scopeClosed with
  | .waiting operations =>
      if operations ∩ s.operations = ∅ then
        some (note { s with scopeClosed := .disposing } .scopeDispose)
      else none
  | .disposing => some (s.finishDisposal c failed)
  | _ => none

def step : TeardownEvent → Option SessionTeardown
  | .close => some (s.close c)
  | .resumeClose => s.resumeClose c
  | .finishScope => some (s.finishScope c)
  | .resumeFinish => s.resumeFinish
  | .joinWork => some { s with joining := s.joining ++ [.waiting s.operations] }
  | .resumeJoin join => s.resumeJoin c join
  | .drain => some { s with draining := true }
  | .coordinateShutdown => if s.draining then some s.coordinateShutdown else none
  | .releaseProducer => some s.releaseProducer
  | .scopeClosedByRegistry => if s.transaction then some s.endSubscription else none
  | .run => some s.run
  | .operationSettled operation => s.operationSettled operation
  | .scopeDisposed failed => s.scopeDisposed c failed
  | .results => if s.stream = .unopened then some { s with stream := .suspended } else none
  | .next =>
      if s.stream = .suspended ∨ s.stream = .yielded then some { s with stream := .running }
      else none
  | .yields => if s.stream = .running then some { s with stream := .yielded } else none
  | .ends => if s.stream = .running then some { s with stream := .leaving } else none
  | .consumerReturn => some s.returnIterator
  | .resumeStream => s.resumeStream c

end SessionTeardown

/-- The teardown of one session over all interleavings of its entry points. -/
def SessionTeardown.machine (c : Callbacks) : Machine SessionTeardown TeardownEvent where
  init := .new
  step := SessionTeardown.step c

end Arc.Observable
