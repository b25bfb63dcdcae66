import Arc.Foundation.Machine

/-!
# Activation of Chronicle artifacts

`chronicleArtifactActivator` serves every delivery from a service scope of its own. An admitted
activation has a lifetime, which the shutdown of the server waits for; the scope is disposed by
`release`, which a failed construction and the `complete` and `dispose` of the lease share, and
the disposal settles the lifetime. What runs between two awaits is one event.
-/

namespace Arc.Chronicle.ArtifactActivator

/-- What one call of the activator meets: the registry of the server, or the error of the
callback that names it; whether the activator can take part in its shutdown; what is observed;
and whether a scope is created. -/
structure Attempt where
  services : Except String ℕ
  participates : Bool
  kind : String
  artifactId : String
  store : String
  readModelsBelong : Bool
  createsScope : Bool

/-- Where the construction of the artifact has come to. -/
inductive Stage
  | refused
  | constructing
  | failed
  | leased
  deriving DecidableEq, Repr

/-- The promise of `release`. -/
inductive Cleanup
  | pending
  | settled (rejected : Bool)
  deriving DecidableEq, Repr

/-- An admitted activation; `disposals` and `settles` count the calls of `created.dispose()` and
of `settle()`. -/
structure Activation where
  hasScope : Bool
  stage : Stage
  cleanup : Option Cleanup := none
  completed : Bool := false
  disposals : ℕ := 0
  settles : ℕ := 0
  deriving DecidableEq, Repr

namespace Activation

/-- Shared by `complete` and `dispose`. -/
def release (activation : Activation) : Activation :=
  if activation.cleanup.isSome then activation
  else { activation with cleanup := some .pending, disposals := activation.disposals + 1 }

def constructed (activation : Activation) : Option Activation :=
  if activation.stage = .constructing then some { activation with stage := .leased } else none

def constructionFails (activation : Activation) : Option Activation :=
  if activation.stage = .constructing then some { activation with stage := .failed }.release
  else none

def complete (activation : Activation) : Option Activation :=
  if activation.stage = .leased then some { activation with completed := true }.release else none

/-- A fallback dispose releases without repeating the failure of a completion. -/
def dispose (activation : Activation) : Option Activation :=
  if activation.stage = .leased then
    some (if activation.completed then activation else activation.release)
  else none

/-- The disposal of the scope settles, and with it the lifetime. -/
def disposed (rejected : Bool) (activation : Activation) : Option Activation :=
  if activation.cleanup = some .pending then
    some { activation with
      cleanup := some (.settled rejected), settles := activation.settles + 1 }
  else none

end Activation

/-- A call of `drain`. -/
inductive Drain
  | waiting (lifetimes : List ℕ)
  | finished
  deriving DecidableEq, Repr

/-- An activation is named by its position among all that were ever admitted. -/
structure Activator where
  stopped : Bool := false
  participating : List ℕ := []
  activations : List Activation := []
  active : List ℕ := []
  drains : List Drain := []
  deriving DecidableEq, Repr

/-- The checks before a lifetime begins, and the registry the activator then takes part in. -/
def admission (expectedEventStore : String) (activator : Activator) (attempt : Attempt) :
    Except String ℕ :=
  let kind := attempt.kind
  let artifactId := attempt.artifactId
  let store := attempt.store
  if activator.stopped then .error "Chronicle artifact activation has stopped"
  else
    match attempt.services with
    | .error error => .error error
    | .ok services =>
        if !activator.participating.contains services && !attempt.participates then
          .error "Service registry is disposed"
        else if store ≠ expectedEventStore then
          .error s!"Chronicle {kind} {artifactId} observes event store {store}, not {expectedEventStore}"
        else if !attempt.readModelsBelong then
          .error s!"Chronicle {kind} {artifactId} read models do not belong to event store {store}"
        else .ok services

/-- The registration as a participant stays, also when a later check fails. -/
def participate (activator : Activator) (attempt : Attempt) : Activator :=
  match attempt.services with
  | .ok services =>
      if activator.stopped || activator.participating.contains services || !attempt.participates then
        activator
      else { activator with participating := services :: activator.participating }
  | .error _ => activator

/-- What runs from the call of the activator to its first await; a scope that cannot be created
settles the lifetime at once. -/
def activate (expectedEventStore : String) (activator : Activator) (attempt : Attempt) :
    Activator :=
  match admission expectedEventStore activator attempt with
  | .error _ => participate activator attempt
  | .ok _ =>
      { participate activator attempt with
        activations := activator.activations ++
          [if attempt.createsScope then { hasScope := true, stage := .constructing }
            else { hasScope := false, stage := .refused, settles := 1 }]
        active := activator.active ++ [activator.activations.length] }

def update (activator : Activator) (id : ℕ) (step : Activation → Option Activation) :
    Option Activator :=
  activator.activations[id]?.bind fun activation => (step activation).map fun activation' =>
    { activator with activations := activator.activations.set id activation' }

/-- The reaction of a settled lifetime. -/
def forget (activator : Activator) (id : ℕ) : Option Activator :=
  if id ∈ activator.active ∧ activator.activations[id]?.any (0 < ·.settles) then
    some { activator with active := activator.active.filter (· ≠ id) }
  else none

/-- The test of the loop of `drain`. -/
def drainAgain (activator : Activator) : Drain :=
  if activator.active.isEmpty then .finished else .waiting activator.active

/-- The lifetimes a drain waits for have settled, and their reactions have run. -/
def Drain.ready (active : List ℕ) : Drain → Bool
  | .waiting lifetimes => lifetimes.all (· ∉ active)
  | .finished => false

def drainWakes (activator : Activator) (index : ℕ) : Option Activator :=
  if activator.drains[index]?.any (·.ready activator.active) then
    some { activator with drains := activator.drains.set index (drainAgain activator) }
  else none

inductive ActivatorEvent
  | activate (attempt : Attempt)
  | constructed (id : ℕ)
  | constructionFails (id : ℕ)
  | complete (id : ℕ)
  | dispose (id : ℕ)
  | disposed (id : ℕ) (rejected : Bool)
  | forget (id : ℕ)
  | stop
  | drain
  | drainWakes (index : ℕ)

def step (expectedEventStore : String) (activator : Activator) :
    ActivatorEvent → Option Activator
  | .activate attempt => some (activate expectedEventStore activator attempt)
  | .constructed id => update activator id Activation.constructed
  | .constructionFails id => update activator id Activation.constructionFails
  | .complete id => update activator id Activation.complete
  | .dispose id => update activator id Activation.dispose
  | .disposed id rejected => update activator id (Activation.disposed rejected)
  | .forget id => forget activator id
  | .stop => some { activator with stopped := true }
  | .drain => some { activator with drains := activator.drains ++ [drainAgain activator] }
  | .drainWakes index => drainWakes activator index

/-- The activator of one event store. -/
def machine (expectedEventStore : String) : Machine Activator ActivatorEvent where
  init := {}
  step := step expectedEventStore

end Arc.Chronicle.ArtifactActivator
