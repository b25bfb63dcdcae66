import Arc.Foundation.Machine
import Arc.MongoDB.MongoObservation

/-!
# Observables of a collection

`MongoObservable` opens an observation for each subscription; `current` primes a snapshot, which
the next subscription adopts or a disposal closes. The observables of a collection share the
execution's signal and its scope, whose disposal closes the observations that the collection
tracks.
-/

namespace Arc.MongoDB

/-- The scope of a collection; its disposal awaits the observations that were tracked. -/
inductive CollectionScope
  | active
  | disposing (awaited : List ℕ)
  | disposed (ok : Bool)
  deriving DecidableEq, Repr

/-- A collection with the `#pendingSnapshot` of each of its observables, and every opening. -/
structure ObservedCollection where
  aborted : Bool := false
  scope : CollectionScope := .active
  pendingSnapshots : List (Option ℕ) := []
  openings : List Opening := []
  deriving DecidableEq, Repr

inductive ObservableEvent
  | observe
  | current (observable : ℕ)
  | subscribe (observable : ℕ)
  | dispose (observable : ℕ)
  | abort
  | disposeScope
  | scopeSettles (ok : Bool)
  | on (index : ℕ) (event : OpeningEvent)
  deriving DecidableEq, Repr

namespace ObservedCollection

def observe (s : ObservedCollection) : ObservedCollection :=
  { s with pendingSnapshots := s.pendingSnapshots ++ [none] }

/-- A snapshot is primed unless one is. -/
def current (s : ObservedCollection) (observable : ℕ) : Option ObservedCollection :=
  match s.pendingSnapshots[observable]? with
  | some (some _) => some s
  | some none => some { s with
      pendingSnapshots := s.pendingSnapshots.set observable (some s.openings.length)
      openings := s.openings ++ [{}] }
  | none => none

/-- A subscription adopts the primed snapshot, or opens an observation. -/
def subscribe (s : ObservedCollection) (observable : ℕ) : Option ObservedCollection :=
  match s.pendingSnapshots[observable]? with
  | some (some index) => some { s with
      pendingSnapshots := s.pendingSnapshots.set observable none
      openings := s.openings.modify index fun o =>
        { o with subscriber := some {}, adoptions := o.adoptions + 1 } }
  | some none => some { s with
      openings := s.openings ++ [{ subscriber := some {}, adoptions := 1 }] }
  | none => none

/-- `asyncDispose` of an observable, up to its first await. -/
def dispose (s : ObservedCollection) (observable : ℕ) : Option ObservedCollection :=
  match s.pendingSnapshots[observable]? with
  | some (some index) => some { s with
      pendingSnapshots := s.pendingSnapshots.set observable none
      openings := s.openings.modify index fun o => { o with disposal := some .opening } }
  | some none => some s
  | none => none

/-- The listeners of the observations close them. -/
def abort (s : ObservedCollection) : ObservedCollection :=
  { s with
    aborted := true
    openings := s.openings.map fun o => if o.built then o.close else o }

/-- `asyncDispose` of the collection, up to its await. -/
def disposeScope (s : ObservedCollection) : Option ObservedCollection :=
  match s.scope with
  | .active => some { s with
      scope := .disposing ((List.range s.openings.length).filter fun index =>
        (s.openings[index]?).any Opening.tracked)
      openings := s.openings.map fun o => if o.tracked then o.close else o }
  | _ => none

/-- `Promise.all` is over when every close is, or with the first that fails. -/
def scopeSettles (s : ObservedCollection) (ok : Bool) : Option ObservedCollection :=
  match s.scope with
  | .disposing awaited =>
      let closedWith := fun outcome index =>
        (s.openings[index]?).any fun o => o.closeOutcome == some outcome
      if (if ok then awaited.all (closedWith true) else awaited.any (closedWith false)) then
        some { s with scope := .disposed ok }
      else none
  | _ => none

def step (s : ObservedCollection) : ObservableEvent → Option ObservedCollection
  | .observe => some s.observe
  | .current observable => s.current observable
  | .subscribe observable => s.subscribe observable
  | .dispose observable => s.dispose observable
  | .abort => some s.abort
  | .disposeScope => s.disposeScope
  | .scopeSettles ok => s.scopeSettles ok
  | .on index event =>
      (s.openings[index]?).bind fun o => (o.step s.aborted event).map fun o =>
        { s with openings := s.openings.set index o }

def machine : Machine ObservedCollection ObservableEvent where
  init := {}
  step := step

end ObservedCollection

end Arc.MongoDB
