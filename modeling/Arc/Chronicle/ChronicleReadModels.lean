import Arc.Foundation.InsertionMap
import Arc.Foundation.Machine
import Mathlib.Data.List.Perm.Basic

/-!
# Observed read models

`observeAll` and `observeById` read a snapshot of the store, emit it, subscribe to the
changes and emit the updated list after each of them. An observation and its store are one
state: the store may change at any moment, the snapshot is its state at some moment of the
read, and once subscribed the watch queues every change in the order in which it was made.

The store keeps each model under its `key`, which the selector of `observeAll` names. An
empty key names no model: older kernels send it to mark a subscription.
-/

namespace Arc.Chronicle

structure ReadModelChangeset (T : Type*) where
  key : String
  removed : Bool
  readModel : T
  deriving DecidableEq

namespace ReadModelChangeset

variable {T : Type*} (key : T → String)

/-- The effect of a change on a map of models. -/
def apply (change : ReadModelChangeset T) (models : InsertionMap String T) :
    InsertionMap String T :=
  if change.removed then models.delete change.key
  else models.set change.key change.readModel

/-- The change names a model, and the model it stores is kept under that name. -/
def Fits (change : ReadModelChangeset T) : Prop :=
  change.key ≠ "" ∧ (change.removed = false → key change.readModel = change.key)

instance (change : ReadModelChangeset T) : Decidable (change.Fits key) :=
  inferInstanceAs (Decidable (_ ∧ _))

/-- A change leaves the models of the other keys alone. -/
theorem get_apply_of_ne (change : ReadModelChangeset T) (models : InsertionMap String T)
    {k : String} (h : k ≠ change.key) : (change.apply models).get k = models.get k := by
  rw [apply]
  split_ifs
  · exact models.get_delete_of_ne h
  · exact models.get_set_of_ne _ h

theorem get_apply_self (change : ReadModelChangeset T) (models : InsertionMap String T) :
    (change.apply models).get change.key =
      if change.removed then none else some change.readModel := by
  rw [apply]
  split_ifs
  · exact models.get_delete_self _
  · exact models.get_set_self _ _

end ReadModelChangeset

/-- Every model of a map is kept under its key. -/
def Keyed {T : Type*} (key : T → String) (models : InsertionMap String T) : Prop :=
  ∀ k m, models.get k = some m → key m = k

theorem Keyed.apply {T : Type*} {key : T → String} {models : InsertionMap String T}
    {change : ReadModelChangeset T} (h : Keyed key models) (hfits : change.Fits key) :
    Keyed key (change.apply models) := by
  intro k m hm
  by_cases hk : k = change.key
  · subst hk
    rw [change.get_apply_self] at hm
    split_ifs at hm with hremoved
    obtain rfl := Option.some.inj hm
    exact hfits.2 (by simpa using hremoved)
  · rw [change.get_apply_of_ne models hk] at hm
    exact h k m hm

/-- The models of the tenant, each under its key. -/
structure ReadModelStore {T : Type*} (key : T → String) where
  models : InsertionMap String T
  keyed : Keyed key models

namespace ReadModelStore

variable {T : Type*} {key : T → String}

def empty : ReadModelStore key where
  models := .empty
  keyed := fun _ _ h => by simp at h

def change (store : ReadModelStore key) (c : ReadModelChangeset T) (h : c.Fits key) :
    ReadModelStore key where
  models := c.apply store.models
  keyed := store.keyed.apply h

/-- What `getAll` reads, or `getById` as a list of at most one model. -/
def read (store : ReadModelStore key) : Option String → List T
  | none => store.models.entries.map Prod.snd
  | some id => (store.models.get id).toList

end ReadModelStore

/-- Where the asynchronous body of an observation stands. -/
inductive ObservationStage (T : Type*)
  | reading
  | read (items : List T)
  | subscribing
  | watching
  | ended

/-- An observation of the store. `missed` names the keys whose last change fell between the
moment of the snapshot and the subscription; no function of the source reads it. -/
structure ReadModelObservation {T : Type*} (key : T → String) where
  store : ReadModelStore key
  stage : ObservationStage T
  current : InsertionMap String T
  changes : List (ReadModelChangeset T)
  emitted : List (List T)
  stopped : Bool
  missed : List String

namespace ReadModelObservation

variable {T : Type*} {key : T → String}

def new (store : ReadModelStore key) : ReadModelObservation key where
  store := store
  stage := .reading
  current := .empty
  changes := []
  emitted := []
  stopped := false
  missed := []

/-- The selector of an observation: of `observeById` it is constant. -/
def selector (key : T → String) (id : Option String) (item : T) : String := id.getD (key item)

/-- `new Map(items.map(item => [key(item), item]))` -/
def index (select : T → String) (items : List T) : InsertionMap String T :=
  items.foldl (fun current item => current.set (select item) item) .empty

def values (models : InsertionMap String T) : List T := models.entries.map Prod.snd

/-- Give the list to the subscriber, unless it has unsubscribed. -/
def emit (o : ReadModelObservation key) : ReadModelObservation key :=
  if o.stopped then o else { o with emitted := o.emitted ++ [values o.current] }

/-- Whether the change is of a model under observation. -/
def concerns (id : Option String) (change : ReadModelChangeset T) : Bool :=
  decide (change.key ≠ "") && id.all fun i => decide (change.key = i)

/-- The handler of a change. -/
def next (id : Option String) (change : ReadModelChangeset T) (o : ReadModelObservation key) :
    ReadModelObservation key :=
  if concerns id change then { o with current := change.apply o.current }.emit else o

/-- The keys missed so far, after a change in the given stage. -/
def miss (stage : ObservationStage T) (changed : String) (missed : List String) : List String :=
  match stage with
  | .read _ | .subscribing => changed :: missed
  | .watching => missed.filter fun k => decide (k ≠ changed)
  | .reading | .ended => missed

/-- A change of the store; the watch queues it once it is subscribed. -/
def change (o : ReadModelObservation key) (c : ReadModelChangeset T) (h : c.Fits key) :
    ReadModelObservation key :=
  { o with
    store := o.store.change c h
    changes := match o.stage with
      | .watching => o.changes ++ [c]
      | _ => o.changes
    missed := miss o.stage c.key o.missed }

/-- The snapshot has been returned: index it, emit it and subscribe to the changes. -/
def returned (id : Option String) (items : List T) (o : ReadModelObservation key) :
    ReadModelObservation key :=
  { { o with current := index (selector key id) items }.emit with stage := .subscribing }

/-- The item an observation by id emits for a list. -/
def observedById (items : List T) : Option T := items.head?

end ReadModelObservation

/-- What may happen to an observation and its store. The snapshot comes in any order; a
subscription may be marked by an empty key. -/
inductive ReadModelEvent (T : Type*)
  | change (c : ReadModelChangeset T)
  | snapshot (items : List T)
  | returned
  | subscribed (marker : Option T)
  | next
  | unsubscribe
  | fail

namespace ReadModelObservation

variable {T : Type*} [DecidableEq T] {key : T → String}

def step (id : Option String) (o : ReadModelObservation key) :
    ReadModelEvent T → Option (ReadModelObservation key)
  | .change c => if h : c.Fits key then some (o.change c h) else none
  | .snapshot items =>
      match o.stage with
      | .reading =>
          if items.Perm (o.store.read id) then some { o with stage := .read items } else none
      | _ => none
  | .returned =>
      match o.stage with
      -- an observation that was unsubscribed before the snapshot subscribes to nothing
      | .read items =>
          some (if o.stopped then { o with stage := .ended } else o.returned id items)
      | _ => none
  | .subscribed marker =>
      match o.stage with
      | .subscribing =>
          some { o with
            stage := .watching
            changes := marker.toList.map fun model => ⟨"", false, model⟩ }
      | _ => none
  | .next =>
      match o.stage, o.changes with
      | .watching, c :: changes => some (next id c { o with changes := changes })
      | _, _ => none
  | .unsubscribe => some { o with stopped := true }
  | .fail => some { o with stage := .ended }

/-- One observation over all interleavings with the changes of its store. -/
def machine (key : T → String) (id : Option String) (store : ReadModelStore key) :
    Machine (ReadModelObservation key) (ReadModelEvent T) where
  init := new store
  step := step id

end ReadModelObservation

end Arc.Chronicle
