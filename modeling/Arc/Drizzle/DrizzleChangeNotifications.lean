import Arc.Foundation.History
import Arc.Foundation.InsertionMap
import Arc.Foundation.Machine

/-!
# Local change notifications

`notify` publishes the changes of tables to the listeners of a tenant: at once, or, inside a
`run` of that tenant, when the run settles. Which run that is, asynchronous work takes from the
context it was started in. A context is kept here as the frames of the runs around it, the
innermost first; looking up a tenant in it is reading the map that `run` copies.

A publication calls listeners, which may call back. So what is still to be published lies on a
stack of loops, and any call may happen between two publications. Listeners do not throw, and
whoever listens does so with a callback of its own and releases it once.
-/

namespace Arc.Drizzle

variable {τ κ χ : Type}

/-! ### State -/

/-- What is published when a run settles; the run is active until then. -/
structure Frame (τ κ : Type) where
  tenant : τ
  pending : List κ := []
  active : Bool := true

/-- The frames of the runs around some work, the innermost first. -/
abbrev FrameContext (τ : Type) := List (τ × ℕ)

/-- A listener with the map and the set that its release has captured. -/
structure Listener (τ κ : Type) where
  tenant : τ
  table : κ
  tables : ℕ
  listeners : ℕ
  released : Bool := false

/-- Why something is published: a run has settled, or a notification was raised. -/
inductive Cause
  | run (frame : ℕ)
  | notification (identity : ℕ)
  deriving DecidableEq

/-- What a loop over tables has still to publish. -/
structure Publishing (τ κ : Type) where
  cause : Cause
  tenant : τ
  remaining : List κ

inductive Fact (τ κ : Type)
  | listened (listener : ℕ) (tenant : τ) (table : κ)
  | released (listener : ℕ)
  | opened (context : FrameContext τ) (tenant : τ) (frame : ℕ)
  | joined (context : FrameContext τ) (tenant : τ) (frame : ℕ)
  | notified (context : FrameContext τ) (tenant : τ) (frame : ℕ) (table : κ)
  | raised (context : FrameContext τ) (tenant : τ) (identity : ℕ) (table : κ)
  | settled (frame : ℕ)
  | published (cause : Cause) (tenant : τ) (table : κ) (called : List ℕ)
  | completed (cause : Cause)

/-- A target is a registered table, or the class of one. -/
inductive Target (κ χ : Type)
  | table (table : κ)
  | model (model : χ)

structure DrizzleChangeNotifications (τ κ χ : Type) where
  tables : InsertionMap χ κ
  enabled : Bool := true
  listeners : InsertionMap τ ℕ := .empty
  tableMaps : ℕ → InsertionMap κ ℕ := fun _ => .empty
  listenerSets : ℕ → List ℕ := fun _ => []
  /-- How many maps and sets have been made. -/
  made : ℕ := 0
  registered : List (Listener τ κ) := []
  frames : List (Frame τ κ) := []
  contexts : List (FrameContext τ) := [[]]
  notifications : ℕ := 0
  publishing : List (Publishing τ κ) := []
  log : List (Fact τ κ) := []

namespace DrizzleChangeNotifications

variable [DecidableEq τ] [DecidableEq κ] [DecidableEq χ]

/-! ### Notifications and runs -/

/-- The members of a set after the items were added one by one. -/
def addAll (set items : List κ) : List κ :=
  items.foldl (fun set item => if item ∈ set then set else set ++ [item]) set

/-- The table a target stands for, if it is a registered one. -/
def resolve (s : DrizzleChangeNotifications τ κ χ) (target : Target κ χ) : Option κ :=
  let table := match target with
    | .table table => some table
    | .model model => s.tables.get model
  table.filter fun table => (s.tables.entries.map Prod.snd).contains table

/-- The active frame a context has for a tenant. -/
def activeFrame (s : DrizzleChangeNotifications τ κ χ) (context : FrameContext τ) (tenant : τ) :
    Option (ℕ × Frame τ κ) :=
  (context.lookup tenant).bind fun identity =>
    (s.frames[identity]?.filter (·.active)).map fun frame => (identity, frame)

/-- Validate even in disabled mode, then queue within a command or publish immediately. -/
def notify (s : DrizzleChangeNotifications τ κ χ) (context : FrameContext τ) (tenant : τ)
    (targets : List (Target κ χ)) : DrizzleChangeNotifications τ κ χ :=
  match targets.mapM s.resolve with
  | none => s
  | some resolved =>
      if !s.enabled then s
      else
        match s.activeFrame context tenant with
        | some (identity, frame) =>
            { s with
              frames := s.frames.set identity
                { frame with pending := addAll frame.pending resolved }
              log := s.log ++ (addAll [] resolved).map (.notified context tenant identity) }
        | none =>
            { s with
              notifications := s.notifications + 1
              publishing :=
                ⟨.notification s.notifications, tenant, addAll [] resolved⟩ :: s.publishing
              log := s.log ++ (addAll [] resolved).map (.raised context tenant s.notifications) }

/-- Nested calls for this tenant join the ambient frame; independent calls never share one. -/
def run (s : DrizzleChangeNotifications τ κ χ) (context : FrameContext τ) (tenant : τ) :
    DrizzleChangeNotifications τ κ χ :=
  match s.activeFrame context tenant with
  | some (identity, _) => { s with log := s.log ++ [.joined context tenant identity] }
  | none =>
      { s with
        frames := s.frames ++ [{ tenant := tenant }]
        contexts := s.contexts ++ [(tenant, s.frames.length) :: context]
        log := s.log ++ [.opened context tenant s.frames.length] }

/-- What a run executes has succeeded or failed; either way its changes are published. -/
def settle (s : DrizzleChangeNotifications τ κ χ) (identity : ℕ) :
    Option (DrizzleChangeNotifications τ κ χ) :=
  (s.frames[identity]?.filter (·.active)).map fun frame =>
    { s with
      frames := s.frames.set identity { frame with active := false, pending := [] }
      publishing := ⟨.run identity, frame.tenant, frame.pending⟩ :: s.publishing
      log := s.log ++ [.settled identity] }

/-! ### Listeners -/

def listen (s : DrizzleChangeNotifications τ κ χ) (tenant : τ) (table : κ) :
    DrizzleChangeNotifications τ κ χ :=
  let tables := (s.listeners.get tenant).getD s.made
  let existing := if (s.listeners.get tenant).isSome then s.tableMaps tables else .empty
  let listeners := (existing.get table).getD (s.made + 1)
  let set := if (existing.get table).isSome then s.listenerSets listeners else []
  { s with
    listeners := s.listeners.set tenant tables
    tableMaps := Function.update s.tableMaps tables (existing.set table listeners)
    listenerSets := Function.update s.listenerSets listeners (set ++ [s.registered.length])
    made := s.made + 2
    registered := s.registered ++ [⟨tenant, table, tables, listeners, false⟩]
    log := s.log ++ [.listened s.registered.length tenant table] }

/-- The function `listen` returns, with what it has captured. -/
def release (s : DrizzleChangeNotifications τ κ χ) (identity : ℕ) (listener : Listener τ κ) :
    DrizzleChangeNotifications τ κ χ :=
  let listeners := (s.listenerSets listener.listeners).erase identity
  let tables := if listeners.isEmpty then (s.tableMaps listener.tables).delete listener.table
    else s.tableMaps listener.tables
  { s with
    listenerSets := Function.update s.listenerSets listener.listeners listeners
    tableMaps := Function.update s.tableMaps listener.tables tables
    listeners := if tables.entries.isEmpty then s.listeners.delete listener.tenant
      else s.listeners
    registered := s.registered.set identity { listener with released := true }
    log := s.log ++ [.released identity] }

/-- The listeners of a tenant and a table. -/
def listenersOf (s : DrizzleChangeNotifications τ κ χ) (tenant : τ) (table : κ) : List ℕ :=
  match s.listeners.get tenant with
  | none => []
  | some tables =>
      match (s.tableMaps tables).get table with
      | none => []
      | some listeners => s.listenerSets listeners

/-! ### Publishing -/

/-- The innermost loop publishes its next table, or has published all of them. -/
def publish (s : DrizzleChangeNotifications τ κ χ) : Option (DrizzleChangeNotifications τ κ χ) :=
  match s.publishing with
  | [] => none
  | ⟨cause, _, []⟩ :: outer =>
      some { s with publishing := outer, log := s.log ++ [.completed cause] }
  | ⟨cause, tenant, table :: remaining⟩ :: outer =>
      some { s with
        publishing := ⟨cause, tenant, remaining⟩ :: outer
        log := s.log ++ [.published cause tenant table (s.listenersOf tenant table)] }

inductive Event (τ κ χ : Type)
  | notify (context : ℕ) (tenant : τ) (targets : List (Target κ χ))
  | run (context : ℕ) (tenant : τ)
  | settle (frame : ℕ)
  | listen (tenant : τ) (table : κ)
  | release (listener : ℕ)
  | publish

/-- Calls come from any context there is, also long after its runs have settled. -/
def step (s : DrizzleChangeNotifications τ κ χ) :
    Event τ κ χ → Option (DrizzleChangeNotifications τ κ χ)
  | .notify context tenant targets => do
      let context ← s.contexts[context]?
      some (s.notify context tenant targets)
  | .run context tenant => do
      let context ← s.contexts[context]?
      some (s.run context tenant)
  | .settle frame => s.settle frame
  | .listen tenant table => some (s.listen tenant table)
  | .release identity => do
      let listener ← s.registered[identity]?
      -- An observation asks whether it has released its listener before it does.
      if listener.released then none else some (s.release identity listener)
  | .publish => s.publish

/-- The bus of an application before anyone listens. -/
def machine (tables : InsertionMap χ κ) (enabled : Bool) :
    Machine (DrizzleChangeNotifications τ κ χ) (Event τ κ χ) where
  init := { tables := tables, enabled := enabled }
  step := step

end DrizzleChangeNotifications

end Arc.Drizzle
