import Arc.Chronicle.ChronicleUnitOfWork
import Arc.Foundation.Machine

/-!
# Commands that share a unit of work

A command and the commands it runs share one `ChronicleUnitOfWork`. What they do with it comes
in any order: aggregates are tracked, apply events and hand out commit results; the response
handler checks what a command returns, waits for the event store, and stages it; nested commands
complete; and at the end the scope of the root command stages what is left and commits. A
call that waits is a step before and a step after it, so that anything may happen meanwhile.
-/

namespace Arc.Chronicle

open Arc.Commands

/-! ### Aggregates -/

/-- An event, the source it is appended for, and the fields it is routed by. -/
structure EventForEventSourceId (α : Type*) where
  eventSourceId : String
  event : α
  routing : List (String × String) := []
  deriving DecidableEq, Repr

/-- A rehydrated aggregate: the source of its events, their fields when it has a reference, the
concurrency scope of its source, and what it has applied. -/
structure TrackedAggregate (α κ : Type*) where
  sourceId : String
  scope : κ
  reference : List (String × String) := []
  pending : List (EventForEventSourceId α) := []
  staged : ℕ := 0

/-- The pending events of the aggregate at a position, to be returned from a command. -/
structure AggregateRootCommitResult (α κ : Type*) where
  aggregate : ℕ
  events : List (EventForEventSourceId α)
  scopes : List (String × κ)
  start : ℕ

variable {α σ κ ρ : Type*}

namespace TrackedAggregate

/-- What the unit of work sees of an aggregate. -/
def counts (aggregate : TrackedAggregate α κ) : AggregateRoot :=
  ⟨aggregate.pending.length, aggregate.staged⟩

def hasUnstagedEvents (aggregate : TrackedAggregate α κ) : Bool :=
  aggregate.counts.hasUnstagedEvents

def apply (aggregate : TrackedAggregate α κ) (event : α) : TrackedAggregate α κ :=
  { aggregate with
    pending := aggregate.pending ++ [⟨aggregate.sourceId, event, aggregate.reference⟩] }

def commit (aggregate : TrackedAggregate α κ) (index : ℕ) : AggregateRootCommitResult α κ where
  aggregate := index
  events := aggregate.pending.drop aggregate.staged
  scopes := [(aggregate.sourceId, aggregate.scope)]
  start := aggregate.staged

def assertUnstaged (aggregate : TrackedAggregate α κ) (result : AggregateRootCommitResult α κ) :
    Option (Thrown ValidationResult) :=
  if result.start ≠ aggregate.staged ∨
      aggregate.pending.length < aggregate.staged + result.events.length then
    some (.error "Aggregate events were already staged or changed after commit()")
  else none

def stage (aggregate : TrackedAggregate α κ) (count : ℕ) : TrackedAggregate α κ :=
  { aggregate with staged := aggregate.staged + count }

end TrackedAggregate

/-! ### The response handler -/

/-- A returned event; one that is not routed is for the source the command selects. -/
structure ReturnedEvent (α : Type*) where
  eventSourceId : Option String
  event : α
  routing : List (String × String) := []

/-- A returned value that the response handler takes. -/
inductive ResponseValue (α κ : Type*)
  | events (returned : List (ReturnedEvent α)) (scopes : List (String × κ))
  | commit (result : AggregateRootCommitResult α κ)

namespace ResponseValue

def values : ResponseValue α κ → List (ReturnedEvent α)
  | .events returned _ => returned
  | .commit result => result.events.map fun entry =>
      ⟨some entry.eventSourceId, entry.event, entry.routing⟩

def scopes : ResponseValue α κ → List (String × κ)
  | .events _ scopes => scopes
  | .commit result => result.scopes

/-- The aggregate whose events the value holds. -/
def source : ResponseValue α κ → Option ℕ
  | .events _ _ => none
  | .commit result => some result.aggregate

end ResponseValue

/-- What `handle` knows once it has waited: the store, the selected source, the routing of each
event, and the concurrency scopes it has looked up for sources without one. -/
structure Preparation (α σ κ : Type*) where
  store : σ
  sourceId : String
  route : EventForEventSourceId α → List (String × String)
  scopes : List (String × κ) := []

def Preparation.entries (prepared : Preparation α σ κ) (value : ResponseValue α κ) :
    List (EventForEventSourceId α) :=
  value.values.map fun item =>
    let original : EventForEventSourceId α :=
      ⟨item.eventSourceId.getD prepared.sourceId, item.event, item.routing⟩
    { original with routing := prepared.route original }

/-- A call of `handle` that waits. -/
structure Handling (α κ : Type*) where
  context : CommandContext
  value : ResponseValue α κ

/-! ### The tree of commands -/

/-- How far the scope of the root command is with its `complete`: the aggregates it has still to
look at, the commit result it waits for, what it has thrown, and what `commit` has answered. -/
inductive RootCompletion (α κ ρ : Type*)
  | running
  | enrolling (result : CommandResult ρ ValidationResult) (remaining : List ℕ)
  | handling (result : CommandResult ρ ValidationResult)
      (commit : AggregateRootCommitResult α κ) (remaining : List ℕ)
  | threw (result : CommandResult ρ ValidationResult) (error : Thrown ValidationResult)
  | committed (result : CommandResult ρ ValidationResult) (calls : CommitCalls)
      (answer : Except (Thrown ValidationResult) (CommandResult ρ ValidationResult))

/-- Commands that share a unit. The last four fields only record: the accepted calls of `stage`,
the batches `commit` has issued, those the handler has appended on its own, and whether a
nested command has failed before the unit was completed. -/
structure CommandTree (α σ κ ρ : Type*) where
  unit : ChronicleUnitOfWork (EventForEventSourceId α) σ κ
  aggregates : List (TrackedAggregate α κ) := []
  results : List (AggregateRootCommitResult α κ) := []
  handling : List (Handling α κ) := []
  completion : RootCompletion α κ ρ := .running
  stagings : List (Option ℕ × List (EventForEventSourceId α)) := []
  issued : List (List (EventForEventSourceId α)) := []
  direct : List (Option ℕ × List (EventForEventSourceId α)) := []
  nestedFailed : Bool := false

namespace CommandTree

/-- The tree of a root command that starts. -/
def start (context : CommandContext) : CommandTree α σ κ ρ where
  unit := { context := context }

def setAggregates (tree : CommandTree α σ κ ρ) (aggregates : List (TrackedAggregate α κ)) :
    CommandTree α σ κ ρ :=
  { tree with
    aggregates := aggregates
    unit := { tree.unit with aggregates := aggregates.map TrackedAggregate.counts } }

/-- What `handle` throws before it waits. -/
def refusal (tree : CommandTree α σ κ ρ) : ResponseValue α κ → Option (Thrown ValidationResult)
  | .events _ _ => none
  | .commit result =>
      (tree.aggregates[result.aggregate]?).bind fun aggregate => aggregate.assertUnstaged result

/-- `handle` up to where it waits; there is nothing to wait for without events. -/
def handle (tree : CommandTree α σ κ ρ) (context : CommandContext) (value : ResponseValue α κ) :
    CommandTree α σ κ ρ × Option (Thrown ValidationResult) :=
  match tree.refusal value with
  | some error => (tree, some error)
  | none =>
      if value.values.isEmpty then (tree, none)
      else ({ tree with handling := tree.handling ++ [⟨context, value⟩] }, none)

/-- The cursor of the aggregate, if the events are those of one. -/
def advance (tree : CommandTree α σ κ ρ) (source : Option ℕ) (count : ℕ) : CommandTree α σ κ ρ :=
  match source with
  | none => tree
  | some index => tree.setAggregates (tree.aggregates.modify index (·.stage count))

/-- The answer to an append of the handler. -/
def accepts (append : Append) (expected : ℕ) : Bool :=
  match append with
  | .returns results =>
      match checkResults results expected with
      | .ok none => true
      | _ => false
  | _ => false

/-- The rest of `handle`: it stages, or appends on its own once the unit is completed. An error
is one of a call it has waited for, or of `stage`. -/
def handled [DecidableEq σ] [DecidableEq κ] (tree : CommandTree α σ κ ρ)
    (context : CommandContext) (value : ResponseValue α κ)
    (prepared : Except (Thrown ValidationResult) (Preparation α σ κ)) (append : Append) :
    CommandTree α σ κ ρ × Option (Thrown ValidationResult) :=
  match prepared with
  | .error error => (tree, some error)
  | .ok prepared =>
      let entries := prepared.entries value
      if tree.unit.completed then
        let tree := { tree with direct := tree.direct ++ [(value.source, entries)] }
        (if accepts append entries.length then tree.advance value.source entries.length else tree,
          none)
      else
        let staged :=
          tree.unit.stage prepared.store context entries (value.scopes ++ prepared.scopes)
        match staged.2 with
        | some error => ({ tree with unit := staged.1 }, some error)
        | none =>
            (({ tree with
                unit := staged.1
                stagings := tree.stagings ++ [(value.source, entries)] } :
                CommandTree α σ κ ρ).advance value.source entries.length, none)

/-- `complete` up to its loop over the aggregates. -/
def complete (tree : CommandTree α σ κ ρ) (result : CommandResult ρ ValidationResult)
    (resolve : Option (Thrown ValidationResult)) : CommandTree α σ κ ρ :=
  if result.isSuccess && tree.aggregates.any TrackedAggregate.hasUnstagedEvents then
    match resolve with
    | some error => { tree with completion := .threw result error }
    | none =>
        { tree with completion := .enrolling result (List.range tree.aggregates.length) }
  else { tree with completion := .enrolling result [] }

/-- One turn of the loop, up to where its call of `handle` waits. -/
def enroll (tree : CommandTree α σ κ ρ) (result : CommandResult ρ ValidationResult) (index : ℕ)
    (remaining : List ℕ) : CommandTree α σ κ ρ :=
  match tree.aggregates[index]? with
  | none => { tree with completion := .enrolling result remaining }
  | some aggregate =>
      if aggregate.hasUnstagedEvents then
        match aggregate.assertUnstaged (aggregate.commit index) with
        | some error => { tree with completion := .threw result error }
        | none => { tree with completion := .handling result (aggregate.commit index) remaining }
      else { tree with completion := .enrolling result remaining }

end CommandTree

/-- What can happen. A nested command is refused when it fails and the unit does not hear of it:
it is answered before its execution starts, as are those that are not authorized, malformed,
filtered or canceled. -/
inductive TreeEvent (α σ κ ρ : Type*)
  | track (sourceId : String) (scope : κ) (reference : List (String × String))
  | apply (aggregate : ℕ) (event : α)
  | commit (aggregate : ℕ)
  | handleEvents (context : CommandContext) (events : List (ReturnedEvent α))
      (scopes : List (String × κ))
  | handleCommit (context : CommandContext) (result : ℕ)
  | handled (index : ℕ) (prepared : Except (Thrown ValidationResult) (Preparation α σ κ))
      (append : Append)
  | nestedCompleted (result : CommandResult ρ ValidationResult)
  | nestedRefused
  | complete (result : CommandResult ρ ValidationResult)
      (resolve : Option (Thrown ValidationResult))
  | enroll
  | enrolled (prepared : Except (Thrown ValidationResult) (Preparation α σ κ)) (append : Append)
  | commitUnit (calls : CommitCalls)

namespace CommandTree

/-- One step; `timeout` is the completion timeout of the scope. -/
def step [DecidableEq σ] [DecidableEq κ] (timeout : Option CompletionTimeout)
    (tree : CommandTree α σ κ ρ) : TreeEvent α σ κ ρ → Option (CommandTree α σ κ ρ)
  | .track sourceId scope reference =>
      -- only an active unit tracks
      if tree.unit.completed then none
      else some (tree.setAggregates
        (tree.aggregates ++ [{ sourceId := sourceId, scope := scope, reference := reference }]))
  | .apply index event =>
      if index < tree.aggregates.length then
        some (tree.setAggregates (tree.aggregates.modify index (·.apply event)))
      else none
  | .commit index =>
      (tree.aggregates[index]?).map fun aggregate =>
        { tree with results := tree.results ++ [aggregate.commit index] }
  | .handleEvents context events scopes => some (tree.handle context (.events events scopes)).1
  | .handleCommit context result =>
      (tree.results[result]?).map fun result => (tree.handle context (.commit result)).1
  | .handled index prepared append =>
      (tree.handling[index]?).map fun call =>
        (({ tree with handling := tree.handling.eraseIdx index } : CommandTree α σ κ ρ).handled
          call.context call.value prepared append).1
  | .nestedCompleted result =>
      match tree.unit.nestedCompleted result with
      | .error _ => some tree
      | .ok unit =>
          some { tree with unit := unit, nestedFailed := tree.nestedFailed || !result.isSuccess }
  | .nestedRefused => some { tree with nestedFailed := tree.nestedFailed || !tree.unit.completed }
  | .complete result resolve =>
      match tree.completion with
      | .running => some (tree.complete result resolve)
      | _ => none
  | .enroll =>
      match tree.completion with
      | .enrolling result (index :: remaining) => some (tree.enroll result index remaining)
      | _ => none
  | .enrolled prepared append =>
      match tree.completion with
      | .handling result commit remaining =>
          let handled := tree.handled tree.unit.context (.commit commit) prepared append
          match handled.2 with
          | some error => some { handled.1 with completion := .threw result error }
          | none => some { handled.1 with completion := .enrolling result remaining }
      | _ => none
  | .commitUnit calls =>
      match tree.completion with
      | .enrolling result [] =>
          let commit := tree.unit.commit result timeout calls
          some { tree with
            unit := commit.unit
            issued := tree.issued ++ commit.issued.toList
            completion := .committed result calls commit.answer }
      | _ => none

/-- The commands of a root command. -/
def machine [DecidableEq σ] [DecidableEq κ] (context : CommandContext)
    (timeout : Option CompletionTimeout) :
    Machine (CommandTree α σ κ ρ) (TreeEvent α σ κ ρ) where
  init := start context
  step := step timeout

end CommandTree

end Arc.Chronicle
