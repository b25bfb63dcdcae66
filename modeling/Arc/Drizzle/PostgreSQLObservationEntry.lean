import Arc.Foundation.InsertionMap
import Arc.Foundation.Machine

/-!
# One entry of the PostgreSQL observation manager

An entry is the LISTEN session of one tenant: its leases and the table they are routed
with, the promises and operations under way, and the callbacks still to be called. Leases,
operations, connections, recoveries and fan-outs are known by the order in which they were
made.

This module has what happens to an entry at once: a lease is released, the entry is
retired, or its connection is lost. The fan-outs and the log are kept for the statements; no
function of the source reads them.
-/

namespace Arc.Drizzle.PostgreSQLObservation

/-- A table object. -/
structure Table where
  id : ℕ
  deriving DecidableEq, Repr

/-- A physical relation, as the reader resolved it. Its key is `format('%I.%I', …)`. -/
structure PostgreSQLTableIdentity where
  key : String
  database : String
  oid : String
  schema : String
  key_ne : key ≠ ""
  deriving DecidableEq

inductive FailureKind
  | plain
  | definitive
  | readerRevalidation
  deriving DecidableEq, Repr

/-- An error: whether it is a `DefinitivePostgreSQLObservationError` or a
`ReaderRevalidationError`, its message, and the `code` of a database error. -/
structure Failure where
  kind : FailureKind
  message : String
  code : Option String
  deriving DecidableEq, Repr

namespace Failure

def plain (message : String) : Failure := ⟨.plain, message, none⟩

def definitive (message : String) : Failure := ⟨.definitive, message, none⟩

def closed : Failure := plain "Drizzle observation was closed"

def permissionDenied (failure : Failure) : Bool := decide (failure.code = some "42501")

end Failure

/-- The catalog row of the trigger `arc_changes_v1`. -/
structure TriggerRow where
  tgtype : ℕ
  tgenabled : String
  noPredicate : Bool
  attributes : String
  tgisinternal : Bool
  constraintOid : String
  tgnargs : ℕ
  arguments : String
  proname : String
  pronargs : ℕ
  returnsTrigger : Bool
  lanname : String
  functionSchema : String
  deriving DecidableEq, Repr

/-- Why a row is not the notification trigger of the relation. The arguments are
`arc_changes` in hexadecimal, ended by a zero byte. -/
def TriggerRow.reason (row : TriggerRow) (identity : PostgreSQLTableIdentity) : Option String :=
  if row.tgenabled ≠ "O" ∧ row.tgenabled ≠ "A" then some "disabled"
  else if row.tgtype ≠ 60 ∨ row.noPredicate = false ∨
      row.attributes.toList.all Char.isWhitespace = false ∨ row.tgisinternal ∨
      row.constraintOid ≠ "0" then some "events"
  else if row.proname ≠ "arc_notify_changes_v1" ∨ row.functionSchema ≠ identity.schema ∨
      row.pronargs ≠ 0 ∨ row.returnsTrigger = false ∨ row.lanname ≠ "plpgsql" then
    some "function version"
  else if row.tgnargs ≠ 1 ∨ row.arguments ≠ "6172635f6368616e67657300" then some "channel"
  else none

def triggerReason (identity : PostgreSQLTableIdentity) : Option TriggerRow → Option String
  | none => some "missing"
  | some row => row.reason identity

/-! ### Operations -/

/-- What `bounded` calls. The reader resolves the table of a lease; the check of the
listener's database is called by a lease, or by the recovery of a generation. -/
inductive Target
  | previousClose
  | factory
  | connect (connection : ℕ)
  | listen (connection : ℕ)
  | resolve (lease : ℕ)
  | database (recovering : Option ℕ)
  | trigger (identity : PostgreSQLTableIdentity)
  | heartbeat
  deriving DecidableEq

namespace Target

/-- The reader's catalog lookup is not an operation of the listener. -/
def listenerOperation : Target → Bool
  | .resolve _ => false
  | _ => true

end Target

inductive Value
  | done
  | connection (connection : ℕ)
  | identity (identity : PostgreSQLTableIdentity)
  | database (name : Option String)
  | trigger (row : Option TriggerRow)
  deriving DecidableEq

/-- The first row of the trigger query. -/
def Value.row : Value → Option TriggerRow
  | .trigger row => row
  | _ => none

abbrev Outcome := Except Failure Value

/-- Whether a call may be answered so. The wait for the previous close does not fail, and
what the factory produces is answered by `produce`. -/
def Target.answers : Target → Outcome → Bool
  | .previousClose, .error _ => false
  | _, .error _ => true
  | .previousClose, .ok .done | .connect _, .ok .done | .listen _, .ok .done => true
  | .heartbeat, .ok .done => true
  | .resolve _, .ok (.identity _) => true
  | .database _, .ok (.database _) => true
  | .trigger _, .ok (.trigger _) => true
  | _, .ok _ => false

inductive Phase
  | queued
  | sent
  | answered
  deriving DecidableEq, Repr

/-- A call of `bounded`, under the signal of one controller. -/
structure Operation where
  target : Target
  controller : ℕ
  phase : Phase
  settled : Option Outcome

namespace Operation

def settle (op : Operation) (outcome : Outcome) : Operation :=
  if op.settled.isSome then op else { op with settled := some outcome }

end Operation

/-! ### What is suspended -/

inductive StartStage
  | closing (op : ℕ)
  | opening (generation op : ℕ)
  | connecting (generation connection op : ℕ)
  | listening (generation connection op : ℕ)
  | retiring
  deriving DecidableEq, Repr

inductive StartResult
  | suspended (stage : StartStage)
  | returned
  | thrown (failure : Failure)
  deriving DecidableEq, Repr

/-- The promise `startup`; it has thrown before it is rejected. -/
inductive Startup
  | unopened
  | running (stage : StartStage)
  | threw (failure : Failure)
  | fulfilled
  | rejected (failure : Failure)
  deriving DecidableEq, Repr

/-- The promise `ready` of a lease. -/
inductive Ready
  | starting
  | waiting (gate : ℕ)
  | resolving (generation op : ℕ)
  | checking (generation op : ℕ) (identity : PostgreSQLTableIdentity)
  | validating (generation op : ℕ) (identity : PostgreSQLTableIdentity)
  | validated (generation : ℕ) (identity : PostgreSQLTableIdentity)
  | invalid (generation : ℕ) (failure : Failure)
  | fulfilled
  | rejected (failure : Failure)
  deriving DecidableEq

/-- A run of `recover`. It is `looping` at the head of its loop, and `failing` while a lease
is told its failure. -/
inductive Recovery
  | looping
  | delayed
  | starting (stage : StartStage)
  | threw (failure : Failure)
  | started
  | resolving (generation op lease : ℕ) (rest : List ℕ)
  | checking (generation op : ℕ) (identity : PostgreSQLTableIdentity) (lease : ℕ) (rest : List ℕ)
  | validating (generation op : ℕ) (identity : PostgreSQLTableIdentity) (lease : ℕ)
      (rest : List ℕ)
  | validated (generation : ℕ) (identity : PostgreSQLTableIdentity) (lease : ℕ) (rest : List ℕ)
  | invalid (generation : ℕ) (failure : Failure) (lease : ℕ) (rest : List ℕ)
  | failing (generation : ℕ) (rest : List ℕ)
  | ended
  deriving DecidableEq

def Recovery.active : Recovery → Bool
  | .ended => false
  | _ => true

/-- What awaits the query of a heartbeat. -/
inductive Heartbeat
  | awaiting (generation op : ℕ)
  | ended
  deriving DecidableEq, Repr

/-- A promise made by `readiness`. -/
inductive Gate
  | pending
  | resolved (generation : ℕ)
  | rejected (failure : Failure)
  deriving DecidableEq, Repr

def Gate.settle : Gate → Gate → Gate
  | .pending, gate => gate
  | gate, _ => gate

structure Lease where
  table : Table
  key : Option String
  released : Bool
  ready : Ready
  deriving DecidableEq

/-- What the factory can produce: a dedicated connection, another object with a `close`
method, or anything else. -/
inductive Shape
  | dedicated
  | closable
  | unusable
  deriving DecidableEq, Repr

/-- What the factory has produced, and the generation its listeners were registered with. -/
structure Connection where
  shape : Shape
  registered : Option ℕ
  deriving DecidableEq, Repr

/-! ### Callbacks -/

inductive Cause
  | notification (connection : ℕ) (payload : String)
  | recovered (generation : ℕ)
  | invalidated (failure : Failure)
  | terminated (failure : Failure)
  | disposed
  deriving DecidableEq, Repr

/-- A loop over the callbacks of leases: `changed`, `fail` or `complete`. -/
structure Fanout where
  cause : Cause
  targets : List ℕ
  deriving DecidableEq, Repr

/-- What is left of a call that is inside the callbacks of leases. -/
inductive Frame
  | fan (fanout : ℕ) (rest : List ℕ)
  | recovering (recovery : ℕ)
  | closing
  deriving DecidableEq, Repr

inductive Effect
  | query (connection : ℕ)
  | scheduleClose (connection : ℕ)
  | called (fanout lease : ℕ)
  | released (lease : ℕ)
  | delay
  | heartbeat
  deriving DecidableEq, Repr

/-- An entry. `fired` is the signal of the current controller. -/
structure Entry where
  tenant : String
  delays : List ℕ
  controller : ℕ
  fired : Bool
  leases : List Lease
  identities : InsertionMap Table PostgreSQLTableIdentity
  routing : InsertionMap String (List ℕ)
  connection : Option ℕ
  startup : Startup
  timer : Option ℕ
  dead : Bool
  generation : ℕ
  available : Bool
  gates : List Gate
  readiness : ℕ
  retries : ℕ
  wasReady : Bool
  lossReason : Option String
  operations : List Operation
  connections : List Connection
  recoveries : List Recovery
  heartbeats : List Heartbeat
  stack : List Frame
  fanouts : List Fanout
  log : List Effect

namespace Entry

def new (tenant : String) (delays : List ℕ) : Entry where
  tenant := tenant
  delays := delays
  controller := 0
  fired := false
  leases := []
  identities := .empty
  routing := .empty
  connection := none
  startup := .unopened
  timer := none
  dead := false
  generation := 0
  available := false
  gates := [.pending]
  readiness := 0
  retries := 0
  wasReady := false
  lossReason := none
  operations := []
  connections := []
  recoveries := []
  heartbeats := []
  stack := []
  fanouts := []
  log := []

/-! ### Small updates -/

def released (w : Entry) (i : ℕ) : Bool := (w.leases[i]?.map Lease.released).getD true

def key (w : Entry) (i : ℕ) : Option String := w.leases[i]?.bind Lease.key

/-- The leases in `leases`, in the order of their acquisition. -/
def live (w : Entry) : List ℕ := (List.range w.leases.length).filter fun i => !w.released i

def outcome (w : Entry) (o : ℕ) : Option Outcome := w.operations[o]?.bind Operation.settled

def setReady (w : Entry) (i : ℕ) (ready : Ready) : Entry :=
  { w with leases := w.leases.modify i fun lease => { lease with ready := ready } }

def setRecovery (w : Entry) (r : ℕ) (recovery : Recovery) : Entry :=
  { w with recoveries := w.recoveries.set r recovery }

def settle (w : Entry) (o : ℕ) (outcome : Outcome) : Entry :=
  { w with operations := w.operations.modify o fun op => op.settle outcome }

def setPhase (w : Entry) (o : ℕ) (phase : Phase) : Entry :=
  { w with operations := w.operations.modify o fun op => { op with phase := phase } }

def settleReady (w : Entry) (gate : Gate) : Entry :=
  { w with gates := w.gates.modify w.readiness fun g => g.settle gate }

def fanOut (w : Entry) (cause : Cause) (targets : List ℕ) : Entry :=
  { w with
    fanouts := w.fanouts ++ [⟨cause, targets⟩]
    stack := .fan w.fanouts.length targets :: w.stack }

/-- `bounded`, up to the promise it returns. Under a signal that has fired the operation is
never called. -/
def bounded (w : Entry) (target : Target) : Entry :=
  { w with
    operations := w.operations ++ [
      if w.fired then ⟨target, w.controller, .answered, some (.error .closed)⟩
      else ⟨target, w.controller, .queued, none⟩] }

def abort (w : Entry) : Entry :=
  { w with
    fired := true
    operations := w.operations.map fun op =>
      if op.controller = w.controller then op.settle (.error .closed) else op }

def record (w : Entry) (effect : Effect) : Entry := { w with log := w.log ++ [effect] }

def scheduleClose (w : Entry) (c : ℕ) : Entry := w.record (.scheduleClose c)

def closeConnection (w : Entry) : Entry :=
  match w.connection with
  | none => w
  | some c => w.scheduleClose c

def heartbeat (w : Entry) : Entry := { w with timer := some w.generation }

/-! ### Retirement and loss -/

/-- `shutdown` up to its callbacks. -/
def retire (w : Entry) : Entry :=
  ({ w with
    dead := true
    generation := w.generation + 1
    timer := none
    routing := .empty
    identities := .empty }.settleReady (.rejected .closed)).abort

def shutdown (w : Entry) : Entry := if w.dead then w else w.retire.closeConnection

/-- `shutdown` for the disposal of the manager. -/
def dispose (w : Entry) : Entry :=
  if w.dead then w
  else { w.retire with stack := .closing :: w.stack }.fanOut .disposed w.live

def terminate (w : Entry) (failure : Failure) : Entry :=
  if w.dead then w
  else (w.settleReady (.rejected failure)).shutdown.fanOut (.terminated failure) w.live

/-- `lost` for an entry that was ready once, up to the call of `recover`. -/
def lose (w : Entry) (message : String) : Entry :=
  { { w with
      lossReason := if w.available then some message else w.lossReason
      available := false
      generation := w.generation + 1
      timer := none }.abort.closeConnection with connection := none }

def openGate (w : Entry) : Entry :=
  { w with gates := w.gates ++ [.pending], readiness := w.gates.length }

def exhausted (w : Entry) : Failure :=
  .plain (w.lossReason.getD "PostgreSQL change listener lost: connection failure" ++
    s!" (tenant '{w.tenant}', recovery exhausted)")

/-- The head of the loop of `recover`, up to its delay. -/
def loop (w : Entry) (r : ℕ) : Entry :=
  if w.dead || w.live.isEmpty then w.setRecovery r .ended
  else
    match w.delays[w.retries]? with
    | none =>
        ({ w with retries := w.retries + 1 }.setRecovery r .ended).terminate w.exhausted
    | some _ => ({ w with retries := w.retries + 1 }.record .delay).setRecovery r .delayed

def spawn (w : Entry) : Entry := { w with recoveries := w.recoveries ++ [Recovery.looping] }

def recover (w : Entry) : Entry := w.spawn.loop w.recoveries.length

def lost (w : Entry) (message : String) : Entry :=
  if w.dead || w.fired then w
  else if !w.wasReady then w.terminate (.plain message)
  else if !w.available then w.lose message
  else (w.lose message).openGate.recover

/-- Take a lease out of the set it is routed in; an empty set is removed. -/
def unroute (routing : InsertionMap String (List ℕ)) (key : String) (i : ℕ) :
    InsertionMap String (List ℕ) :=
  match routing.get key with
  | none => routing
  | some routed =>
      if (routed.filter fun j => decide (j ≠ i)).isEmpty then routing.delete key
      else routing.set key (routed.filter fun j => decide (j ≠ i))

/-- Whether a lease of the table is left. -/
def observed (w : Entry) (table : Table) : Bool :=
  w.live.any fun i => (w.leases[i]?.map Lease.table) == some table

def unlease (w : Entry) (i : ℕ) (lease : Lease) : Entry :=
  { w with
    leases := w.leases.set i { lease with released := true }
    routing := match lease.key with
      | none => w.routing
      | some key => unroute w.routing key i }.record (.released i)

def forget (w : Entry) (table : Table) : Entry :=
  if w.observed table then w else { w with identities := w.identities.delete table }

def release (w : Entry) (i : ℕ) : Entry :=
  match w.leases[i]? with
  | none => w
  | some lease =>
      if lease.released then w
      else
        let w := (w.unlease i lease).forget lease.table
        if w.live.isEmpty then w.shutdown else w

end Entry

end Arc.Drizzle.PostgreSQLObservation
