import Arc.Drizzle.PostgreSQLObservationEntry

/-!
# The PostgreSQL observation manager

The asynchronous parts of an entry (`start`, the `ready` promise of each lease, `recover`,
the heartbeat) are suspended at an await and resumed by a step; what `bounded` has called is
an operation of its own, queued, called and answered by steps. A loop over the callbacks of
leases calls one of them at a time, and until the stack of these loops is empty only what a
callback may call can happen. A timer fires when nothing else can run.

The manager keeps every entry it has made; `current` are the entries of `#entries`.
-/

namespace Arc.Drizzle.PostgreSQLObservation

namespace Entry

/-! ### `start` -/

def request (w : Entry) : Entry := { w with generation := w.generation + 1 }.bounded .factory

/-- `start`, up to its first await. -/
def start (w : Entry) (previousClose : Bool) : Entry × StartStage :=
  if previousClose then (w.bounded .previousClose, .closing w.operations.length)
  else (w.request, .opening (w.generation + 1) w.operations.length)

/-- Keep the connection and register its listeners. -/
def adopt (w : Entry) (generation c : ℕ) : Entry :=
  { w with
    connection := some c
    connections := w.connections.modify c fun connection =>
      { connection with registered := some generation } }

def notDedicated : Failure := .plain "PostgreSQL listener requires a dedicated connection"

/-- The factory has answered in time. -/
def opened (w : Entry) (generation c : ℕ) (connection : Connection) : Entry × StartResult :=
  if w.dead then (w.scheduleClose c, .suspended .retiring)
  else
    match connection.shape with
    | .dedicated => ((w.adopt generation c).bounded (.connect c),
        .suspended (.connecting generation c w.operations.length))
    | .closable => (w.scheduleClose c, .thrown notDedicated)
    | .unusable => (w, .thrown notDedicated)

def resumeStart (w : Entry) : StartStage → Option (Entry × StartResult)
  | .closing o =>
      match w.outcome o with
      | none => none
      | some (.error failure) => some (w, .thrown failure)
      | some (.ok _) => some (
          if w.dead then (w, .thrown .closed)
          else (w.request, .suspended (.opening (w.generation + 1) w.operations.length)))
  | .opening generation o =>
      match w.outcome o with
      | some (.error failure) => some (w, .thrown failure)
      | some (.ok (.connection c)) => w.connections[c]?.map (w.opened generation c)
      | _ => none
  | .connecting generation c o =>
      match w.outcome o with
      | none => none
      | some (.error failure) => some (w, .thrown failure)
      | some (.ok _) => some (w.bounded (.listen c),
          .suspended (.listening generation c w.operations.length))
  | .listening generation _ o =>
      match w.outcome o with
      | none => none
      | some (.error failure) => some (w, .thrown failure)
      | some (.ok _) => some (w,
          if w.dead || decide (generation ≠ w.generation) then .thrown .closed else .returned)
  | .retiring => some (w, .thrown .closed)

end Entry

/-- Who has called `start`. -/
inductive Host
  | startup
  | recovery (recovery : ℕ)
  deriving DecidableEq, Repr

namespace Entry

def stage (w : Entry) : Host → Option StartStage
  | .startup => match w.startup with
      | .running stage => some stage
      | _ => none
  | .recovery r => match w.recoveries[r]? with
      | some (.starting stage) => some stage
      | _ => none

def setStart (w : Entry) : Host → StartResult → Entry
  | .startup, .suspended stage => { w with startup := .running stage }
  | .startup, .returned => { w with startup := .fulfilled }
  | .startup, .thrown failure => { w with startup := .threw failure }
  | .recovery r, .suspended stage => w.setRecovery r (.starting stage)
  | .recovery r, .returned => w.setRecovery r .started
  | .recovery r, .thrown failure => w.setRecovery r (.threw failure)

/-- The handler `acquire` gives to the startup. -/
def failStartup (w : Entry) (failure : Failure) : Entry :=
  { w.terminate failure with startup := .rejected failure }

def startFailure (w : Entry) : Failure :=
  .plain s!"PostgreSQL change listener could not start for tenant '{w.tenant}': acquisition"

/-! ### `validate` -/

def validate (w : Entry) (identity : PostgreSQLTableIdentity) :
    Outcome → Entry × Except Failure Unit
  | .error failure =>
      (if w.wasReady && !w.available && !failure.permissionDenied then
          w.lost "PostgreSQL change listener lost: validation failure"
        else w,
        .error (
          if failure.permissionDenied then
            .definitive (s!"PostgreSQL observation cannot inspect triggers for '{identity.key}'" ++
              "; check catalog permissions")
          else .plain s!"PostgreSQL observation cannot inspect triggers for '{identity.key}'"))
  | .ok value =>
      (w, match triggerReason identity value.row with
        | none => .ok ()
        | some reason => .error (.definitive (
            s!"PostgreSQL observation trigger invalid for '{identity.key}': {reason}" ++
              "; apply postgresqlChangeTrigger(...) through an application migration")))

def mismatch (w : Entry) : String :=
  "PostgreSQL observation database/table mapping differs between reader and listener " ++
    s!"for tenant '{w.tenant}'"

/-! ### `ready` -/

def failReady (w : Entry) (i : ℕ) (failure : Failure) : Entry :=
  (w.release i).setReady i (.rejected failure)

def resolve (w : Entry) (i : ℕ) : Entry :=
  (w.bounded (.resolve i)).setReady i (.resolving w.generation w.operations.length)

/-- The head of the loop of `ready`. -/
def readyLoop (w : Entry) (i : ℕ) : Entry :=
  if w.released i || w.dead then w.failReady i .closed
  else if w.wasReady && !w.available then w.setReady i (.waiting w.readiness)
  else w.resolve i

/-- Whether the listener of the generation has been lost. -/
def stale (w : Entry) (generation : ℕ) : Bool :=
  w.wasReady && (decide (generation ≠ w.generation) || !w.available)

def readyCaught (w : Entry) (i generation : ℕ) (failure : Failure) : Entry :=
  if w.stale generation && !w.released i && !w.dead then w.readyLoop i
  else w.failReady i failure

/-- A lease has completed its validation. -/
def route (w : Entry) (i : ℕ) (table : Table) (identity : PostgreSQLTableIdentity) : Entry :=
  { w with
    identities := w.identities.set table identity
    leases := w.leases.modify i fun lease =>
      { lease with key := some identity.key, ready := .fulfilled }
    routing :=
      let routed := (w.routing.get identity.key).getD []
      w.routing.set identity.key (if i ∈ routed then routed else routed ++ [i]) }

/-- The first validated lease makes the entry ready. -/
def becomeReady (w : Entry) : Entry :=
  if w.wasReady then w
  else ({ w with available := true, wasReady := true }.settleReady (.resolved w.generation)).heartbeat

def validated (w : Entry) (i generation : ℕ) (lease : Lease) (identity : PostgreSQLTableIdentity) :
    Entry :=
  if lease.released || w.dead then w.readyCaught i generation .closed
  else if w.stale generation then w.readyLoop i
  else if (w.identities.get lease.table).any fun existing =>
      decide (existing.key ≠ identity.key ∨ existing.database ≠ identity.database) then
    w.readyCaught i generation (.plain w.mismatch)
  else (w.route i lease.table identity).becomeReady

def resumeReady (w : Entry) (i : ℕ) (lease : Lease) : Option Entry :=
  match lease.ready with
  | .starting =>
      match w.startup with
      | .fulfilled => some (w.readyLoop i)
      | .rejected failure => some (w.failReady i failure)
      | _ => none
  | .waiting gate =>
      match w.gates[gate]? with
      | some (.resolved _) =>
          some (if lease.released || w.dead then w.failReady i .closed else w.resolve i)
      | some (.rejected failure) => some (w.failReady i failure)
      | _ => none
  | .resolving generation o =>
      match w.outcome o with
      | some (.error failure) => some (w.readyCaught i generation failure)
      | some (.ok (.identity identity)) => some (
          if lease.released || w.dead then w.readyCaught i generation .closed
          else if w.stale generation then w.readyLoop i
          else (w.bounded (.database none)).setReady i
            (.checking generation w.operations.length identity))
      | _ => none
  | .checking generation o identity =>
      match w.outcome o with
      | some (.error failure) => some (w.readyCaught i generation failure)
      | some (.ok (.database name)) => some (
          if name ≠ some identity.database then w.readyCaught i generation (.plain w.mismatch)
          else (w.bounded (.trigger identity)).setReady i
            (.validating generation w.operations.length identity))
      | _ => none
  | .validating generation o identity =>
      (w.outcome o).map fun outcome =>
        match w.validate identity outcome with
        | (w', .ok _) => w'.setReady i (.validated generation identity)
        | (w', .error failure) => w'.setReady i (.invalid generation failure)
  | .validated generation identity => some (w.validated i generation lease identity)
  | .invalid generation failure => some (w.readyCaught i generation failure)
  | _ => none

/-! ### `recover` -/

/-- The end of a successful attempt. A key is only given to a lease between two steps, so
the leases called are known when the loop over them starts. -/
def recovered (w : Entry) (r generation : ℕ) : Entry :=
  if w.dead || decide (generation ≠ w.generation) || w.live.isEmpty then w.setRecovery r .ended
  else
    ((({ w with available := true, lossReason := none }.settleReady
      (.resolved generation)).heartbeat).setRecovery r .ended).fanOut (.recovered generation)
        (w.live.filter fun i => (w.key i).isSome)

/-- The loop over the leases of an attempt. -/
def leaseLoop (w : Entry) (r generation : ℕ) : List ℕ → Entry
  | [] => w.recovered r generation
  | i :: rest =>
      if w.released i || (w.key i).isNone then w.leaseLoop r generation rest
      else (w.bounded (.resolve i)).setRecovery r
        (.resolving generation w.operations.length i rest)

/-- An attempt has failed. -/
def caught (w : Entry) (r : ℕ) (failure : Failure) : Entry :=
  if w.dead then w.setRecovery r .ended
  else
    (if w.fired then w
      else w.lost (if failure.kind = .readerRevalidation then failure.message
        else "PostgreSQL change listener lost: recovery attempt failed")).loop r

def readerFailure : Failure :=
  ⟨.readerRevalidation, "PostgreSQL change listener lost: reader revalidation failure", none⟩

/-- The revalidation of a lease has failed. Only an outcome a retry cannot change fails the
observation. -/
def leaseCaught (w : Entry) (r generation i : ℕ) (rest : List ℕ) (failure : Failure) : Entry :=
  if w.fired then w.caught r failure
  else if failure.kind = .definitive then
    if w.released i then w.leaseLoop r generation rest
    else
      ({ w with stack := .recovering r :: w.stack }.setRecovery r
        (.failing generation rest)).fanOut (.invalidated failure) [i]
  else w.caught r readerFailure

/-- The lease is revalidated. -/
def revalidated (w : Entry) (r generation i : ℕ) (identity : PostgreSQLTableIdentity)
    (rest : List ℕ) : Entry :=
  if w.fired then
    w.leaseCaught r generation i rest (.plain "PostgreSQL listener operation timed out")
  else
    (match w.leases[i]? with
      | some ⟨table, _, false, _⟩ =>
          if w.dead then w else { w with identities := w.identities.set table identity }
      | _ => w).leaseLoop r generation rest

def knownDatabase (w : Entry) (i : ℕ) : Option String :=
  (w.leases[i]?.bind fun lease => w.identities.get lease.table).map (·.database)

def resumeRecovery (w : Entry) (r : ℕ) : Recovery → Option Entry
  | .delayed => if w.dead then some (w.setRecovery r .ended) else none
  | .threw failure => some (w.caught r failure)
  | .started => some (w.leaseLoop r w.generation w.live)
  | .resolving generation o i rest =>
      match w.outcome o with
      | some (.error failure) => some (w.leaseCaught r generation i rest failure)
      | some (.ok (.identity identity)) => some (
          if w.key i ≠ some identity.key ∨ w.knownDatabase i ≠ some identity.database then
            w.leaseCaught r generation i rest (.definitive w.mismatch)
          else (w.bounded (.database (some generation))).setRecovery r
            (.checking generation w.operations.length identity i rest))
      | _ => none
  | .checking generation o identity i rest =>
      match w.outcome o with
      | some (.error failure) => some (w.leaseCaught r generation i rest failure)
      | some (.ok (.database name)) => some (
          if name ≠ some identity.database then
            w.leaseCaught r generation i rest (.definitive w.mismatch)
          else (w.bounded (.trigger identity)).setRecovery r
            (.validating generation w.operations.length identity i rest))
      | _ => none
  | .validating generation o identity i rest =>
      (w.outcome o).map fun outcome =>
        match w.validate identity outcome with
        | (w', .ok _) => w'.setRecovery r (.validated generation identity i rest)
        | (w', .error failure) => w'.setRecovery r (.invalid generation failure i rest)
  | .validated generation identity i rest => some (w.revalidated r generation i identity rest)
  | .invalid generation failure i rest => some (w.leaseCaught r generation i rest failure)
  | _ => none

/-! ### The heartbeat -/

def endHeartbeat (w : Entry) (h : ℕ) : Entry :=
  { w with heartbeats := w.heartbeats.set h .ended }

def resumeHeartbeat (w : Entry) (h : ℕ) : Heartbeat → Option Entry
  | .awaiting generation o =>
      match w.outcome o with
      | none => none
      | some (.ok _) => some (
          if w.dead || decide (generation ≠ w.generation) then w.endHeartbeat h
          else ((({ w with retries := 0 }).record .heartbeat).heartbeat).endHeartbeat h)
      | some (.error _) => some (
          (if generation = w.generation then
              w.lost "PostgreSQL change listener lost: heartbeat failure"
            else w).endHeartbeat h)
  | .ended => none

/-- The timer of the heartbeat fires. -/
def beat (w : Entry) (generation : ℕ) : Entry :=
  let w := { w with timer := none }
  if w.dead || decide (generation ≠ w.generation) then w
  else
    { w.bounded .heartbeat with
      heartbeats := w.heartbeats ++ [.awaiting generation w.operations.length] }

/-! ### Operations -/

/-- The connection a query of the listener goes to when its operation is called. -/
def receiver (w : Entry) : Target → Option ℕ
  | .listen c => some c
  | .database _ | .trigger _ | .heartbeat => w.connection
  | _ => none

/-- The operation is called. Without a connection its query is a type error. -/
def send (w : Entry) (o : ℕ) (target : Target) : Entry :=
  match target with
  | .listen _ | .database _ | .trigger _ | .heartbeat =>
      match w.receiver target with
      | none => (w.setPhase o .answered).settle o (.error (.plain "no connection"))
      | some c => (w.setPhase o .sent).record (.query c)
  | _ => w.setPhase o .sent

def unverified (w : Entry) : Failure :=
  .plain ("PostgreSQL observation could not verify the listener database " ++
    s!"for tenant '{w.tenant}'")

/-- The handlers of the operation itself run before `bounded` settles. -/
def answer (w : Entry) (o : ℕ) (target : Target) (outcome : Outcome) : Entry :=
  match target, outcome with
  | .database none, .error _ => (w.settle o (.error w.unverified)).setPhase o .answered
  | .database (some generation), .error failure =>
      ((if !w.dead && decide (generation = w.generation) then
          w.lost "PostgreSQL change listener lost: database verification failure"
        else w).settle o (.error failure)).setPhase o .answered
  | _, _ => (w.settle o outcome).setPhase o .answered

/-- The factory has produced a connection; a late one is closed. -/
def produce (w : Entry) (o : ℕ) (op : Operation) (shape : Shape) : Entry :=
  let c := w.connections.length
  let w := { w with connections := w.connections ++ [Connection.mk shape none] }.setPhase o
    .answered
  if op.settled.isSome then w.scheduleClose c else w.settle o (.ok (.connection c))

def timeout (w : Entry) (o : ℕ) (target : Target) : Entry :=
  if target.listenerOperation then
    (w.settle o (.error (.plain "PostgreSQL listener operation timed out"))).lost
      "PostgreSQL change listener lost: operation timed out"
  else w.settle o (.error (.plain "PostgreSQL reader catalog lookup timed out"))

/-! ### What can run -/

def answered (w : Entry) (o : ℕ) : Bool := (w.outcome o).isSome

def stageReady (w : Entry) : StartStage → Bool
  | .closing o | .opening _ o | .connecting _ _ o | .listening _ _ o => w.answered o
  | .retiring => false

def startupReady (w : Entry) : Bool :=
  match w.startup with
  | .running stage => w.stageReady stage
  | .threw _ => true
  | _ => false

def leaseReady (w : Entry) (lease : Lease) : Bool :=
  match lease.ready with
  | .starting => match w.startup with
      | .fulfilled | .rejected _ => true
      | _ => false
  | .waiting gate => decide (w.gates[gate]? ≠ some .pending)
  | .resolving _ o | .checking _ o _ | .validating _ o _ => w.answered o
  | .validated _ _ | .invalid _ _ => true
  | .fulfilled | .rejected _ => false

def recoveryReady (w : Entry) : Recovery → Bool
  | .delayed => w.dead
  | .starting stage => w.stageReady stage
  | .resolving _ o _ _ | .checking _ o _ _ _ | .validating _ o _ _ _ => w.answered o
  | .ended => false
  | _ => true

def heartbeatReady (w : Entry) : Heartbeat → Bool
  | .awaiting _ o => w.answered o
  | .ended => false

/-- No callback is running, no operation is about to be called, and nothing awaited has
been answered. -/
def quiet (w : Entry) : Bool :=
  w.stack.isEmpty && w.operations.all (fun op => decide (op.phase ≠ .queued)) &&
    !w.startupReady && w.leases.all (fun lease => !w.leaseReady lease) &&
    w.recoveries.all (fun recovery => !w.recoveryReady recovery) &&
    w.heartbeats.all (fun heartbeat => !w.heartbeatReady heartbeat)

/-! ### Steps -/

/-- Continue the innermost loop over callbacks. -/
def call (w : Entry) : Option Entry :=
  match w.stack with
  | [] => none
  | .fan _ [] :: stack => some { w with stack := stack }
  | .fan n (i :: rest) :: stack =>
      let w := { w with stack := .fan n rest :: stack }
      some (if w.released i then w else w.record (.called n i))
  | .recovering r :: stack =>
      match w.recoveries[r]? with
      | some (.failing generation rest) =>
          some ({ w with stack := stack }.leaseLoop r generation rest)
      | _ => none
  | .closing :: stack => some { w with stack := stack }.closeConnection

def acquire (w : Entry) (table : Table) : Entry :=
  { w with leases := w.leases ++ [⟨table, none, false, .starting⟩] }

/-- The delay of a recovery has elapsed. -/
def attempt (w : Entry) (r : ℕ) (previousClose : Bool) : Entry :=
  let (w, stage) := { w with controller := w.controller + 1, fired := false }.start previousClose
  w.setRecovery r (.starting stage)

/-- The listener of `onDisconnect`. -/
def disconnect (w : Entry) (generation : ℕ) (error : Bool) : Entry :=
  if !w.dead && decide (generation = w.generation) then
    w.lost (if error then "PostgreSQL change listener lost: connection failure"
      else "PostgreSQL change listener lost: connection closed")
  else w

/-- The listener of `onNotification`. -/
def notify (w : Entry) (c generation : ℕ) (channel : String) (payload : Option String) : Entry :=
  match payload with
  | none => w
  | some payload =>
      if w.dead || decide (generation ≠ w.generation) || decide (channel ≠ "arc_changes") ||
          decide (payload = "") then w
      else w.fanOut (.notification c payload) ((w.routing.get payload).getD [])

end Entry

/-- What can happen to an entry. The first call of `acquire` opens it; `previousClose` says
whether a close of the tenant is pending. -/
inductive Event
  | open (previousClose : Bool)
  | acquire (table : Table)
  | release (lease : ℕ)
  | dispose
  | call
  | send (op : ℕ)
  | answer (op : ℕ) (outcome : Outcome)
  | produce (op : ℕ) (shape : Shape)
  | timeout (op : ℕ)
  | resumeStart (host : Host)
  | rejectStartup
  | resumeReady (lease : ℕ)
  | resumeRecovery (recovery : ℕ)
  | attempt (recovery : ℕ) (previousClose : Bool)
  | beat
  | resumeHeartbeat (heartbeat : ℕ)
  | disconnect (connection : ℕ) (error : Bool)
  | notify (connection : ℕ) (channel : String) (payload : Option String)

/-- Whether an event can happen inside a callback. -/
def Event.synchronous : Event → Bool
  | .open _ | .acquire _ | .release _ | .dispose | .call => true
  | .disconnect _ _ | .notify _ _ _ => true
  | _ => false

namespace Entry

/-- The event happens, whatever else is running. -/
def perform (w : Entry) : Event → Option Entry
  | .open previousClose =>
      if w.startup = .unopened ∧ ¬ w.dead then
        let (w, stage) := w.start previousClose
        some { w with startup := .running stage }
      else none
  | .acquire table =>
      if w.dead || decide (w.startup = .unopened) then none else some (w.acquire table)
  | .release i => some (w.release i)
  | .dispose => some w.dispose
  | .call => w.call
  | .send o =>
      match w.operations[o]? with
      | some op => if op.phase = .queued then some (w.send o op.target) else none
      | none => none
  | .answer o outcome =>
      match w.operations[o]? with
      | some op =>
          if op.phase = .sent ∧ op.target.answers outcome then
            some (w.answer o op.target outcome)
          else none
      | none => none
  | .produce o shape =>
      match w.operations[o]? with
      | some op =>
          if op.phase = .sent ∧ op.target = .factory then some (w.produce o op shape) else none
      | none => none
  | .timeout o =>
      match w.operations[o]? with
      | some op =>
          if w.quiet ∧ op.settled.isNone then some (w.timeout o op.target) else none
      | none => none
  | .resumeStart host =>
      (w.stage host).bind fun stage =>
        (w.resumeStart stage).map fun result => result.1.setStart host result.2
  | .rejectStartup =>
      match w.startup with
      | .threw _ => some (w.failStartup w.startFailure)
      | _ => none
  | .resumeReady i => w.leases[i]?.bind (w.resumeReady i)
  | .resumeRecovery r => w.recoveries[r]?.bind (w.resumeRecovery r)
  | .attempt r previousClose =>
      if w.quiet ∧ w.recoveries[r]? = some .delayed then some (w.attempt r previousClose)
      else none
  | .beat => if w.quiet then w.timer.map w.beat else none
  | .resumeHeartbeat h => w.heartbeats[h]?.bind (w.resumeHeartbeat h)
  | .disconnect c error =>
      (w.connections[c]?.bind Connection.registered).map fun generation =>
        w.disconnect generation error
  | .notify c channel payload =>
      (w.connections[c]?.bind Connection.registered).map fun generation =>
        w.notify c generation channel payload

/-- What is awaited resumes when no callback is running. -/
def step (w : Entry) (e : Event) : Option Entry :=
  if e.synchronous || w.stack.isEmpty then w.perform e else none

end Entry

/-! ### The manager -/

structure PostgreSQLObservationManager where
  delays : List ℕ
  entries : List Entry
  current : InsertionMap String ℕ
  disposed : Bool
  disposing : List ℕ

/-- What can happen to a manager; `shutdownNext` is the next turn of the loop of its
disposal. -/
inductive ManagerEvent
  | acquire (tenant : String) (table : Table) (previousClose : Bool)
  | entry (k : ℕ) (e : Event)
  | dispose
  | shutdownNext

/-- The events of an entry that are not calls of the manager. -/
def Event.own : Event → Bool
  | .open _ | .acquire _ | .dispose => false
  | _ => true

namespace PostgreSQLObservationManager

def new (delays : List ℕ) : PostgreSQLObservationManager := ⟨delays, [], .empty, false, []⟩

/-- Nothing is inside a callback or in the loop of the disposal. -/
def idle (m : PostgreSQLObservationManager) : Bool :=
  m.disposing.isEmpty && m.entries.all fun w => w.stack.isEmpty

/-- The end of `shutdown` takes the entry out of the map. -/
def update (m : PostgreSQLObservationManager) (k : ℕ) (w : Entry) :
    PostgreSQLObservationManager :=
  { m with
    entries := m.entries.set k w
    current :=
      if w.dead && !w.stack.contains .closing && decide (m.current.get w.tenant = some k) then
        m.current.delete w.tenant
      else m.current }

/-- An entry for a tenant that has none. -/
def create (m : PostgreSQLObservationManager) (tenant : String) (w : Entry) :
    PostgreSQLObservationManager :=
  { m with
    entries := m.entries ++ [w]
    current := m.current.set tenant m.entries.length }

def step (m : PostgreSQLObservationManager) : ManagerEvent → Option PostgreSQLObservationManager
  | .acquire tenant table previousClose =>
      if m.disposed then none
      else
        match m.current.get tenant with
        | some k =>
            m.entries[k]?.bind fun w => (w.step (.acquire table)).map fun w' => m.update k w'
        | none =>
            ((Entry.new tenant m.delays).step (.open previousClose)).bind fun w =>
              (w.step (.acquire table)).map fun w' => m.create tenant w'
  | .entry k e =>
      if e.own && (e.synchronous || m.idle) then
        m.entries[k]?.bind fun w => (w.step e).map fun w' => m.update k w'
      else none
  | .dispose =>
      if m.disposed then some m
      else some { m with disposed := true, disposing := m.current.entries.map Prod.snd }
  | .shutdownNext =>
      match m.disposing with
      | [] => none
      | k :: rest =>
          m.entries[k]?.bind fun w => (w.step .dispose).map fun w' =>
            { m with disposing := rest }.update k w'

def machine (delays : List ℕ) : Machine PostgreSQLObservationManager ManagerEvent where
  init := new delays
  step := step

end PostgreSQLObservationManager

end Arc.Drizzle.PostgreSQLObservation
