import Arc.Drizzle.PostgreSQLObservationManager
import Mathlib.Logic.Relation

/-!
# What a step of an entry does

A step of an entry is a sequence of moves: small updates, each with what was checked before
it. An invariant is proved for one move at a time.

Three moves are mistakes of the source. They are allowed by the parameter of `Move`, and
`commits` says of a state and an event that the step makes one.
-/

namespace Arc.Drizzle.PostgreSQLObservation

/-- A recovery that ends although its entry is not available; a recovery that goes on
although its signal has fired; a query of an operation that was given up. -/
inductive Defect
  | abandoned
  | blind
  | retiredQuery
  deriving DecidableEq, Repr

/-- The validation of a lease is under way. -/
def Ready.underway : Ready → Bool
  | .starting | .fulfilled | .rejected _ => false
  | _ => true

namespace Recovery

/-- The stages of an attempt that a failure ends. -/
def attempting : Recovery → Bool
  | .threw _ | .resolving _ _ _ _ | .checking _ _ _ _ _ | .validated _ _ _ _ => true
  | .invalid _ _ _ _ => true
  | _ => false

/-- The stages a recovery of the generation goes on to its next lease from. -/
def revalidating (generation : ℕ) : Recovery → Prop
  | .resolving g _ _ _ | .checking g _ _ _ _ | .validated g _ _ _ | .invalid g _ _ _ =>
      g = generation
  | _ => False

/-- A recovery reports a loss of its own while it validates, or when an attempt fails. -/
def reporting : Recovery → Bool
  | .validating _ _ _ _ _ => true
  | recovery => recovery.attempting

end Recovery

namespace Entry

/-- Whether recovery passes over a lease. -/
def skips (w : Entry) (i : ℕ) : Bool := w.released i || (w.key i).isNone

/-- Recovery returns from a `fail` callback, its connection has been lost meanwhile, and no
lease is left that would notice. -/
def abandons (w : Entry) : Event → Bool
  | .call =>
      match w.stack with
      | .recovering r :: _ =>
          match w.recoveries[r]? with
          | some (.failing generation rest) =>
              !w.dead && decide (generation ≠ w.generation) && rest.all w.skips
          | _ => false
      | _ => false
  | _ => false

/-- Recovery resumes after `start`, its connection has been lost meanwhile, and no lease
would notice. -/
def resumesBlind (w : Entry) : Event → Bool
  | .resumeRecovery r =>
      decide (w.recoveries[r]? = some .started) && !w.dead && w.fired && w.live.all w.skips
  | _ => false

/-- An operation is called although it was given up, and its query finds a connection. -/
def sendsRetired (w : Entry) : Event → Bool
  | .send o => w.operations[o]?.any fun op => op.settled.isSome && (w.receiver op.target).isSome
  | _ => false

def commits (w : Entry) (e : Event) : Defect → Bool
  | .abandoned => w.abandons e
  | .blind => w.resumesBlind e
  | .retiredQuery => w.sendsRetired e

/-- Who reports the loss of an entry that is not available. -/
inductive LossCause (w : Entry) : Prop
  | disconnect (c : ℕ)
      (h : (w.connections[c]?.bind Connection.registered) = some w.generation)
  | heartbeat (h o : ℕ) (hh : w.heartbeats[h]? = some (.awaiting w.generation o))
  | ready (i : ℕ) (lease : Lease) (generation o : ℕ) (identity : PostgreSQLTableIdentity)
      (h : w.leases[i]? = some lease) (hr : lease.ready = .validating generation o identity)
  | database (o : ℕ) (op : Operation) (h : w.operations[o]? = some op)
      (ht : op.target = .database (some w.generation)) (hp : op.phase = .sent)
  | recovery (r : ℕ) (recovery : Recovery) (h : w.recoveries[r]? = some recovery)
      (hr : recovery.reporting = true)

/-- A recovery at this stage goes on to its next lease. -/
inductive LeaseSource (w : Entry) : Recovery → ℕ → Prop
  | started : LeaseSource w .started w.generation
  | revalidating (recovery : Recovery) (g : ℕ) (h : recovery.revalidating g)
      (hfired : w.fired = false) : LeaseSource w recovery g
  | failing (g : ℕ) (rest : List ℕ) : LeaseSource w (.failing g rest) g

/-- One update of an entry. The defects it may make are those in `D`. -/
inductive Move (D : Defect → Prop) (w : Entry) : Entry → Prop
  | opened (previousClose : Bool) (h : w.startup = .unopened) (hdead : w.dead = false) :
      Move D w { (w.start previousClose).1 with startup := .running (w.start previousClose).2 }
  | acquired (table : Table) (h : w.startup ≠ .unopened) (hdead : w.dead = false) :
      Move D w (w.acquire table)
  -- Release, retirement and loss.
  | unleased (i : ℕ) (lease : Lease) (h : w.leases[i]? = some lease)
      (hr : lease.released = false)
      (hlive : w.dead = true ∨ ((w.unlease i lease).forget lease.table).live ≠ []) :
      Move D w ((w.unlease i lease).forget lease.table)
  | unleasedLast (i : ℕ) (lease : Lease) (h : w.leases[i]? = some lease)
      (hr : lease.released = false) (hdead : w.dead = false) :
      Move D w ((w.unlease i lease).forget lease.table).shutdown
  | disposed (hdead : w.dead = false) : Move D w w.dispose
  | terminated (failure : Failure) (hdead : w.dead = false) : Move D w (w.terminate failure)
  | lostAvailable (message : String) (hdead : w.dead = false) (hfired : w.fired = false)
      (hready : w.wasReady = true) (havailable : w.available = true) :
      Move D w ((w.lose message).openGate.spawn)
  | lostRecovering (message : String) (hdead : w.dead = false) (hfired : w.fired = false)
      (hready : w.wasReady = true) (havailable : w.available = false) (hcause : w.LossCause) :
      Move D w (w.lose message)
  | lostExpired (o : ℕ) (op : Operation) (failure : Failure) (message : String)
      (hdead : w.dead = false) (hfired : w.fired = false) (hready : w.wasReady = true)
      (havailable : w.available = false) (h : w.operations[o]? = some op)
      (hphase : op.phase ≠ .queued) (hsettled : op.settled = none)
      (htarget : op.target.listenerOperation = true) :
      Move D w ((w.settle o (.error failure)).lose message)
  -- The startup.
  | startThrew (host : Host) (stage : StartStage) (failure : Failure)
      (h : w.stage host = some stage)
      (hdropped : ∀ g o, stage = .opening g o → ∃ outcome, w.outcome o = some outcome ∧
        ∀ c connection, outcome = .ok (.connection c) → w.connections[c]? = some connection →
          connection.shape = .unusable) :
      Move D w (w.setStart host (.thrown failure))
  | startRequested (host : Host) (o : ℕ) (h : w.stage host = some (.closing o))
      (ho : (w.outcome o).isSome = true) (hdead : w.dead = false) :
      Move D w (w.request.setStart host
        (.suspended (.opening (w.generation + 1) w.operations.length)))
  | startRetired (host : Host) (g o c : ℕ) (h : w.stage host = some (.opening g o))
      (ho : w.outcome o = some (.ok (.connection c))) (hdead : w.dead = true) :
      Move D w ((w.scheduleClose c).setStart host (.suspended .retiring))
  | startRefused (host : Host) (g o c : ℕ) (h : w.stage host = some (.opening g o))
      (ho : w.outcome o = some (.ok (.connection c))) :
      Move D w ((w.scheduleClose c).setStart host (.thrown notDedicated))
  | startAdopted (host : Host) (g o c : ℕ) (connection : Connection)
      (h : w.stage host = some (.opening g o))
      (ho : w.outcome o = some (.ok (.connection c)))
      (hc : w.connections[c]? = some connection) (hshape : connection.shape = .dedicated)
      (hdead : w.dead = false) :
      Move D w (((w.adopt g c).bounded (.connect c)).setStart host
        (.suspended (.connecting g c w.operations.length)))
  | startConnected (host : Host) (g c o : ℕ) (h : w.stage host = some (.connecting g c o))
      (ho : (w.outcome o).isSome = true) :
      Move D w ((w.bounded (.listen c)).setStart host
        (.suspended (.listening g c w.operations.length)))
  | startReturned (host : Host) (c o : ℕ)
      (h : w.stage host = some (.listening w.generation c o))
      (ho : ∃ value, w.outcome o = some (.ok value)) (hdead : w.dead = false) :
      Move D w (w.setStart host .returned)
  | startupRejected (failure thrown : Failure) (h : w.startup = .threw thrown)
      (hdead : w.dead = true) : Move D w { w with startup := .rejected failure }
  -- The promise `ready`.
  | readyFailed (i : ℕ) (lease : Lease) (failure : Failure) (h : w.leases[i]? = some lease)
      (hr : lease.ready ≠ .fulfilled) (hreleased : lease.released = true) :
      Move D w (w.setReady i (.rejected failure))
  | readyWaiting (i : ℕ) (lease : Lease) (h : w.leases[i]? = some lease)
      (hr : lease.ready ≠ .fulfilled)
      (hstarted : w.startup = .fulfilled ∨ lease.ready.underway = true)
      (hready : w.wasReady = true) (havailable : w.available = false) (hdead : w.dead = false) :
      Move D w (w.setReady i (.waiting w.readiness))
  | readyResolving (i : ℕ) (lease : Lease) (h : w.leases[i]? = some lease)
      (hr : lease.ready ≠ .fulfilled) (hreleased : lease.released = false)
      (hstarted : w.startup = .fulfilled ∨ lease.ready.underway = true) (hdead : w.dead = false)
      (hgate : w.wasReady = false ∨ w.available = true ∨
        ∃ gate g, lease.ready = .waiting gate ∧ w.gates[gate]? = some (.resolved g)) :
      Move D w (w.resolve i)
  | readyChecking (i : ℕ) (lease : Lease) (g o : ℕ) (identity : PostgreSQLTableIdentity)
      (h : w.leases[i]? = some lease) (hr : lease.ready = .resolving g o)
      (hdead : w.dead = false) (hstale : w.stale g = false) :
      Move D w ((w.bounded (.database none)).setReady i
        (.checking g w.operations.length identity))
  | readyValidating (i : ℕ) (lease : Lease) (g o : ℕ) (identity : PostgreSQLTableIdentity)
      (h : w.leases[i]? = some lease) (hr : lease.ready = .checking g o identity)
      (ho : (w.outcome o).isSome = true) :
      Move D w ((w.bounded (.trigger identity)).setReady i
        (.validating g w.operations.length identity))
  | readyValidated (i : ℕ) (lease : Lease) (g o : ℕ) (identity : PostgreSQLTableIdentity)
      (h : w.leases[i]? = some lease) (hr : lease.ready = .validating g o identity)
      (ho : (w.outcome o).isSome = true) :
      Move D w (w.setReady i (.validated g identity))
  | readyInvalid (i : ℕ) (lease : Lease) (g o : ℕ) (identity : PostgreSQLTableIdentity)
      (failure : Failure) (h : w.leases[i]? = some lease)
      (hr : lease.ready = .validating g o identity) (ho : (w.outcome o).isSome = true) :
      Move D w (w.setReady i (.invalid g failure))
  | routed (i : ℕ) (lease : Lease) (g : ℕ) (identity : PostgreSQLTableIdentity)
      (h : w.leases[i]? = some lease) (hr : lease.ready = .validated g identity)
      (hreleased : lease.released = false) (hdead : w.dead = false) :
      Move D w (w.route i lease.table identity)
  | becameReady (i : ℕ) (lease : Lease) (h : w.leases[i]? = some lease)
      (hr : lease.ready = .fulfilled) (hdead : w.dead = false) (hready : w.wasReady = false) :
      Move D w w.becomeReady
  -- Recovery.
  | looped (r : ℕ) (recovery : Recovery) (h : w.recoveries[r]? = some recovery)
      (hr : recovery.attempting = true) (hdead : w.dead = false) (hfired : w.fired = true) :
      Move D w (w.setRecovery r .looping)
  | delayed (r delay : ℕ) (h : w.recoveries[r]? = some .looping) (hdead : w.dead = false)
      (hdelay : w.delays[w.retries]? = some delay) :
      Move D w (({ w with retries := w.retries + 1 }.record .delay).setRecovery r .delayed)
  | exhausted (r : ℕ) (h : w.recoveries[r]? = some .looping) (hdead : w.dead = false)
      (hdelay : w.delays[w.retries]? = none) :
      Move D w
        (({ w with retries := w.retries + 1 }.setRecovery r .ended).terminate w.exhausted)
  | ended (r : ℕ) (recovery : Recovery) (h : w.recoveries[r]? = some recovery)
      (hactive : recovery.active = true)
      (hhost : w.stage (.recovery r) = none) (hdead : w.dead = true ∨ w.live = []) :
      Move D w (w.setRecovery r .ended)
  | attempted (r : ℕ) (previousClose : Bool) (h : w.recoveries[r]? = some .delayed)
      (hquiet : w.quiet = true) : Move D w (w.attempt r previousClose)
  | resolving (r g i : ℕ) (rest : List ℕ) (source : Recovery)
      (h : w.recoveries[r]? = some source) (hsource : w.LeaseSource source g) :
      Move D w ((w.bounded (.resolve i)).setRecovery r
        (.resolving g w.operations.length i rest))
  | checking (r g o i : ℕ) (rest : List ℕ) (identity : PostgreSQLTableIdentity)
      (h : w.recoveries[r]? = some (.resolving g o i rest))
      (ho : ∃ value, w.outcome o = some (.ok value)) :
      Move D w ((w.bounded (.database (some g))).setRecovery r
        (.checking g w.operations.length identity i rest))
  | validating (r g o i : ℕ) (rest : List ℕ) (identity : PostgreSQLTableIdentity)
      (h : w.recoveries[r]? = some (.checking g o identity i rest))
      (ho : (w.outcome o).isSome = true) :
      Move D w ((w.bounded (.trigger identity)).setRecovery r
        (.validating g w.operations.length identity i rest))
  | validated (r g o i : ℕ) (rest : List ℕ) (identity : PostgreSQLTableIdentity)
      (h : w.recoveries[r]? = some (.validating g o identity i rest)) :
      Move D w (w.setRecovery r (.validated g identity i rest))
  | invalid (r g o i : ℕ) (rest : List ℕ) (identity : PostgreSQLTableIdentity)
      (failure : Failure) (h : w.recoveries[r]? = some (.validating g o identity i rest)) :
      Move D w (w.setRecovery r (.invalid g failure i rest))
  | identified (identities : InsertionMap Table PostgreSQLTableIdentity)
      (hdead : w.dead = false) : Move D w { w with identities := identities }
  | failing (r g i : ℕ) (rest : List ℕ) (recovery : Recovery) (failure : Failure)
      (h : w.recoveries[r]? = some recovery) (hr : recovery.revalidating g)
      (hfired : w.fired = false) (hreleased : w.released i = false) :
      Move D w (({ w with stack := .recovering r :: w.stack }.setRecovery r
        (.failing g rest)).fanOut (.invalidated failure) [i])
  | resumed (r : ℕ) (stack : List Frame) (hstack : w.stack = .recovering r :: stack) :
      Move D w { w with stack := stack }
  | recovered (r : ℕ) (source : Recovery) (h : w.recoveries[r]? = some source)
      (hsource : w.LeaseSource source w.generation) (hdead : w.dead = false)
      (hlive : w.live ≠ []) (hblind : source = .started → D .blind ∨ w.fired = false) :
      Move D w (w.recovered r w.generation)
  | abandoned (r g : ℕ) (source : Recovery) (h : w.recoveries[r]? = some source)
      (hsource : w.LeaseSource source g) (hg : g ≠ w.generation) (hdead : w.dead = false)
      (habandoned : (∃ rest, source = .failing g rest) → D .abandoned) :
      Move D w (w.setRecovery r .ended)
  -- Operations and timers.
  | sent (o : ℕ) (op : Operation) (hstack : w.stack = []) (h : w.operations[o]? = some op)
      (hphase : op.phase = .queued)
      (hretired : D .retiredQuery ∨ op.settled = none ∨ w.receiver op.target = none) :
      Move D w (w.send o op.target)
  | answered (o : ℕ) (op : Operation) (outcome : Outcome) (h : w.operations[o]? = some op)
      (hphase : op.phase = .sent) (hanswers : op.target.answers outcome = true) :
      Move D w ((w.settle o outcome).setPhase o .answered)
  | produced (o : ℕ) (op : Operation) (shape : Shape) (h : w.operations[o]? = some op)
      (hphase : op.phase = .sent) (htarget : op.target = .factory) :
      Move D w (w.produce o op shape)
  | expired (o : ℕ) (op : Operation) (failure : Failure) (h : w.operations[o]? = some op)
      (hphase : op.phase ≠ .queued) : Move D w (w.settle o (.error failure))
  | disarmed : Move D w { w with timer := none }
  | beating (hdead : w.dead = false) (htimer : w.timer = some w.generation) :
      Move D w { w.bounded .heartbeat with
        timer := none
        heartbeats := w.heartbeats ++ [.awaiting w.generation w.operations.length] }
  | beatEnded (h : ℕ) : Move D w (w.endHeartbeat h)
  | beaten (h o : ℕ) (hh : w.heartbeats[h]? = some (.awaiting w.generation o))
      (hdead : w.dead = false) :
      Move D w ((({ w with retries := 0 }).record .heartbeat).heartbeat.endHeartbeat h)
  -- Callbacks.
  | notified (c : ℕ) (payload : String)
      (hc : (w.connections[c]?.bind Connection.registered) = some w.generation)
      (hdead : w.dead = false) :
      Move D w (w.fanOut (.notification c payload) ((w.routing.get payload).getD []))
  | fanEnded (n : ℕ) (stack : List Frame) (h : w.stack = .fan n [] :: stack) :
      Move D w { w with stack := stack }
  | fanSkipped (n i : ℕ) (rest : List ℕ) (stack : List Frame)
      (h : w.stack = .fan n (i :: rest) :: stack) (hr : w.released i = true) :
      Move D w { w with stack := .fan n rest :: stack }
  | fanCalled (n i : ℕ) (rest : List ℕ) (stack : List Frame)
      (h : w.stack = .fan n (i :: rest) :: stack) (hr : w.released i = false) :
      Move D w ({ w with stack := .fan n rest :: stack }.record (.called n i))
  | closed (stack : List Frame) (h : w.stack = .closing :: stack) :
      Move D w { w with stack := stack }.closeConnection

/-- The moves of one step, one after another. -/
def Moves (D : Defect → Prop) : Entry → Entry → Prop := Relation.ReflTransGen (Move D)

variable {D : Defect → Prop} {w w' : Entry}

/-- What every move keeps is kept by a sequence of moves. -/
theorem Moves.preserves {P : Entry → Prop} (hmove : ∀ u u', P u → Move D u u' → P u')
    (hw : P w) (h : Moves D w w') : P w' := by
  induction h with
  | refl => exact hw
  | tail _ hlast ih => exact hmove _ _ ih hlast

theorem Move.moves (h : Move D w w') : Moves D w w' := Relation.ReflTransGen.single h

end Entry

end Arc.Drizzle.PostgreSQLObservation
