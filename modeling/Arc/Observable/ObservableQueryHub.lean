import Arc.Foundation.InsertionMap
import Arc.Foundation.Machine

/-!
# The observable query hub

`ObservableQueryHub` admits WebSocket and SSE connections up to its limits and keeps each in a
table until its close has reported back through `onClose`. A connection is closed on its own
(`closeUncoordinated`), or in the phases of a shutdown: `releaseTransport`, then
`joinDelivery`, with `close` racing both against a deadline. What runs between two awaits is
one event.
-/

namespace Arc.Observable.ObservableQueryHub

/-! ### Callers -/

structure Principal where
  id : String
  isAuthenticated : Bool
  deriving DecidableEq, Repr

/-- What the hub reads of the context of a connection or of a request. -/
structure ExecutionContext where
  tenantId : Option String := none
  principal : Option Principal := none
  remoteAddress : Option String := none
  deriving DecidableEq, Repr

def ExecutionContext.isAuthenticated (context : ExecutionContext) : Bool :=
  context.principal.any Principal.isAuthenticated

def ExecutionContext.id (context : ExecutionContext) : Option String :=
  context.principal.map Principal.id

/-- The parts of the caller key, whose text is the JSON of their list. -/
def observableCallerKey (context : ExecutionContext) : List String :=
  let tenant := context.tenantId.getD ""
  let address := context.remoteAddress.getD ""
  if context.isAuthenticated then [tenant, "principal", context.id.getD ""]
  else if address ≠ "" then [tenant, "anonymous-address", address]
  else [tenant, "anonymous-unattributed"]

/-! ### Connections -/

inductive Protocol
  | webSocket
  | sse
  deriving DecidableEq, Repr

/-- What never changes of a connection. -/
structure HubConnection where
  protocol : Protocol
  context : ExecutionContext
  deriving DecidableEq, Repr

def HubConnection.ownerKey (connection : HubConnection) : List String :=
  observableCallerKey connection.context

/-- The promise of `close`. -/
inductive Closing
  | scheduled
  | draining
  | racing
  | settled
  deriving DecidableEq, Repr

/-- A promise of `joinDelivery`: that of the close, or one of its own. -/
inductive Delivery
  | closing
  | joining
  | settled
  deriving DecidableEq, Repr

/-- How the output closes; its signal may fire meanwhile, which closes the connection. -/
structure OutputClose where
  throws : Bool
  aborts : Bool
  deriving DecidableEq, Repr

/-- The state of the closing of a connection. `deliveries` are the promises `joinDelivery` has
made, the last one being `#delivery`; `closes` counts the calls of `onClose`. -/
structure Lifetime where
  closing : Option Closing := none
  transportClosing : Option OutputClose := none
  deliveries : List Delivery := []
  released : Bool := false
  closes : ℕ := 0
  deriving DecidableEq, Repr

namespace Lifetime

def closed (lifetime : Lifetime) : Bool :=
  lifetime.closing.isSome || lifetime.transportClosing.isSome

def releaseConnection (lifetime : Lifetime) : Lifetime :=
  if lifetime.released then lifetime
  else { lifetime with released := true, closes := lifetime.closes + 1 }

/-- `joinDelivery` of a connection whose transport is released. -/
def joinReleased (lifetime : Lifetime) : Lifetime :=
  { lifetime with deliveries := lifetime.deliveries ++ [.joining] }

/-- Close the connection once: on its own, or by joining what a shutdown has released. -/
def close (lifetime : Lifetime) : Lifetime :=
  if lifetime.closing.isSome then lifetime
  else if lifetime.transportClosing.isNone then { lifetime with closing := some .scheduled }
  else
    let joined := if lifetime.deliveries.isEmpty then lifetime.joinReleased else lifetime
    { joined with closing := some .racing }

/-- Close the output, without joining the deliveries. -/
def releaseTransport (output : OutputClose) (lifetime : Lifetime) : Lifetime :=
  if lifetime.transportClosing.isSome then lifetime
  else if lifetime.closing.isSome then lifetime
  else
    let released := { lifetime with transportClosing := some output }
    if output.aborts then released.close else released

/-- Join every delivery; a close of its own is joined instead. -/
def joinDelivery (output : OutputClose) (lifetime : Lifetime) : Lifetime :=
  if !lifetime.deliveries.isEmpty then lifetime
  else if lifetime.closing.isSome ∧ lifetime.transportClosing.isNone then
    { lifetime with deliveries := lifetime.deliveries ++ [.closing] }
  else (lifetime.releaseTransport output).joinReleased

/-- The microtask of a close of its own: nothing is released when the output throws. -/
def closeBegins (output : OutputClose) (lifetime : Lifetime) : Option Lifetime :=
  if lifetime.closing = some .scheduled then
    some { lifetime with closing := some (if output.throws then .settled else .draining) }
  else none

/-- The deliveries are joined, or the deadline has passed. -/
def closeEnds (lifetime : Lifetime) : Option Lifetime :=
  if lifetime.closing = some .draining then
    some { lifetime with
      closing := some .settled, released := true, closes := lifetime.closes + 1 }
  else none

/-- The race of a coordinated close is over. -/
def raceEnds (lifetime : Lifetime) : Option Lifetime :=
  if lifetime.closing = some .racing then
    some { lifetime.releaseConnection with closing := some .settled }
  else none

/-- One promise of `joinDelivery` settles. -/
def deliveryEnds (index : ℕ) (lifetime : Lifetime) : Option Lifetime :=
  if lifetime.deliveries[index]? = some .joining then
    some { lifetime.releaseConnection with deliveries := lifetime.deliveries.set index .settled }
  else none

def closeSettled (lifetime : Lifetime) : Prop := lifetime.closing = some .settled

/-- Some promise of `joinDelivery` has settled. -/
def joinSettled (lifetime : Lifetime) : Prop :=
  .settled ∈ lifetime.deliveries ∨ .closing ∈ lifetime.deliveries ∧ lifetime.closeSettled

end Lifetime

/-! ### The hub -/

structure ObservableLimits where
  hubConnections : ℕ
  hubConnectionsPerCaller : ℕ
  deriving DecidableEq, Repr

/-- A connection is named by its position among all that were ever admitted. -/
structure Hub where
  connections : InsertionMap ℕ HubConnection := InsertionMap.empty
  lifetimes : List Lifetime := []
  disposed : Bool := false
  stopping : Bool := false

namespace Hub

/-- The connections of one caller. -/
def ofCaller (hub : Hub) (key : List String) : List (ℕ × HubConnection) :=
  hub.connections.entries.filter fun entry => decide (entry.2.ownerKey = key)

def canAdmit (limits : ObservableLimits) (hub : Hub) (context : ExecutionContext) : Bool :=
  !(hub.disposed || hub.stopping || limits.hubConnections ≤ hub.connections.size) &&
    (hub.ofCaller (observableCallerKey context)).length < limits.hubConnectionsPerCaller

/-- What runs from the admission to the first await of a connection. -/
def connect (limits : ObservableLimits) (hub : Hub) (protocol : Protocol)
    (authenticationFailed : Bool) (context : ExecutionContext) : Hub :=
  if authenticationFailed || !hub.canAdmit limits context then hub
  else { hub with
    connections := hub.connections.set hub.lifetimes.length ⟨protocol, context⟩
    lifetimes := hub.lifetimes ++ [{}] }

/-- One step of a connection; a call of `onClose` takes it out of the table. -/
def update (hub : Hub) (id : ℕ) (step : Lifetime → Option Lifetime) : Option Hub :=
  hub.lifetimes[id]?.bind fun lifetime => (step lifetime).map fun lifetime' =>
    { hub with
      lifetimes := hub.lifetimes.set id lifetime'
      connections := if lifetime'.closes = lifetime.closes then hub.connections
        else hub.connections.delete id }

/-- A call on every connection of the table. -/
def forEach (hub : Hub) (call : ℕ → Lifetime → Lifetime) : Hub :=
  { hub with
    lifetimes := hub.lifetimes.mapIdx fun id lifetime =>
      if (hub.connections.get id).isSome then call id lifetime else lifetime }

def coordinateShutdown (hub : Hub) (outputs : ℕ → OutputClose) : Hub :=
  { hub with disposed := true, stopping := true }.forEach fun id => .releaseTransport (outputs id)

def dispose (hub : Hub) : Hub :=
  if hub.disposed then hub
  else { hub with disposed := true }.forEach fun _ => .close

end Hub

/-- The fields of the owner and of the caller of a control request, one by one. -/
def sameCaller (connection : HubConnection) (caller : ExecutionContext) : Bool :=
  let owner := connection.context
  if owner.tenantId ≠ caller.tenantId then false
  else if owner.isAuthenticated ≠ caller.isAuthenticated then false
  else if owner.isAuthenticated then caller.id.any (· ≠ "") && owner.id = caller.id
  else owner.remoteAddress = caller.remoteAddress

/-- Whether a control request acts on the connection it names. -/
def controls (connection : HubConnection) (lifetime : Lifetime) (authenticationFailed : Bool)
    (caller : ExecutionContext) : Bool :=
  connection.protocol = .sse && !lifetime.closed && !authenticationFailed &&
    sameCaller connection caller

inductive HubEvent
  | connect (protocol : Protocol) (authenticationFailed : Bool) (context : ExecutionContext)
  | close (id : ℕ)
  | closeBegins (id : ℕ) (output : OutputClose)
  | closeEnds (id : ℕ)
  | raceEnds (id : ℕ)
  | joinDelivery (id : ℕ) (output : OutputClose)
  | deliveryEnds (id index : ℕ)
  | stopAdmission
  | coordinateShutdown (outputs : ℕ → OutputClose)
  | dispose

def step (limits : ObservableLimits) (hub : Hub) : HubEvent → Option Hub
  | .connect protocol authenticationFailed context =>
      some (hub.connect limits protocol authenticationFailed context)
  | .close id => hub.update id fun lifetime => some lifetime.close
  | .closeBegins id output => hub.update id (Lifetime.closeBegins output)
  | .closeEnds id => hub.update id Lifetime.closeEnds
  | .raceEnds id => hub.update id Lifetime.raceEnds
  | .joinDelivery id output => hub.update id fun lifetime => some (lifetime.joinDelivery output)
  | .deliveryEnds id index => hub.update id (Lifetime.deliveryEnds index)
  | .stopAdmission => some { hub with stopping := true }
  | .coordinateShutdown outputs => some (hub.coordinateShutdown outputs)
  | .dispose => some hub.dispose

/-- The hub of a server with the given limits. -/
def machine (limits : ObservableLimits) : Machine Hub HubEvent where
  init := {}
  step := step limits

end Arc.Observable.ObservableQueryHub
