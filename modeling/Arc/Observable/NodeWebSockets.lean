import Mathlib.Data.List.Basic
import Mathlib.Logic.Function.Basic
import Mathlib.Logic.Relation

/-!
# The Node bridge for WebSockets

A request to upgrade waits for the host's callback and for authentication, with a timer on its
socket; what it finds after each wait may be a socket that is gone or a bridge that shuts down.
The bridge is shut down by a transaction, which releases the transports and joins the protocol
work later, or by `dispose` alone; the two hand over to each other through the promises they
keep.

What is not the bridge's own may happen at any time: a callback answers or throws, a peer leaves,
a timer fires, protocol work settles. A socket that was ended takes no further response: a write
after the end is an error of the stream, and a handshake on it destroys the socket.
-/

namespace Arc.Observable.NodeWebSockets

inductive Outcome
  | fulfilled
  | rejected
  deriving DecidableEq

/-- What a promise is settled with; `none` while it is pending. -/
abbrev Promise := Option Outcome

/-! ### A request -/

/-- What a request waits for: the host's callback, authentication, the logger. -/
inductive Stage
  | native
  | preparing
  | logging
  | done
  deriving DecidableEq

inductive SocketState
  | usable
  | ended
  | destroyed
  deriving DecidableEq

inductive HttpOutcome
  | response (code : ℕ)
  | upgrade

structure Upgrade where
  stage : Stage
  socket : SocketState
  timer : Bool
  outcomes : List HttpOutcome

/-- What a request is to the bridge: left to another listener, without a route, with a URL that
does not parse to its path, or one to be upgraded. -/
inductive Arrival
  | foreign
  | unknown
  | malformed
  | routed

/-- The answer of `prepareObservableUpgrade`: a status other than 101, or 101 with a connection
context; then the handshake is made, or refused with a code. -/
inductive Prepared
  | status (code : ℕ)
  | ready (refusal : Option ℕ)

namespace Upgrade

def reject (request : Upgrade) (code : ℕ) : Upgrade :=
  match request.socket with
  | .destroyed => request
  | .ended => { request with timer := false }
  | .usable =>
      { request with
        timer := false
        socket := .ended
        outcomes := request.outcomes ++ [.response code] }

def finish (request : Upgrade) : Upgrade := { request with stage := .done }

def arrive : Arrival → Upgrade
  | .foreign => ⟨.done, .usable, false, []⟩
  | .unknown => reject ⟨.done, .usable, false, []⟩ 404
  | .malformed => reject ⟨.done, .usable, false, []⟩ 400
  | .routed => ⟨.native, .usable, true, []⟩

/-- The check after each wait: `true` when the request goes no further. -/
def stopped (request : Upgrade) (shuttingDown : Bool) : Bool :=
  decide (request.socket = .destroyed) || shuttingDown

/-- A request that goes no further is refused when the bridge shuts down. -/
def stop (request : Upgrade) (shuttingDown : Bool) : Upgrade :=
  if shuttingDown then (request.reject 503).finish else request.finish

/-- The host's callback has answered. -/
def afterNative (request : Upgrade) (shuttingDown : Bool) : Upgrade :=
  if request.stopped shuttingDown then request.stop shuttingDown
  else { request with stage := .preparing }

/-- `webSockets.handleUpgrade`, after the timer was taken off. -/
def handleUpgrade (request : Upgrade) (refusal : Option ℕ) : Upgrade :=
  match request.socket with
  | .usable =>
      match refusal with
      | none =>
          { request with
            stage := .done
            timer := false
            outcomes := request.outcomes ++ [.upgrade] }
      | some code =>
          { request with
            stage := .done
            timer := false
            socket := .ended
            outcomes := request.outcomes ++ [.response code] }
  | _ => { request with stage := .done, timer := false, socket := .destroyed }

/-- `prepareObservableUpgrade` has answered. -/
def afterPrepared (request : Upgrade) (shuttingDown : Bool) : Prepared → Upgrade
  | .status code => (request.reject code).finish
  | .ready refusal =>
      if request.stopped shuttingDown then request.stop shuttingDown
      else request.handleUpgrade refusal

/-- Whether the answer makes a connection. -/
def connects (request : Upgrade) (shuttingDown : Bool) : Prepared → Bool
  | .ready none => decide (request.socket = .usable) && !shuttingDown
  | _ => false

/-- The logger has returned, or failed. -/
def afterLogger (request : Upgrade) (failed : Bool) : Upgrade :=
  if failed then ((request.reject 500).reject 500).finish else (request.reject 500).finish

end Upgrade

/-! ### The bridge -/

/-- An admitted connection: its protocol work, whether its transport was closed, and whether its
socket has closed. -/
structure Connection where
  work : Promise
  closed : Bool
  gone : Bool

structure TransportClosing where
  timedOut : Bool
  result : Promise

/-- What `joinDelivery` returns: the promise of an earlier `dispose`, or one of its own. -/
inductive Delivery
  | closing
  | works (result : Promise)

/-- What `dispose` returns. An uncoordinated one joins the connections it found. -/
structure Closing where
  admitted : Option (List ℕ)
  result : Promise

structure Bridge where
  listening : Bool
  requests : ℕ → Option Upgrade
  admitted : ℕ → Option Connection
  connections : List ℕ
  active : List ℕ
  transportClosing : Option TransportClosing
  delivery : Option Delivery
  closing : Option Closing

inductive Call
  | releaseTransport
  | joinDelivery
  | dispose

namespace Bridge

def initial : Bridge where
  listening := true
  requests := fun _ => none
  admitted := fun _ => none
  connections := []
  active := []
  transportClosing := none
  delivery := none
  closing := none

variable (s : Bridge)

def shuttingDown : Bool := s.closing.isSome || s.transportClosing.isSome

def setRequest (r : ℕ) (request : Upgrade) : Bridge :=
  { s with requests := Function.update s.requests r (some request) }

def setConnection (r : ℕ) (connection : Connection) : Bridge :=
  { s with admitted := Function.update s.admitted r (some connection) }

/-- Start the protocol work of a connection and keep track of it. -/
def admitConnection (r : ℕ) : Bridge :=
  { s with
    admitted := Function.update s.admitted r (some ⟨none, false, false⟩)
    connections := s.connections ++ [r] }

/-- `prepareObservableUpgrade` has answered. -/
def prepared (r : ℕ) (request : Upgrade) (answer : Prepared) : Bridge :=
  let next := s.setRequest r (request.afterPrepared s.shuttingDown answer)
  if request.connects s.shuttingDown answer then next.admitConnection r else next

section Update

variable {s} {r other : ℕ} {request : Upgrade} {connection : Connection}

@[simp] theorem setRequest_self : (s.setRequest r request).requests r = some request :=
  Function.update_self _ _ _

theorem setRequest_of_ne (h : other ≠ r) :
    (s.setRequest r request).requests other = s.requests other :=
  Function.update_of_ne h _ _

@[simp] theorem setConnection_self :
    (s.setConnection r connection).admitted r = some connection :=
  Function.update_self _ _ _

theorem setConnection_of_ne (h : other ≠ r) :
    (s.setConnection r connection).admitted other = s.admitted other :=
  Function.update_of_ne h _ _

@[simp] theorem admitConnection_self :
    (s.admitConnection r).admitted r = some ⟨none, false, false⟩ :=
  Function.update_self _ _ _

theorem admitConnection_of_ne (h : other ≠ r) :
    (s.admitConnection r).admitted other = s.admitted other :=
  Function.update_of_ne h _ _

end Update

/-- What follows when the work of a connection settles. -/
def release (r : ℕ) (connection : Connection) : Bridge :=
  { s.setConnection r { connection with closed := true } with
    connections := s.connections.filter fun other => decide (other ≠ r) }

/-- `transport.close()` for each connection that is tracked. -/
def closeAll : Bridge :=
  { s with
    admitted := fun r => (s.admitted r).map fun connection =>
      if r ∈ s.connections then { connection with closed := true } else connection }

def releaseTransport : Bridge :=
  if s.transportClosing.isSome then s
  else if s.closing.isSome then s
  else
    { s.closeAll with
      listening := false
      active := s.connections
      transportClosing := some ⟨false, none⟩ }

def joinDelivery : Bridge :=
  if s.delivery.isSome then s
  else if s.closing.isSome && s.transportClosing.isNone then
    { s with delivery := some .closing }
  else { s.releaseTransport with delivery := some (.works none) }

def disposeUncoordinated : Bridge :=
  { s.closeAll with
    listening := false
    closing := some ⟨some s.connections, none⟩ }

def dispose : Bridge :=
  if s.closing.isSome then s
  else if s.transportClosing.isNone then s.disposeUncoordinated
  else { s.joinDelivery with closing := some ⟨none, none⟩ }

def call : Call → Bridge
  | .releaseTransport => s.releaseTransport
  | .joinDelivery => s.joinDelivery
  | .dispose => s.dispose

theorem call_releaseTransport : s.call .releaseTransport = s.releaseTransport := rfl

theorem call_joinDelivery : s.call .joinDelivery = s.joinDelivery := rfl

theorem call_dispose : s.call .dispose = s.dispose := rfl

/-- The works of these connections have all settled. -/
def Settled (ids : List ℕ) : Prop :=
  ∀ r ∈ ids, ∃ connection outcome, s.admitted r = some connection ∧
    connection.work = some outcome

def Succeeded (r : ℕ) : Prop :=
  ∃ connection, s.admitted r = some connection ∧ connection.work = some .fulfilled

/-- `Promise.allSettled` of the works, and an error when one has failed. -/
def joined (ids : List ℕ) : Outcome :=
  if ids.any fun r => (s.admitted r).any fun connection => connection.work = some .rejected then
    .rejected
  else .fulfilled

def Gone (ids : List ℕ) : Prop :=
  ∀ r ∈ ids, ∃ connection, s.admitted r = some connection ∧ connection.gone = true

def deliveryResult : Promise :=
  match s.delivery with
  | none => none
  | some .closing => s.closing.bind Closing.result
  | some (.works result) => result

def closingResult : Promise := s.closing.bind Closing.result

end Bridge

/-- A turn of the event loop. -/
inductive Step : Bridge → Bridge → Prop
  | arrives {s : Bridge} {r : ℕ} (arrival : Arrival) (hlistening : s.listening = true)
      (hfresh : s.requests r = none) : Step s (s.setRequest r (.arrive arrival))
  | provided {s : Bridge} {r : ℕ} {request : Upgrade} (h : s.requests r = some request)
      (hstage : request.stage = .native) :
      Step s (s.setRequest r (request.afterNative s.shuttingDown))
  | failed {s : Bridge} {r : ℕ} {request : Upgrade} (h : s.requests r = some request)
      (hstage : request.stage = .native ∨ request.stage = .preparing) :
      Step s (s.setRequest r { request with stage := .logging })
  | prepared {s : Bridge} {r : ℕ} {request : Upgrade} (h : s.requests r = some request)
      (hstage : request.stage = .preparing) (answer : Prepared) :
      Step s (s.prepared r request answer)
  | logged {s : Bridge} {r : ℕ} {request : Upgrade} (h : s.requests r = some request)
      (hstage : request.stage = .logging) (failed : Bool) :
      Step s (s.setRequest r (request.afterLogger failed))
  | timedOut {s : Bridge} {r : ℕ} {request : Upgrade} (h : s.requests r = some request)
      (htimer : request.timer = true) : Step s (s.setRequest r (request.reject 408))
  | destroyed {s : Bridge} {r : ℕ} {request : Upgrade} (h : s.requests r = some request) :
      Step s (s.setRequest r { request with socket := .destroyed })
  | settled {s : Bridge} {r : ℕ} {connection : Connection}
      (h : s.admitted r = some connection) (hpending : connection.work = none)
      (outcome : Outcome) : Step s (s.setConnection r { connection with work := some outcome })
  | released {s : Bridge} {r : ℕ} {connection : Connection}
      (h : s.admitted r = some connection) (hsettled : connection.work ≠ none) :
      Step s (s.release r connection)
  | closed {s : Bridge} {r : ℕ} {connection : Connection} (gone : Bool)
      (h : s.admitted r = some connection) (hgone : connection.gone = false) :
      Step s (s.setConnection r { connection with closed := true, gone := gone })
  | called {s : Bridge} (call : Call) : Step s (s.call call)
  | transportTimedOut {s : Bridge} {transport : TransportClosing}
      (h : s.transportClosing = some transport) (hpending : transport.result = none) :
      Step s { s with transportClosing := some { transport with timedOut := true } }
  | transportSettled {s : Bridge} {transport : TransportClosing}
      (h : s.transportClosing = some transport) (hpending : transport.result = none)
      (hgone : s.Gone s.active) :
      Step s { s with
        transportClosing := some { transport with
          result := some (if transport.timedOut then .rejected else .fulfilled) } }
  | deliverySettled {s : Bridge} (h : s.delivery = some (.works none))
      (hsettled : s.Settled s.active) :
      Step s { s with delivery := some (.works (some (s.joined s.active))) }
  | disposed {s : Bridge} {ids : List ℕ} (h : s.closing = some ⟨some ids, none⟩)
      (hsettled : s.Settled ids) :
      Step s { s with closing := some ⟨some ids, some (s.joined ids)⟩ }
  | coordinated {s : Bridge} {transport : TransportClosing} {released delivered : Outcome}
      (h : s.closing = some ⟨none, none⟩) (htransport : s.transportClosing = some transport)
      (hreleased : transport.result = some released)
      (hdelivered : s.delivery = some (.works (some delivered))) :
      Step s { s with
        closing := some ⟨none, some
          (if released = .rejected ∨ delivered = .rejected then .rejected else .fulfilled)⟩ }
  | deadline {s : Bridge} {closing : Closing} (h : s.closing = some closing)
      (hpending : closing.result = none) :
      Step s { s with closing := some { closing with result := some .rejected } }

abbrev Reaches : Bridge → Bridge → Prop := Relation.ReflTransGen Step

end Arc.Observable.NodeWebSockets
