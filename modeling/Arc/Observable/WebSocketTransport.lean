import Arc.Observable.ToEmissions

/-!
# The transport over a WebSocket

Sends are chained: a write begins when the one before it is over, and a send gives its place in
the window back in its `finally` handler, just before its promise settles. What is received is
queued for one asynchronous iteration. Closing aborts the write under way and wakes the
iteration. The events are the calls of the owner, those of the socket, those of the consumer,
and the turns of the promises. Serializing a value calls nothing of the transport; the times of
activity are left out.
-/

namespace Arc.Observable

inductive ReadyState
  | connecting
  | open'
  | closing
  | closed
  deriving DecidableEq, Repr

structure TransportLimits where
  inboundFrames : ℕ
  outboundFrames : ℕ
  inboundFrameBytes : ℕ
  outboundFrameBytes : ℕ
  deriving DecidableEq, Repr

/-- The write under way: whether the frame was handed to the socket, and how the write ended. -/
structure Writing where
  frame : String
  sent : Bool
  outcome : Option Bool
  deriving DecidableEq, Repr

/-- A send whose write is over, and whether it succeeded. -/
structure Written where
  frame : String
  ok : Bool
  deriving DecidableEq, Repr

/-- The sends are in stages: queued behind the tail, being written, concluded (after the `catch`
handler), released (after the `finally` handler) and settled. What has happened is kept too: the
frames of all accepted sends, those handed to the socket, those received and those that have
reached the consumer. -/
structure WebSocketTransport where
  socket : ReadyState := .open'
  aborted : Bool := false
  outstanding : ℕ := 0
  queued : List String := []
  writing : Option Writing := none
  concluded : List Written := []
  released : List Written := []
  settled : List Written := []
  pending : List String := []
  wake : Bool := false
  phase : GeneratorPhase String := .start
  requests : List Request := []
  accepted : List String := []
  frames : List String := []
  received : List String := []
  delivered : List String := []
  deriving DecidableEq, Repr

inductive TransportEvent
  | send (serialized : Option String)
  | begin (bufferedAmount : ℕ) (throws : Bool)
  | written (ok : Bool)
  | conclude
  | release
  | settle
  | message (binary : Bool) (bytes : ℕ) (text : String)
  | readyState (state : ReadyState)
  | socketClosed
  | close
  | pull
  | return'
  | turn
  deriving DecidableEq, Repr

namespace WebSocketTransport

/-- The abort listener of a write rejects it. -/
def Writing.abort (writing : Writing) : Writing :=
  { writing with outcome := some (writing.outcome.getD false) }

def close (s : WebSocketTransport) : WebSocketTransport :=
  if s.aborted then s
  else
    { s with
      aborted := true
      writing := s.writing.map Writing.abort
      phase := if s.wake then .woken else s.phase
      wake := false
      socket :=
        match s.socket with
        | .open' => .closing
        | .connecting => .closed
        | state => state }

/-! ### Sending -/

/-- `send`, for what serializing the value gives. -/
def send (limits : TransportLimits) (s : WebSocketTransport) (serialized : Option String) :
    WebSocketTransport :=
  if s.aborted then s
  else if limits.outboundFrames ≤ s.outstanding then s.close
  else
    match serialized with
    | none => s.close
    | some json =>
        if limits.outboundFrameBytes < json.utf8ByteSize then s.close
        else
          { s with
            outstanding := s.outstanding + 1
            queued := s.queued ++ [json]
            accepted := s.accepted ++ [json] }

/-- `write`, up to its `await` -/
def write (limits : TransportLimits) (s : WebSocketTransport) (json : String)
    (bufferedAmount : ℕ) (throws : Bool) : WebSocketTransport :=
  if s.aborted || s.socket != .open' then
    { s with writing := some ⟨json, false, some false⟩ }
  else if limits.outboundFrameBytes < bufferedAmount then
    { s.close with writing := some ⟨json, false, some false⟩ }
  else
    { s with
      frames := s.frames ++ [json]
      writing := some ⟨json, true, if throws then some false else none⟩ }

/-- A write begins when the one before it is over. -/
def begin (limits : TransportLimits) (s : WebSocketTransport) (bufferedAmount : ℕ)
    (throws : Bool) : Option WebSocketTransport :=
  match s.writing, s.queued with
  | none, json :: queued => some ({ s with queued := queued }.write limits json bufferedAmount throws)
  | _, _ => none

/-- The callback of `socket.send`. -/
def written (s : WebSocketTransport) (ok : Bool) : Option WebSocketTransport :=
  match s.writing with
  | some ⟨frame, sent, none⟩ => some { s with writing := some ⟨frame, sent, some ok⟩ }
  | _ => none

/-- The `catch` handler of a write closes the transport. -/
def conclude (s : WebSocketTransport) : Option WebSocketTransport :=
  match s.writing with
  | some ⟨frame, _, some ok⟩ =>
      let concluded := { s with writing := none, concluded := s.concluded ++ [⟨frame, ok⟩] }
      some (if ok then concluded else concluded.close)
  | _ => none

/-- The `finally` handler of a send. -/
def release (s : WebSocketTransport) : Option WebSocketTransport :=
  match s.concluded with
  | send :: concluded =>
      some { s with
        outstanding := s.outstanding - 1
        concluded := concluded
        released := s.released ++ [send] }
  | [] => none

def settle (s : WebSocketTransport) : Option WebSocketTransport :=
  match s.released with
  | send :: released => some { s with released := released, settled := s.settled ++ [send] }
  | [] => none

/-! ### Receiving -/

def message (limits : TransportLimits) (s : WebSocketTransport) (binary : Bool) (bytes : ℕ)
    (text : String) : WebSocketTransport :=
  if binary then s.close
  else if limits.inboundFrameBytes < bytes then s.close
  else if limits.inboundFrames ≤ s.pending.length then s.close
  else
    { s with
      pending := s.pending ++ [text]
      received := s.received ++ [text]
      phase := if s.wake then .woken else s.phase
      wake := false }

/-- The `finally` block of the iteration. -/
def leave (s : WebSocketTransport) : WebSocketTransport :=
  { s.close with phase := .ended, requests := [] }

/-- The loop of the iteration up to its next `yield` or `await`, or to its end. -/
def loop (s : WebSocketTransport) : WebSocketTransport :=
  if s.aborted then s.leave
  else
    match s.pending with
    | text :: pending => { s with phase := .yielding text, pending := pending }
    | [] => { s with phase := .waiting, wake := true }

def deliver (s : WebSocketTransport) (text : String) : WebSocketTransport :=
  let delivered := { s with delivered := s.delivered ++ [text], requests := s.requests.tail }
  match delivered.requests with
  | [] => { delivered with phase := .suspended }
  | .next :: _ => delivered.loop
  | .return' :: _ => { delivered with phase := .returning }

def pull (s : WebSocketTransport) : WebSocketTransport :=
  match s.phase with
  | .start | .suspended => { s with requests := [.next] }.loop
  | .ended => s
  | _ => { s with requests := s.requests ++ [.next] }

def return' (s : WebSocketTransport) : WebSocketTransport :=
  match s.phase with
  | .start => { s with phase := .ended }
  | .suspended => { s with phase := .returning, requests := [.return'] }
  | .ended => s
  | _ => { s with requests := s.requests ++ [.return'] }

def turn (s : WebSocketTransport) : Option WebSocketTransport :=
  match s.phase with
  | .yielding text => some (s.deliver text)
  | .woken => some s.loop
  | .returning => some s.leave
  | _ => none

def step (limits : TransportLimits) (s : WebSocketTransport) :
    TransportEvent → Option WebSocketTransport
  | .send serialized => some (s.send limits serialized)
  | .begin bufferedAmount throws => s.begin limits bufferedAmount throws
  | .written ok => s.written ok
  | .conclude => s.conclude
  | .release => s.release
  | .settle => s.settle
  | .message binary bytes text => some (s.message limits binary bytes text)
  | .readyState state => some { s with socket := state }
  | .socketClosed => some s.close
  | .close => some s.close
  | .pull => some s.pull
  | .return' => some s.return'
  | .turn => s.turn

end WebSocketTransport

/-- Every run of a transport. -/
def webSocketTransport (limits : TransportLimits) : Machine WebSocketTransport TransportEvent where
  init := {}
  step := WebSocketTransport.step limits

end Arc.Observable
