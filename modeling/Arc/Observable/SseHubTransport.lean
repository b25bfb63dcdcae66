import Arc.Observable.DirectSse
import Arc.Observable.WebSocketTransport

/-!
# The transport of a hub over server-sent events

A send is queued until the stream pulls it. A pull that finds no frame sleeps until a send or the
close wakes it; it goes on a turn later. Closing rejects what is queued. The events are the sends
of the hub, the pulls of the stream and the turns that follow them, and the closes. The times of
activity are left out.
-/

namespace Arc.Observable

/-- Why a send is rejected. -/
inductive SendRefusal
  | closed
  | queueFull
  | tooLarge
  | serialization
  | writeFailed
  | connectionClosed
  deriving DecidableEq, Repr

inductive SendOutcome
  | pending
  | resolved
  | rejected (reason : SendRefusal)
  deriving DecidableEq, Repr

/-- A frame with the number of the send that waits for it. -/
structure QueuedFrame where
  send : ℕ
  data : String
  deriving DecidableEq, Repr

inductive SsePull
  | idle
  | sleeping
  | woken
  deriving DecidableEq, Repr

/-- How the write of a pull ends: the controller may refuse the chunk, and the callback of the
activity may throw after the controller has taken it. -/
inductive SseWrite
  | written
  | enqueueThrows
  | activityThrows
  deriving DecidableEq, Repr

/-- `accepted` are the frames of all sends that were ever queued, `enqueued` those that the
controller of the stream has taken. -/
structure SseHubTransport where
  aborted : Bool := false
  queue : List QueuedFrame := []
  pulling : SsePull := .idle
  outcomes : List SendOutcome := []
  accepted : List QueuedFrame := []
  enqueued : List QueuedFrame := []
  deriving DecidableEq, Repr

inductive SseHubEvent
  | send (serialized : Option String)
  | pull (write : SseWrite)
  | turn (write : SseWrite)
  | cancel
  | close
  deriving DecidableEq, Repr

/-- Calling `#wake`, which only a sleeping pull has set. -/
def SsePull.wake : SsePull → SsePull
  | .sleeping => .woken
  | pulling => pulling

namespace SseHubTransport

/-- Settle the promise of a send. -/
def settle (s : SseHubTransport) (send : ℕ) (outcome : SendOutcome) : SseHubTransport :=
  { s with outcomes := s.outcomes.set send outcome }

/-- A send whose promise is rejected from the start. -/
def refuse (s : SseHubTransport) (reason : SendRefusal) : SseHubTransport :=
  { s with outcomes := s.outcomes ++ [.rejected reason] }

/-- Reject the sends of the frames. -/
def rejectAll (frames : List QueuedFrame) (outcomes : List SendOutcome) : List SendOutcome :=
  match frames with
  | [] => outcomes
  | frame :: rest => rejectAll rest (outcomes.set frame.send (.rejected .connectionClosed))

def close (s : SseHubTransport) : SseHubTransport :=
  if s.aborted then s
  else
    { s with
      aborted := true
      queue := []
      outcomes := rejectAll s.queue s.outcomes
      pulling := s.pulling.wake }

/-- `send`, for what serializing the frame gives. -/
def send (limits : TransportLimits) (s : SseHubTransport) (serialized : Option String) :
    SseHubTransport :=
  if s.aborted then s.refuse .closed
  else if limits.outboundFrames ≤ s.queue.length then s.close.refuse .queueFull
  else
    match serialized with
    | none => s.close.refuse .serialization
    | some data =>
        if limits.outboundFrameBytes < data.utf8ByteSize then s.close.refuse .tooLarge
        else
          { s with
            queue := s.queue ++ [⟨s.outcomes.length, data⟩]
            accepted := s.accepted ++ [⟨s.outcomes.length, data⟩]
            outcomes := s.outcomes ++ [.pending]
            pulling := s.pulling.wake }

/-- The rest of a pull once it has a frame. -/
def write (s : SseHubTransport) (frame : QueuedFrame) : SseWrite → SseHubTransport
  | .written => { s with enqueued := s.enqueued ++ [frame] }.settle frame.send .resolved
  | .enqueueThrows => (s.settle frame.send (.rejected .writeFailed)).close
  | .activityThrows =>
      ({ s with enqueued := s.enqueued ++ [frame] }.settle frame.send
        (.rejected .writeFailed)).close

/-- A pull, up to its `await` or to its end. -/
def pull (s : SseHubTransport) (write : SseWrite) : Option SseHubTransport :=
  match s.pulling with
  | .idle =>
      if s.aborted then some s
      else
        match s.queue with
        | [] => some { s with pulling := .sleeping }
        | frame :: queue => some ({ s with queue := queue }.write frame write)
  | _ => none

/-- A woken pull goes on. -/
def turn (s : SseHubTransport) (write : SseWrite) : Option SseHubTransport :=
  match s.pulling with
  | .woken =>
      if s.aborted then some { s with pulling := .idle }
      else
        match s.queue with
        | [] => some { s with pulling := .idle }
        | frame :: queue => some ({ s with queue := queue, pulling := .idle }.write frame write)
  | _ => none

def step (limits : TransportLimits) (s : SseHubTransport) : SseHubEvent → Option SseHubTransport
  | .send serialized => some (s.send limits serialized)
  | .pull write => s.pull write
  | .turn write => s.turn write
  | .cancel => some s.close
  | .close => some s.close

/-- The chunks of the body, before they are encoded. -/
def body (s : SseHubTransport) : List String := s.enqueued.map fun frame => dataFrame frame.data

end SseHubTransport

/-- Every run of a transport over server-sent events. -/
def sseHubTransport (limits : TransportLimits) : Machine SseHubTransport SseHubEvent where
  init := {}
  step := SseHubTransport.step limits

end Arc.Observable
