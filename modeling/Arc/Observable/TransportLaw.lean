import Arc.Observable.TransportFrames

/-!
# What a transport promises

Frames go out in the order of their sends and within the window, and nothing goes out once the
transport is closed; then the turns of the promises that are left settle every send, without
the socket. A frame that the iteration has yielded reaches the consumer a turn later, and a send
leaves the window a turn before its promise settles.
-/

namespace Arc.Observable.WebSocketTransport

variable {limits : TransportLimits} {s t : WebSocketTransport}

/-- The frames that the iteration has yielded. -/
def yielded (s : WebSocketTransport) : List String :=
  s.delivered ++ s.inFlight

/-- A turn of the promises of the sends. -/
def isTurn : TransportEvent → Bool
  | .begin _ _ | .conclude | .release | .settle => true
  | _ => false

/-- The turns until every send has settled. -/
def work (s : WebSocketTransport) : ℕ :=
  4 * s.queued.length + 3 * s.writing.toList.length + 2 * s.concluded.length + s.released.length

structure TransportLaw (limits : TransportLimits) (s : WebSocketTransport) : Prop where
  ordered : s.frames <+: s.accepted
  received : s.yielded <+: s.received
  window : s.outstanding = s.queued.length + s.writing.toList.length + s.concluded.length ∧
    s.outstanding ≤ limits.outboundFrames
  inbound : s.pending.length ≤ limits.inboundFrames
  send : ∀ serialized, limits.outboundFrames ≤ s.outstanding ∨ serialized = none ∨
    (∃ json, serialized = some json ∧ limits.outboundFrameBytes < json.utf8ByteSize) →
      (s.send limits serialized).aborted = true
  message : ∀ binary bytes text, binary = true ∨ limits.inboundFrameBytes < bytes ∨
    limits.inboundFrames ≤ s.pending.length → (s.message limits binary bytes text).aborted = true
  failed : ∀ send ∈ s.concludedSends, send.ok = false → s.aborted = true
  silent : s.aborted = true → ∀ event u, s.step limits event = some u →
    u.aborted = true ∧ u.frames = s.frames ∧ u.yielded = s.yielded
  settles : s.aborted = true → ∀ events u, (∀ event ∈ events, isTurn event = true) →
    (webSocketTransport limits).exec s events = some u →
      events.length ≤ s.work ∧ (u.settled.map Written.frame = s.accepted ∨
        ∃ event v, isTurn event = true ∧ u.step limits event = some v)

/-! ### Closing -/

theorem send_closes (serialized : Option String)
    (h : limits.outboundFrames ≤ s.outstanding ∨ serialized = none ∨
      ∃ json, serialized = some json ∧ limits.outboundFrameBytes < json.utf8ByteSize) :
    (s.send limits serialized).aborted = true := by
  unfold WebSocketTransport.send
  by_cases haborted : s.aborted = true
  · rw [if_pos haborted]
    exact haborted
  · rw [if_neg haborted]
    by_cases hfull : limits.outboundFrames ≤ s.outstanding
    · rw [if_pos hfull]
      exact close_aborted s
    · rw [if_neg hfull]
      rcases h with hover | rfl | ⟨json, rfl, hlarge⟩
      · exact absurd hover hfull
      · exact close_aborted s
      · dsimp only
        rw [if_pos hlarge]
        exact close_aborted s

theorem message_closes (binary : Bool) (bytes : ℕ) (text : String)
    (h : binary = true ∨ limits.inboundFrameBytes < bytes ∨
      limits.inboundFrames ≤ s.pending.length) :
    (s.message limits binary bytes text).aborted = true := by
  unfold WebSocketTransport.message
  by_cases hbinary : binary = true
  · rw [if_pos hbinary]
    exact close_aborted s
  · rw [if_neg hbinary]
    by_cases hlarge : limits.inboundFrameBytes < bytes
    · rw [if_pos hlarge]
      exact close_aborted s
    · rw [if_neg hlarge, if_pos ((h.resolve_left hbinary).resolve_left hlarge)]
      exact close_aborted s

/-! ### After the close -/

/-- A closed transport is the same under a view that a call leaves as it is or closes. -/
theorem SameOrClosed.of_aborted {view : WebSocketTransport → WebSocketTransport}
    (h : SameOrClosed view s t) (haborted : s.aborted = true) : view t = view s := by
  rcases h with hsame | hclosed
  · exact hsame
  · rw [hclosed, close_of_aborted haborted]

theorem aborted_of_outgoing (h : t.outgoing = s.outgoing) (haborted : s.aborted = true) :
    t.aborted = true ∧ t.frames = s.frames ∧ t.accepted = s.accepted := by
  have hclosed : t.outgoing.aborted = s.outgoing.aborted := congrArg aborted h
  have hframes : t.outgoing.frames = s.outgoing.frames := congrArg frames h
  have haccepted : t.outgoing.accepted = s.outgoing.accepted := congrArg accepted h
  exact ⟨hclosed.trans haborted, hframes, haccepted⟩

theorem yielded_of_incoming (h : t.incoming = s.incoming) : t.yielded = s.yielded := by
  have hsame : t.incoming.yielded = s.incoming.yielded := congrArg yielded h
  exact hsame

theorem close_frames (s : WebSocketTransport) : s.close.frames = s.frames := by
  by_cases haborted : s.aborted = true
  · rw [close_of_aborted haborted]
  · rw [close, if_neg haborted]

theorem close_accepted (s : WebSocketTransport) : s.close.accepted = s.accepted := by
  by_cases haborted : s.aborted = true
  · rw [close_of_aborted haborted]
  · rw [close, if_neg haborted]

theorem begin_of_aborted (haborted : s.aborted = true) {bufferedAmount : ℕ} {throws : Bool}
    (hstep : s.begin limits bufferedAmount throws = some t) :
    t.aborted = true ∧ t.frames = s.frames ∧ t.accepted = s.accepted := by
  unfold WebSocketTransport.begin at hstep
  split at hstep
  · cases hstep
    unfold WebSocketTransport.write
    dsimp only
    rw [if_pos (by simp [haborted])]
    exact ⟨haborted, rfl, rfl⟩
  · cases hstep

theorem conclude_of_aborted (haborted : s.aborted = true) (hstep : s.conclude = some t) :
    t.aborted = true ∧ t.frames = s.frames ∧ t.accepted = s.accepted := by
  unfold WebSocketTransport.conclude at hstep
  split at hstep
  · rename_i ok _
    cases hstep
    cases ok with
    | true => exact ⟨haborted, rfl, rfl⟩
    | false => exact ⟨close_aborted _, close_frames _, close_accepted _⟩
  · cases hstep

theorem send_of_aborted (haborted : s.aborted = true) (serialized : Option String) :
    s.send limits serialized = s := if_pos haborted

theorem silent_outgoing (haborted : s.aborted = true) {event : TransportEvent}
    (hstep : s.step limits event = some t) : t.aborted = true ∧ t.frames = s.frames ∧ t.accepted = s.accepted := by
  cases event with
  | send serialized =>
      cases hstep
      rw [send_of_aborted haborted]
      exact ⟨haborted, rfl, rfl⟩
  | begin bufferedAmount throws => exact begin_of_aborted haborted hstep
  | written ok =>
      change s.written ok = some t at hstep
      unfold WebSocketTransport.written at hstep
      split at hstep
      · cases hstep
        exact ⟨haborted, rfl, rfl⟩
      · cases hstep
  | conclude => exact conclude_of_aborted haborted hstep
  | release =>
      change s.release = some t at hstep
      unfold WebSocketTransport.release at hstep
      split at hstep
      · cases hstep
        exact ⟨haborted, rfl, rfl⟩
      · cases hstep
  | settle =>
      change s.settle = some t at hstep
      unfold WebSocketTransport.settle at hstep
      split at hstep
      · cases hstep
        exact ⟨haborted, rfl, rfl⟩
      · cases hstep
  | message binary bytes text =>
      cases hstep
      exact aborted_of_outgoing ((outgoing_message binary bytes text).of_aborted haborted) haborted
  | readyState state =>
      cases hstep
      exact ⟨haborted, rfl, rfl⟩
  | socketClosed =>
      cases hstep
      rw [close_of_aborted haborted]
      exact ⟨haborted, rfl, rfl⟩
  | close =>
      cases hstep
      rw [close_of_aborted haborted]
      exact ⟨haborted, rfl, rfl⟩
  | pull =>
      cases hstep
      exact aborted_of_outgoing ((outgoing_pull s).of_aborted haborted) haborted
  | return' =>
      cases hstep
      exact aborted_of_outgoing (outgoing_return' s) haborted
  | turn => exact aborted_of_outgoing ((outgoing_turn hstep).of_aborted haborted) haborted

/-- The loop of a closed transport ends at once. -/
theorem loop_of_aborted (haborted : s.aborted = true) :
    s.loop = { s with phase := .ended, requests := [] } := by
  unfold WebSocketTransport.loop WebSocketTransport.leave
  rw [if_pos haborted, close_of_aborted haborted]

theorem yielded_pull (haborted : s.aborted = true) : s.pull.yielded = s.yielded := by
  unfold WebSocketTransport.pull
  split
  · rename_i hphase
    rw [loop_of_aborted (s := { s with requests := [.next] }) haborted]
    simp [yielded, inFlight, hphase]
  · rename_i hphase
    rw [loop_of_aborted (s := { s with requests := [.next] }) haborted]
    simp [yielded, inFlight, hphase]
  · rfl
  · rfl

theorem yielded_return' (s : WebSocketTransport) : s.return'.yielded = s.yielded := by
  unfold WebSocketTransport.return'
  split
  · rename_i hphase
    simp [yielded, inFlight, hphase]
  · rename_i hphase
    simp [yielded, inFlight, hphase]
  · rfl
  · rfl

/-- Only a frame that was on its way reaches the consumer. -/
theorem yielded_turn (haborted : s.aborted = true) (hstep : s.turn = some t) :
    t.yielded = s.yielded := by
  unfold WebSocketTransport.turn at hstep
  split at hstep
  · rename_i text hphase
    cases hstep
    unfold WebSocketTransport.deliver
    dsimp only
    split
    · simp [yielded, inFlight, hphase]
    · rw [loop_of_aborted (s := { s with
        delivered := s.delivered ++ [text], requests := s.requests.tail }) haborted]
      simp [yielded, inFlight, hphase]
    · simp [yielded, inFlight, hphase]
  · rename_i hphase
    cases hstep
    rw [loop_of_aborted haborted]
    simp [yielded, inFlight, hphase]
  · rename_i hphase
    cases hstep
    unfold WebSocketTransport.leave
    rw [close_of_aborted haborted]
    simp [yielded, inFlight, hphase]
  · cases hstep

theorem silent_yielded (h : Inbound limits s) (haborted : s.aborted = true)
    {event : TransportEvent} (hstep : s.step limits event = some t) :
    t.yielded = s.yielded := by
  cases event with
  | send serialized =>
      cases hstep
      exact yielded_of_incoming ((incoming_send serialized).of_aborted haborted)
  | begin bufferedAmount throws =>
      exact yielded_of_incoming ((incoming_begin hstep).of_aborted haborted)
  | written ok => exact yielded_of_incoming (incoming_written hstep)
  | conclude => exact yielded_of_incoming ((incoming_conclude hstep).of_aborted haborted)
  | release => exact yielded_of_incoming (incoming_release hstep)
  | settle => exact yielded_of_incoming (incoming_settle hstep)
  | message binary bytes text =>
      cases hstep
      unfold WebSocketTransport.message
      simp only [close_of_aborted haborted, h.woken haborted, Bool.false_eq_true, if_false]
      split_ifs <;> rfl
  | readyState state =>
      cases hstep
      rfl
  | socketClosed =>
      cases hstep
      rw [close_of_aborted haborted]
  | close =>
      cases hstep
      rw [close_of_aborted haborted]
  | pull =>
      cases hstep
      exact yielded_pull haborted
  | return' =>
      cases hstep
      exact yielded_return' s
  | turn => exact yielded_turn haborted hstep

/-! ### The turns that are left -/

theorem work_of_turn (haborted : s.aborted = true) {event : TransportEvent}
    (hturn : isTurn event = true) (hstep : s.step limits event = some t) :
    t.work < s.work := by
  cases event with
  | begin bufferedAmount throws =>
      change s.begin limits bufferedAmount throws = some t at hstep
      unfold WebSocketTransport.begin at hstep
      split at hstep
      · rename_i json queued hwriting hqueued
        cases hstep
        unfold WebSocketTransport.write
        dsimp only
        rw [if_pos (by simp [haborted])]
        simp [work, hwriting, hqueued]
        omega
      · cases hstep
  | conclude =>
      change s.conclude = some t at hstep
      unfold WebSocketTransport.conclude at hstep
      split at hstep
      · rename_i frame sent ok hwriting
        cases hstep
        cases ok with
        | true =>
            simp [work, hwriting]
            omega
        | false =>
            rw [if_neg (by decide), close_of_aborted (s := { s with
              writing := none, concluded := s.concluded ++ [⟨frame, false⟩] }) haborted]
            simp [work, hwriting]
            omega
      · cases hstep
  | release =>
      change s.release = some t at hstep
      unfold WebSocketTransport.release at hstep
      split at hstep
      · rename_i send concluded hconcluded
        cases hstep
        simp [work, hconcluded]
        omega
      · cases hstep
  | settle =>
      change s.settle = some t at hstep
      unfold WebSocketTransport.settle at hstep
      split at hstep
      · rename_i send released hreleased
        cases hstep
        simp [work, hreleased]
      · cases hstep
  | _ => cases hturn

/-- A turn is left until every send has settled. -/
theorem settled_or_turn (h : Outbound limits s) (haborted : s.aborted = true) :
    s.settled.map Written.frame = s.accepted ∨
      ∃ event v, isTurn event = true ∧ s.step limits event = some v := by
  cases hwriting : s.writing with
  | some writing =>
      obtain ⟨frame, sent, outcome⟩ := writing
      obtain ⟨ok, hok⟩ := Option.isSome_iff_exists.1 (h.cut haborted _ hwriting)
      cases hok
      have hstep : ∃ v, s.conclude = some v := by
        rw [WebSocketTransport.conclude, hwriting]
        exact ⟨_, rfl⟩
      obtain ⟨v, hv⟩ := hstep
      exact .inr ⟨.conclude, v, rfl, hv⟩
  | none =>
      cases hqueued : s.queued with
      | cons json queued =>
          have hstep : ∃ v, s.begin limits 0 false = some v := by
            rw [WebSocketTransport.begin, hwriting, hqueued]
            exact ⟨_, rfl⟩
          obtain ⟨v, hv⟩ := hstep
          exact .inr ⟨.begin 0 false, v, rfl, hv⟩
      | nil =>
          cases hconcluded : s.concluded with
          | cons send concluded =>
              have hstep : ∃ v, s.release = some v := by
                rw [WebSocketTransport.release, hconcluded]
                exact ⟨_, rfl⟩
              obtain ⟨v, hv⟩ := hstep
              exact .inr ⟨.release, v, rfl, hv⟩
          | nil =>
              cases hreleased : s.released with
              | cons send released =>
                  have hstep : ∃ v, s.settle = some v := by
                    rw [WebSocketTransport.settle, hreleased]
                    exact ⟨_, rfl⟩
                  obtain ⟨v, hv⟩ := hstep
                  exact .inr ⟨.settle, v, rfl, hv⟩
              | nil =>
                  have hstages := h.stages
                  rw [concludedSends, hwriting, hqueued, hconcluded, hreleased] at hstages
                  exact .inl (by simpa using hstages.symm)

/-- Turns of the promises alone: as many as there is work, and none is left when all sends have
settled. -/
theorem turns_settle (h : Outbound limits s) (haborted : s.aborted = true)
    {events : List TransportEvent} (hturns : ∀ event ∈ events, isTurn event = true)
    (hrun : (webSocketTransport limits).exec s events = some t) :
    events.length ≤ s.work ∧ (t.settled.map Written.frame = s.accepted ∨
      ∃ event v, isTurn event = true ∧ t.step limits event = some v) := by
  induction events generalizing s with
  | nil =>
      cases hrun
      exact ⟨Nat.zero_le _, settled_or_turn h haborted⟩
  | cons event events ih =>
      obtain ⟨u, hstep, hrest⟩ := ((webSocketTransport limits).exec_cons_eq_some_iff).1 hrun
      have hturn := hturns event List.mem_cons_self
      obtain ⟨hclosed, -, haccepted⟩ := silent_outgoing haborted hstep
      obtain ⟨hlength, hsettled⟩ := ih (h.step hstep) hclosed
        (fun other hmem => hturns other (List.mem_cons_of_mem _ hmem)) hrest
      have hwork := work_of_turn haborted hturn hstep
      rw [haccepted] at hsettled
      refine ⟨?_, hsettled⟩
      rw [List.length_cons]
      omega

/-- In every state a run reaches, the transport keeps its promises. -/
theorem transport_law (h : (webSocketTransport limits).Reachable s) : TransportLaw limits s := by
  have houtbound := Outbound.reachable h
  have hinbound := Inbound.reachable h
  exact {
    ordered := houtbound.ordered
    received := ⟨s.pending, hinbound.queue.symm⟩
    window := ⟨houtbound.window, houtbound.bound⟩
    inbound := hinbound.bound
    send := send_closes
    message := message_closes
    failed := houtbound.failed
    silent := fun haborted event u hstep => by
      obtain ⟨hclosed, hframes, -⟩ := silent_outgoing haborted hstep
      exact ⟨hclosed, hframes, silent_yielded hinbound haborted hstep⟩
    settles := fun haborted _ _ hturns hrun => turns_settle houtbound haborted hturns hrun }

def narrow : TransportLimits := ⟨1, 1, 8, 8⟩

/-- A write fails while the next send waits. -/
theorem transport_law_failedWrite : ∃ s, TransportLaw ⟨1, 2, 8, 8⟩ s ∧ s.aborted = true ∧
    s.queued = ["b"] ∧ s.frames = ["a"] :=
  ⟨_, transport_law ⟨[.send (some "a"), .send (some "b"), .begin 0 false, .written false,
    .conclude], rfl⟩, rfl, rfl, rfl⟩

/-- A frame reaches the consumer after the close, and two sends of a window of one have not
settled. -/
theorem frame_after_close :
    (∃ s t, (webSocketTransport narrow).Reachable s ∧ s.aborted = true ∧
      s.step narrow .turn = some t ∧ t.delivered = s.delivered ++ ["a"]) ∧
    ∃ s, (webSocketTransport narrow).Reachable s ∧
      narrow.outboundFrames < s.accepted.length - s.settled.length := by
  refine ⟨⟨_, _, ⟨[.message false 1 "a", .pull, .close], rfl⟩, rfl, rfl, rfl⟩, ?_⟩
  exact ⟨_, ⟨[.send (some "a"), .begin 0 false, .written true, .conclude, .release,
    .send (some "b")], rfl⟩, by decide⟩

end Arc.Observable.WebSocketTransport
