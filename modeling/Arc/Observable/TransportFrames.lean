import Arc.Observable.WebSocketTransport

/-!
# Frames of a transport

The outbound half of a transport (`Outbound`) and its inbound half (`Inbound`) meet in `close`
only: a call of one half leaves the other as it is, or closes it. `transport_law` puts together
what both keep; once the transport is closed, the turns that are left settle every send.
-/

namespace Arc.Observable.WebSocketTransport

variable {limits : TransportLimits} {s t : WebSocketTransport}

/-! ### The two halves -/

/-- The sends whose write is over. -/
def concludedSends (s : WebSocketTransport) : List Written :=
  s.settled ++ s.released ++ s.concluded

structure Outbound (limits : TransportLimits) (s : WebSocketTransport) : Prop where
  stages : s.accepted =
    s.concludedSends.map Written.frame ++ s.writing.toList.map Writing.frame ++ s.queued
  window : s.outstanding = s.queued.length + s.writing.toList.length + s.concluded.length
  bound : s.outstanding ≤ limits.outboundFrames
  frames : s.aborted = false → s.frames =
    s.concludedSends.map Written.frame ++ (s.writing.toList.filter Writing.sent).map Writing.frame
  ordered : s.frames <+: s.accepted
  unsent : ∀ writing ∈ s.writing, writing.sent = false → writing.outcome = some false
  failed : ∀ send ∈ s.concludedSends, send.ok = false → s.aborted = true
  cut : s.aborted = true → ∀ writing ∈ s.writing, writing.outcome.isSome = true

/-- A frame that is on its way to the consumer. -/
def inFlight (s : WebSocketTransport) : List String :=
  match s.phase with
  | .yielding text => [text]
  | _ => []

structure Inbound (limits : TransportLimits) (s : WebSocketTransport) : Prop where
  bound : s.pending.length ≤ limits.inboundFrames
  queue : s.received = s.delivered ++ s.inFlight ++ s.pending
  wake : s.wake = true ↔ s.phase = .waiting
  woken : s.aborted = true → s.wake = false

/-- The transport without its inbound half. -/
def outgoing (s : WebSocketTransport) : WebSocketTransport :=
  { s with
    socket := .open', pending := [], wake := false, phase := .start, requests := []
    received := [], delivered := [] }

/-- The transport without its outbound half. -/
def incoming (s : WebSocketTransport) : WebSocketTransport :=
  { s with
    socket := .open', outstanding := 0, queued := [], writing := none, concluded := []
    released := [], settled := [], accepted := [], frames := [], requests := [] }

theorem outbound_outgoing : Outbound limits s.outgoing ↔ Outbound limits s := by
  constructor
  · intro h
    exact ⟨h.stages, h.window, h.bound, h.frames, h.ordered, h.unsent, h.failed, h.cut⟩
  · intro h
    exact ⟨h.stages, h.window, h.bound, h.frames, h.ordered, h.unsent, h.failed, h.cut⟩

theorem Outbound.of_outgoing (h : Outbound limits s) (heq : t.outgoing = s.outgoing) :
    Outbound limits t := by
  rw [← outbound_outgoing, heq, outbound_outgoing]
  exact h

theorem inbound_incoming : Inbound limits s.incoming ↔ Inbound limits s := by
  constructor
  · intro h
    exact ⟨h.bound, h.queue, h.wake, h.woken⟩
  · intro h
    exact ⟨h.bound, h.queue, h.wake, h.woken⟩

theorem Inbound.of_incoming (h : Inbound limits s) (heq : t.incoming = s.incoming) :
    Inbound limits t := by
  rw [← inbound_incoming, heq, inbound_incoming]
  exact h

theorem Outbound.initial : Outbound limits {} := by
  constructor <;> simp [concludedSends]

theorem Inbound.initial : Inbound limits {} := by
  constructor <;> simp [inFlight]

/-! ### Closing -/

theorem close_of_aborted (h : s.aborted = true) : s.close = s := if_pos h

theorem close_aborted (s : WebSocketTransport) : s.close.aborted = true := by
  by_cases haborted : s.aborted = true
  · rw [close_of_aborted haborted]
    exact haborted
  · rw [close, if_neg haborted]

theorem Outbound.close (h : Outbound limits s) : Outbound limits s.close := by
  by_cases haborted : s.aborted = true
  · rw [close_of_aborted haborted]
    exact h
  · rw [WebSocketTransport.close, if_neg haborted]
    cases hwriting : s.writing with
    | none =>
        have hstages := h.stages
        have hwindow := h.window
        rw [hwriting] at hstages hwindow
        exact {
          stages := hstages
          window := hwindow
          bound := h.bound
          frames := by simp
          ordered := h.ordered
          unsent := by simp
          failed := by simp
          cut := by simp }
    | some writing =>
        have hstages := h.stages
        have hwindow := h.window
        have hunsent := h.unsent writing
        rw [hwriting] at hstages hwindow hunsent
        exact {
          stages := hstages
          window := hwindow
          bound := h.bound
          frames := by simp
          ordered := h.ordered
          unsent := by
            intro other hother hnot
            cases hother
            have houtcome := hunsent rfl hnot
            simp [Writing.abort, houtcome]
          failed := by simp
          cut := by
            intro _ other hother
            cases hother
            rfl }

theorem Inbound.close (h : Inbound limits s) : Inbound limits s.close := by
  by_cases haborted : s.aborted = true
  · rw [close_of_aborted haborted]
    exact h
  · rw [WebSocketTransport.close, if_neg haborted]
    cases hwake : s.wake with
    | false =>
        have hphase := h.wake
        rw [hwake] at hphase
        exact {
          bound := h.bound
          queue := h.queue
          wake := hphase
          woken := fun _ => rfl }
    | true =>
        have hqueue := h.queue
        rw [inFlight, h.wake.1 hwake] at hqueue
        exact {
          bound := h.bound
          queue := hqueue
          wake := by simp
          woken := fun _ => rfl }

theorem close_queued (queued : List String) :
    { s with queued := queued }.close = { s.close with queued := queued } := by
  unfold WebSocketTransport.close
  by_cases haborted : s.aborted = true
  · rw [if_pos haborted, if_pos haborted]
  · rw [if_neg haborted, if_neg haborted]

theorem close_keeps_queued : s.close.queued = s.queued := by
  unfold WebSocketTransport.close
  by_cases haborted : s.aborted = true
  · rw [if_pos haborted]
  · rw [if_neg haborted]

theorem close_writing :
    s.close.writing = if s.aborted then s.writing else s.writing.map Writing.abort := by
  unfold WebSocketTransport.close
  by_cases haborted : s.aborted = true
  · rw [if_pos haborted, if_pos haborted]
  · rw [if_neg haborted, if_neg haborted]

/-- Closing needs less of an open transport without a write than it makes sure of. -/
theorem outbound_close (haborted : s.aborted = false) (hwriting : s.writing = none)
    (hstages : s.accepted = s.concludedSends.map Written.frame ++ s.queued)
    (hwindow : s.outstanding = s.queued.length + s.concluded.length)
    (hbound : s.outstanding ≤ limits.outboundFrames) (hordered : s.frames <+: s.accepted) :
    Outbound limits s.close := by
  rw [close, if_neg (by simp [haborted])]
  exact {
    stages := by simpa [hwriting, concludedSends] using hstages
    window := by simpa [hwriting] using hwindow
    bound := hbound
    frames := by simp
    ordered := hordered
    unsent := by simp [hwriting]
    failed := by simp
    cut := by simp [hwriting] }

/-! ### Sends -/

theorem Outbound.send (h : Outbound limits s) (serialized : Option String) :
    Outbound limits (s.send limits serialized) := by
  unfold WebSocketTransport.send
  by_cases haborted : s.aborted = true
  · rw [if_pos haborted]
    exact h
  · rw [if_neg haborted]
    by_cases hfull : limits.outboundFrames ≤ s.outstanding
    · rw [if_pos hfull]
      exact h.close
    · rw [if_neg hfull]
      cases serialized with
      | none => exact h.close
      | some json =>
          dsimp only
          split_ifs
          · exact h.close
          · have hstages := h.stages
            have hwindow := h.window
            exact {
              stages := by simp [hstages, concludedSends]
              window := by simp [hwindow]; omega
              bound := by simp; omega
              frames := h.frames
              ordered := h.ordered.trans (List.prefix_append _ _)
              unsent := h.unsent
              failed := h.failed
              cut := h.cut }

/-- A write begins with the frame that has waited longest. -/
theorem Outbound.write (h : Outbound limits s) (hwriting : s.writing = none) {json : String}
    {queued : List String} (hqueued : s.queued = json :: queued) (bufferedAmount : ℕ)
    (throws : Bool) :
    Outbound limits ({ s with queued := queued }.write limits json bufferedAmount throws) := by
  have hstages := h.stages
  have hwindow := h.window
  rw [hwriting, hqueued] at hstages hwindow
  have hframes := h.frames
  rw [hwriting] at hframes
  have hunsent : ∀ {u : WebSocketTransport}, Outbound limits u → u.writing = none →
      u.queued = json :: queued → Outbound limits
        { u with queued := queued, writing := some ⟨json, false, some false⟩ } := by
    intro u hu hnone hhead
    have hstages := hu.stages
    have hwindow := hu.window
    have hframes := hu.frames
    rw [hnone, hhead] at hstages hwindow
    rw [hnone] at hframes
    exact {
      stages := by simpa [concludedSends] using hstages
      window := by simpa [Nat.add_comm, Nat.add_left_comm] using hwindow
      bound := hu.bound
      frames := by simpa [concludedSends] using hframes
      ordered := hu.ordered
      unsent := by simp
      failed := hu.failed
      cut := by simp }
  unfold WebSocketTransport.write
  dsimp only
  by_cases hshut : (s.aborted || s.socket != .open') = true
  · rw [if_pos hshut]
    exact hunsent h hwriting hqueued
  · rw [if_neg hshut]
    have hopen : s.aborted = false := by
      cases haborted : s.aborted with
      | false => rfl
      | true => simp [haborted] at hshut
    by_cases hpressed : limits.outboundFrameBytes < bufferedAmount
    · rw [if_pos hpressed, close_queued]
      have hnone : s.close.writing = none := by
        rw [close_writing, hwriting]
        split_ifs <;> rfl
      have hclosed := hunsent h.close hnone (close_keeps_queued.trans hqueued)
      exact hclosed
    · rw [if_neg hpressed]
      have hsent := hframes hopen
      simp only [Option.toList_none, List.filter_nil, List.map_nil, List.append_nil] at hsent
      exact {
        stages := by simpa [concludedSends] using hstages
        window := by simpa [Nat.add_comm, Nat.add_left_comm] using hwindow
        bound := h.bound
        frames := fun _ => by simp [hsent, concludedSends]
        ordered := ⟨queued, by simpa [hsent] using hstages.symm⟩
        unsent := by simp
        failed := h.failed
        cut := by simp [hopen] }

theorem Outbound.begin (h : Outbound limits s) {bufferedAmount : ℕ} {throws : Bool}
    (hstep : s.begin limits bufferedAmount throws = some t) : Outbound limits t := by
  unfold WebSocketTransport.begin at hstep
  cases hwriting : s.writing with
  | some writing => simp [hwriting] at hstep
  | none =>
      cases hqueued : s.queued with
      | nil => simp [hwriting, hqueued] at hstep
      | cons json queued =>
          rw [hwriting, hqueued] at hstep
          cases hstep
          have hwrite := h.write hwriting hqueued bufferedAmount throws
          rw [hwriting] at hwrite
          exact hwrite

theorem Outbound.written (h : Outbound limits s) {ok : Bool} (hstep : s.written ok = some t) :
    Outbound limits t := by
  unfold WebSocketTransport.written at hstep
  cases hwriting : s.writing with
  | none => simp [hwriting] at hstep
  | some writing =>
      obtain ⟨frame, sent, outcome⟩ := writing
      cases outcome with
      | some _ => simp [hwriting] at hstep
      | none =>
          rw [hwriting] at hstep
          cases hstep
          have hstages := h.stages
          have hwindow := h.window
          have hframes := h.frames
          have hunsent := h.unsent
          rw [hwriting] at hstages hwindow hframes hunsent
          exact {
            stages := hstages
            window := hwindow
            bound := h.bound
            frames := by
              cases sent <;> simpa [concludedSends] using hframes
            ordered := h.ordered
            unsent := by
              intro other hother hnot
              cases hother
              cases hunsent _ rfl hnot
            failed := h.failed
            cut := by simp }

theorem Outbound.conclude (h : Outbound limits s) (hstep : s.conclude = some t) :
    Outbound limits t := by
  unfold WebSocketTransport.conclude at hstep
  cases hwriting : s.writing with
  | none => simp [hwriting] at hstep
  | some writing =>
      obtain ⟨frame, sent, outcome⟩ := writing
      cases outcome with
      | none => simp [hwriting] at hstep
      | some ok =>
          rw [hwriting] at hstep
          have hstages := h.stages
          have hwindow := h.window
          have hframes := h.frames
          have hunsent := h.unsent
          rw [hwriting] at hstages hwindow hframes hunsent
          -- a write that succeeded was handed to the socket
          have hsent : ok = true → sent = true := by
            intro hok
            cases sent with
            | true => rfl
            | false =>
                cases hunsent _ rfl rfl
                cases hok
          cases ok with
          | false =>
              cases hstep
              rw [if_neg (by decide)]
              cases haborted : s.aborted with
              | false =>
                  apply outbound_close
                  · rfl
                  · rfl
                  · simpa [concludedSends] using hstages
                  · simpa [Nat.add_comm, Nat.add_left_comm, Nat.add_assoc] using hwindow
                  · exact h.bound
                  · exact h.ordered
              | true =>
                  rw [close_of_aborted rfl]
                  exact {
                    stages := by simpa [concludedSends] using hstages
                    window := by simpa [Nat.add_comm, Nat.add_left_comm] using hwindow
                    bound := h.bound
                    frames := by simp
                    ordered := h.ordered
                    unsent := by simp
                    failed := by simp
                    cut := by simp }
          | true =>
              cases hstep
              cases hsent rfl
              exact {
                stages := by simpa [concludedSends] using hstages
                window := by simpa [Nat.add_comm, Nat.add_left_comm] using hwindow
                bound := h.bound
                frames := by simpa [concludedSends] using hframes
                ordered := h.ordered
                unsent := by simp
                failed := fun send hmem hok => by
                  have hmem' : send ∈ s.concludedSends ∨ send = ⟨frame, true⟩ := by
                    simpa [concludedSends, or_assoc] using hmem
                  rcases hmem' with hmem | rfl
                  · exact h.failed send hmem hok
                  · cases hok
                cut := by simp }

theorem Outbound.release (h : Outbound limits s) (hstep : s.release = some t) :
    Outbound limits t := by
  unfold WebSocketTransport.release at hstep
  cases hconcluded : s.concluded with
  | nil => simp [hconcluded] at hstep
  | cons send concluded =>
      rw [hconcluded] at hstep
      cases hstep
      have hover : s.concludedSends = s.settled ++ (s.released ++ [send]) ++ concluded := by
        simp [concludedSends, hconcluded]
      have hstages := h.stages
      have hwindow := h.window
      have hframes := h.frames
      have hfailed := h.failed
      have hbound := h.bound
      rw [hover] at hstages hframes hfailed
      rw [hconcluded, List.length_cons] at hwindow
      exact {
        stages := hstages
        window := by simp; omega
        bound := by simp; omega
        frames := hframes
        ordered := h.ordered
        unsent := h.unsent
        failed := hfailed
        cut := h.cut }

theorem Outbound.settle (h : Outbound limits s) (hstep : s.settle = some t) :
    Outbound limits t := by
  unfold WebSocketTransport.settle at hstep
  cases hreleased : s.released with
  | nil => simp [hreleased] at hstep
  | cons send released =>
      rw [hreleased] at hstep
      cases hstep
      have hover : s.concludedSends = s.settled ++ [send] ++ released ++ s.concluded := by
        simp [concludedSends, hreleased]
      have hstages := h.stages
      have hframes := h.frames
      have hfailed := h.failed
      rw [hover] at hstages hframes hfailed
      exact {
        stages := hstages
        window := h.window
        bound := h.bound
        frames := hframes
        ordered := h.ordered
        unsent := h.unsent
        failed := hfailed
        cut := h.cut }

/-! ### The iteration -/

/-- A generator without a frame on its way may go to any phase but a wait. -/
theorem Inbound.goTo (h : Inbound limits s) (hwake : s.wake = false) (hempty : s.inFlight = [])
    {phase : GeneratorPhase String} (hwaiting : phase ≠ .waiting)
    (hyielding : ∀ text, phase ≠ .yielding text) (requests : List Request) :
    Inbound limits { s with phase := phase, requests := requests } where
  bound := h.bound
  queue := by
    have hqueue := h.queue
    rw [hempty] at hqueue
    cases phase with
    | yielding text => exact absurd rfl (hyielding text)
    | _ => exact hqueue
  wake := by simp [hwake, hwaiting]
  woken := fun _ => hwake

theorem inFlight_close (h : Inbound limits s) : s.close.inFlight = s.inFlight := by
  by_cases haborted : s.aborted = true
  · rw [close_of_aborted haborted]
  · rw [close, if_neg haborted]
    cases hwake : s.wake with
    | false => rfl
    | true =>
        have hphase := h.wake.1 hwake
        simp [inFlight, hphase]

theorem Inbound.leave (h : Inbound limits s) (hempty : s.inFlight = []) :
    Inbound limits s.leave :=
  h.close.goTo (h.close.woken (close_aborted s)) ((inFlight_close h).trans hempty) (by simp)
    (by simp) []

theorem Inbound.loop (h : Inbound limits s) (hwake : s.wake = false) (hempty : s.inFlight = []) :
    Inbound limits s.loop := by
  unfold WebSocketTransport.loop
  by_cases haborted : s.aborted = true
  · rw [if_pos haborted]
    exact h.leave hempty
  · rw [if_neg haborted]
    have hqueue := h.queue
    have hbound := h.bound
    rw [hempty] at hqueue
    cases hpending : s.pending with
    | nil =>
        rw [hpending] at hqueue
        exact {
          bound := Nat.zero_le _
          queue := hqueue
          wake := by simp
          woken := fun hgone => absurd hgone haborted }
    | cons text pending =>
        rw [hpending] at hqueue hbound
        exact {
          bound := Nat.le_of_succ_le hbound
          queue := by simpa [inFlight] using hqueue
          wake := by simp [hwake]
          woken := fun _ => hwake }

/-- The loop does not look at the phase it begins in. -/
theorem loop_phase (phase : GeneratorPhase String) : { s with phase := phase }.loop = s.loop := by
  unfold WebSocketTransport.loop
  by_cases haborted : s.aborted = true
  · rw [if_pos haborted, if_pos haborted]
    unfold WebSocketTransport.leave
    rw [close_of_aborted (s := { s with phase := phase }) haborted, close_of_aborted haborted]
  · rw [if_neg haborted, if_neg haborted]

theorem Inbound.asleep (h : Inbound limits s) (hphase : s.phase ≠ .waiting) : s.wake = false := by
  cases hwake : s.wake with
  | false => rfl
  | true => exact absurd (h.wake.1 hwake) hphase

theorem Inbound.deliver (h : Inbound limits s) {text : String} (hphase : s.phase = .yielding text) :
    Inbound limits (s.deliver text) := by
  have hwake := h.asleep (by simp [hphase])
  have hqueue := h.queue
  rw [inFlight, hphase] at hqueue
  -- the frame has left the generator
  have hdelivered : Inbound limits { s with
      delivered := s.delivered ++ [text], requests := s.requests.tail, phase := .suspended } := {
    bound := h.bound
    queue := by simpa [inFlight] using hqueue
    wake := by simp [hwake]
    woken := fun _ => hwake }
  unfold WebSocketTransport.deliver
  dsimp only
  split
  · exact hdelivered
  · rw [← loop_phase .suspended]
    exact hdelivered.loop hwake rfl
  · exact hdelivered.goTo hwake rfl (by simp) (by simp) _

theorem Inbound.request (h : Inbound limits s) (requests : List Request) :
    Inbound limits { s with requests := requests } :=
  ⟨h.bound, h.queue, h.wake, h.woken⟩

theorem Inbound.pull (h : Inbound limits s) : Inbound limits s.pull := by
  unfold WebSocketTransport.pull
  split
  · rename_i hphase
    exact (h.request [.next]).loop (h.asleep (by simp [hphase])) (by simp [inFlight, hphase])
  · rename_i hphase
    exact (h.request [.next]).loop (h.asleep (by simp [hphase])) (by simp [inFlight, hphase])
  · exact h
  · exact h.request _

theorem Inbound.return' (h : Inbound limits s) : Inbound limits s.return' := by
  unfold WebSocketTransport.return'
  split
  · rename_i hphase
    exact h.goTo (h.asleep (by simp [hphase])) (by simp [inFlight, hphase]) (by simp) (by simp) _
  · rename_i hphase
    exact h.goTo (h.asleep (by simp [hphase])) (by simp [inFlight, hphase]) (by simp) (by simp) _
  · exact h
  · exact h.request _

theorem Inbound.turn (h : Inbound limits s) (hstep : s.turn = some t) : Inbound limits t := by
  unfold WebSocketTransport.turn at hstep
  cases hphase : s.phase with
  | yielding text =>
      rw [hphase] at hstep
      cases hstep
      exact h.deliver hphase
  | woken =>
      rw [hphase] at hstep
      cases hstep
      exact h.loop (h.asleep (by simp [hphase])) (by simp [inFlight, hphase])
  | returning =>
      rw [hphase] at hstep
      cases hstep
      exact h.leave (by simp [inFlight, hphase])
  | _ => simp [hphase] at hstep

theorem Inbound.message (h : Inbound limits s) (binary : Bool) (bytes : ℕ) (text : String) :
    Inbound limits (s.message limits binary bytes text) := by
  unfold WebSocketTransport.message
  split_ifs with hbinary hlarge hfull hwake
  · exact h.close
  · exact h.close
  · exact h.close
  · have hqueue := h.queue
    rw [inFlight, h.wake.1 hwake] at hqueue
    exact {
      bound := by simp; omega
      queue := by simp [hqueue, inFlight]
      wake := by simp
      woken := fun _ => rfl }
  · have hqueue := h.queue
    have hasleep : s.wake = false := by simpa using hwake
    exact {
      bound := by simp; omega
      queue := by simp [hqueue, inFlight]
      wake := by simpa [hasleep] using h.wake
      woken := fun _ => rfl }

/-! ### What one half does to the other -/

/-- The transport is as it was, or closed. -/
def SameOrClosed (view : WebSocketTransport → WebSocketTransport) (s t : WebSocketTransport) :
    Prop :=
  view t = view s ∨ view t = view s.close

theorem outgoing_loop (s : WebSocketTransport) : SameOrClosed outgoing s s.loop := by
  unfold WebSocketTransport.loop
  split_ifs
  · exact .inr rfl
  · cases s.pending with
    | nil => exact .inl rfl
    | cons text pending => exact .inl rfl

theorem outgoing_close (heq : t.outgoing = s.outgoing) : t.close.outgoing = s.close.outgoing := by
  have hview : ∀ u : WebSocketTransport, u.close.outgoing = u.outgoing.close.outgoing := by
    intro u
    by_cases haborted : u.aborted = true
    · rw [close_of_aborted haborted, close_of_aborted (s := u.outgoing) haborted]
      rfl
    · have hopen : ¬ u.outgoing.aborted = true := haborted
      rw [close, close, if_neg haborted, if_neg hopen]
      rfl
  rw [hview t, hview s, heq]

theorem incoming_close (heq : t.incoming = s.incoming) : t.close.incoming = s.close.incoming := by
  have hview : ∀ u : WebSocketTransport, u.close.incoming = u.incoming.close.incoming := by
    intro u
    by_cases haborted : u.aborted = true
    · rw [close_of_aborted haborted, close_of_aborted (s := u.incoming) haborted]
      rfl
    · have hopen : ¬ u.incoming.aborted = true := haborted
      rw [close, close, if_neg haborted, if_neg hopen]
      rfl
  rw [hview t, hview s, heq]

/-- A loop after a change of the inbound half. -/
theorem outgoing_loop_of (heq : t.outgoing = s.outgoing) : SameOrClosed outgoing s t.loop :=
  (outgoing_loop t).imp (fun h => h.trans heq) fun h => h.trans (outgoing_close heq)

theorem outgoing_pull (s : WebSocketTransport) : SameOrClosed outgoing s s.pull := by
  unfold WebSocketTransport.pull
  split
  · exact outgoing_loop_of rfl
  · exact outgoing_loop_of rfl
  · exact .inl rfl
  · exact .inl rfl

theorem outgoing_return' (s : WebSocketTransport) : s.return'.outgoing = s.outgoing := by
  unfold WebSocketTransport.return'
  split <;> rfl

theorem outgoing_turn (hstep : s.turn = some t) : SameOrClosed outgoing s t := by
  unfold WebSocketTransport.turn at hstep
  split at hstep
  · cases hstep
    unfold WebSocketTransport.deliver
    dsimp only
    split
    · exact .inl rfl
    · exact outgoing_loop_of rfl
    · exact .inl rfl
  · cases hstep
    exact outgoing_loop s
  · cases hstep
    exact .inr rfl
  · cases hstep

theorem outgoing_message (binary : Bool) (bytes : ℕ) (text : String) :
    SameOrClosed outgoing s (s.message limits binary bytes text) := by
  unfold WebSocketTransport.message
  by_cases hbinary : binary = true
  · rw [if_pos hbinary]
    exact .inr rfl
  · rw [if_neg hbinary]
    by_cases hlarge : limits.inboundFrameBytes < bytes
    · rw [if_pos hlarge]
      exact .inr rfl
    · rw [if_neg hlarge]
      by_cases hfull : limits.inboundFrames ≤ s.pending.length
      · rw [if_pos hfull]
        exact .inr rfl
      · rw [if_neg hfull]
        exact .inl rfl

theorem incoming_send (serialized : Option String) :
    SameOrClosed incoming s (s.send limits serialized) := by
  unfold WebSocketTransport.send
  by_cases haborted : s.aborted = true
  · rw [if_pos haborted]
    exact .inl rfl
  · rw [if_neg haborted]
    by_cases hfull : limits.outboundFrames ≤ s.outstanding
    · rw [if_pos hfull]
      exact .inr rfl
    · rw [if_neg hfull]
      cases serialized with
      | none => exact .inr rfl
      | some json =>
          dsimp only
          by_cases hlarge : limits.outboundFrameBytes < json.utf8ByteSize
          · rw [if_pos hlarge]
            exact .inr rfl
          · rw [if_neg hlarge]
            exact .inl rfl

theorem incoming_begin {bufferedAmount : ℕ} {throws : Bool}
    (hstep : s.begin limits bufferedAmount throws = some t) : SameOrClosed incoming s t := by
  unfold WebSocketTransport.begin at hstep
  split at hstep
  · cases hstep
    unfold WebSocketTransport.write
    dsimp only
    split_ifs
    · exact .inl rfl
    · refine .inr ?_
      rw [close_queued]
      rfl
    · exact .inl rfl
    · exact .inl rfl
  · cases hstep

theorem incoming_conclude (hstep : s.conclude = some t) : SameOrClosed incoming s t := by
  unfold WebSocketTransport.conclude at hstep
  split at hstep
  · rename_i ok _
    cases hstep
    cases ok with
    | true => exact .inl rfl
    | false => exact .inr (incoming_close rfl)
  · cases hstep

theorem incoming_written {ok : Bool} (hstep : s.written ok = some t) :
    t.incoming = s.incoming := by
  unfold WebSocketTransport.written at hstep
  split at hstep
  · cases hstep
    rfl
  · cases hstep

theorem incoming_release (hstep : s.release = some t) : t.incoming = s.incoming := by
  unfold WebSocketTransport.release at hstep
  split at hstep
  · cases hstep
    rfl
  · cases hstep

theorem incoming_settle (hstep : s.settle = some t) : t.incoming = s.incoming := by
  unfold WebSocketTransport.settle at hstep
  split at hstep
  · cases hstep
    rfl
  · cases hstep

theorem Outbound.of_sameOrClosed (h : Outbound limits s) (hview : SameOrClosed outgoing s t) :
    Outbound limits t :=
  hview.elim h.of_outgoing h.close.of_outgoing

theorem Inbound.of_sameOrClosed (h : Inbound limits s) (hview : SameOrClosed incoming s t) :
    Inbound limits t :=
  hview.elim h.of_incoming h.close.of_incoming

/-! ### Every run -/

theorem Outbound.step (h : Outbound limits s) {event : TransportEvent}
    (hstep : s.step limits event = some t) : Outbound limits t := by
  cases event with
  | send serialized =>
      cases hstep
      exact h.send serialized
  | begin bufferedAmount throws => exact h.begin hstep
  | written ok => exact h.written hstep
  | conclude => exact h.conclude hstep
  | release => exact h.release hstep
  | settle => exact h.settle hstep
  | message binary bytes text =>
      cases hstep
      exact h.of_sameOrClosed (outgoing_message binary bytes text)
  | readyState state =>
      cases hstep
      exact h.of_outgoing rfl
  | socketClosed =>
      cases hstep
      exact h.close
  | close =>
      cases hstep
      exact h.close
  | pull =>
      cases hstep
      exact h.of_sameOrClosed (outgoing_pull s)
  | return' =>
      cases hstep
      exact h.of_outgoing (outgoing_return' s)
  | turn => exact h.of_sameOrClosed (outgoing_turn hstep)

theorem Inbound.step (h : Inbound limits s) {event : TransportEvent}
    (hstep : s.step limits event = some t) : Inbound limits t := by
  cases event with
  | send serialized =>
      cases hstep
      exact h.of_sameOrClosed (incoming_send serialized)
  | begin bufferedAmount throws => exact h.of_sameOrClosed (incoming_begin hstep)
  | written ok => exact h.of_incoming (incoming_written hstep)
  | conclude => exact h.of_sameOrClosed (incoming_conclude hstep)
  | release => exact h.of_incoming (incoming_release hstep)
  | settle => exact h.of_incoming (incoming_settle hstep)
  | message binary bytes text =>
      cases hstep
      exact h.message binary bytes text
  | readyState state =>
      cases hstep
      exact h.of_incoming rfl
  | socketClosed =>
      cases hstep
      exact h.close
  | close =>
      cases hstep
      exact h.close
  | pull =>
      cases hstep
      exact h.pull
  | return' =>
      cases hstep
      exact h.return'
  | turn => exact h.turn hstep

theorem Outbound.reachable (h : (webSocketTransport limits).Reachable s) : Outbound limits s :=
  Machine.Reachable.invariant _ Outbound.initial (fun _ _ _ hs hstep => hs.step hstep) h

theorem Inbound.reachable (h : (webSocketTransport limits).Reachable s) : Inbound limits s :=
  Machine.Reachable.invariant _ Inbound.initial (fun _ _ _ hs hstep => hs.step hstep) h

end Arc.Observable.WebSocketTransport
