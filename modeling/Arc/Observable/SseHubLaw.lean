import Arc.Observable.SseHubTransport

/-!
# What the transport over server-sent events promises

Frames reach the stream in the order of their sends, none twice, and none is lost while the
transport is open. The sends that are pending are exactly those queued, so none is left pending
by the close, and a pull never sleeps over a queued frame. A send that has settled stays as it is,
and the pulls that the stream asks for write all that is queued.
-/

namespace Arc.Observable.SseHubTransport

variable {limits : TransportLimits} {s t : SseHubTransport}

/-- What holds of the frames, open or closed. -/
structure Kept (limits : TransportLimits) (s : SseHubTransport) : Prop where
  ordered : s.enqueued <+: s.accepted
  numbered : s.accepted.Pairwise fun first second => first.send < second.send
  known : ∀ frame ∈ s.accepted, frame.send < s.outcomes.length
  window : s.queue.length ≤ limits.outboundFrames
  sizes : ∀ frame ∈ s.accepted, frame.data.utf8ByteSize ≤ limits.outboundFrameBytes

/-- Where the frames and the pull are. -/
structure Flow (limits : TransportLimits) (s : SseHubTransport) : Prop extends Kept limits s where
  lossless : s.aborted = false → s.enqueued ++ s.queue = s.accepted
  emptied : s.aborted = true → s.queue = []
  asleep : s.pulling = .sleeping → s.aborted = false ∧ s.queue = []
  woken : s.pulling = .woken → s.aborted = false → s.queue ≠ []

/-- What the senders are told. Only the last write may have failed after its frame went out. -/
structure Told (s : SseHubTransport) : Prop where
  pending : ∀ i, s.outcomes[i]? = some .pending ↔ ∃ frame ∈ s.queue, frame.send = i
  resolved : ∀ i, s.outcomes[i]? = some .resolved → ∃ frame ∈ s.enqueued, frame.send = i
  written : ∀ frame ∈ s.enqueued, s.outcomes[frame.send]? = some .resolved ∨
    s.enqueued.getLast? = some frame ∧ s.outcomes[frame.send]? = some (.rejected .writeFailed)

/-- While the transport is open, every write has succeeded. -/
def Succeeded (s : SseHubTransport) : Prop :=
  s.aborted = false → ∀ frame ∈ s.enqueued, s.outcomes[frame.send]? = some .resolved

/-! ### Closing -/

@[simp] theorem rejectAll_length (frames : List QueuedFrame) (outcomes : List SendOutcome) :
    (rejectAll frames outcomes).length = outcomes.length := by
  induction frames generalizing outcomes with
  | nil => rfl
  | cons frame rest ih => rw [rejectAll, ih, List.length_set]

/-- The sends of other frames keep their outcome. -/
theorem rejectAll_of_ne {frames : List QueuedFrame} {i : ℕ}
    (h : ∀ frame ∈ frames, frame.send ≠ i) (outcomes : List SendOutcome) :
    (rejectAll frames outcomes)[i]? = outcomes[i]? := by
  induction frames generalizing outcomes with
  | nil => rfl
  | cons frame rest ih =>
      rw [rejectAll, ih (fun other hother => h other (List.mem_cons_of_mem _ hother)),
        List.getElem?_set_ne (h frame List.mem_cons_self)]

theorem rejectAll_of_mem {frames : List QueuedFrame} {outcomes : List SendOutcome} {i : ℕ}
    (hmem : ∃ frame ∈ frames, frame.send = i) (hknown : i < outcomes.length) :
    (rejectAll frames outcomes)[i]? = some (.rejected .connectionClosed) := by
  induction frames generalizing outcomes with
  | nil => simp at hmem
  | cons frame rest ih =>
      rw [rejectAll]
      by_cases hrest : ∃ other ∈ rest, other.send = i
      · exact ih hrest (by simpa using hknown)
      · have hsend : frame.send = i := by simpa [hrest] using hmem
        rw [rejectAll_of_ne (fun other hother hi => hrest ⟨other, hother, hi⟩), hsend,
          List.getElem?_set_self hknown]

theorem close_of_aborted (haborted : s.aborted = true) : s.close = s := if_pos haborted

theorem close_of_open (hopen : s.aborted = false) :
    s.close = { s with
      aborted := true
      queue := []
      outcomes := rejectAll s.queue s.outcomes
      pulling := s.pulling.wake } := by
  rw [close, if_neg (by rw [hopen]; decide)]

@[simp] theorem close_aborted (s : SseHubTransport) : s.close.aborted = true := by
  cases haborted : s.aborted with
  | true => rw [close_of_aborted haborted, haborted]
  | false => rw [close_of_open haborted]

theorem wake_ne_sleeping (pulling : SsePull) : pulling.wake ≠ .sleeping := by
  cases pulling <;> simp [SsePull.wake]

theorem Kept.close (h : Kept limits s) (hopen : s.aborted = false) : Flow limits s.close := by
  rw [close_of_open hopen]
  exact
    { ordered := h.ordered
      numbered := h.numbered
      known := fun frame hframe => by simpa using h.known frame hframe
      window := Nat.zero_le _
      sizes := h.sizes
      lossless := fun hfalse => by cases hfalse
      emptied := fun _ => rfl
      asleep := fun hasleep => absurd hasleep (wake_ne_sleeping _)
      woken := fun _ hfalse => by cases hfalse }

theorem Flow.close (h : Flow limits s) : Flow limits s.close := by
  cases haborted : s.aborted with
  | true =>
      rw [close_of_aborted haborted]
      exact h
  | false => exact h.toKept.close haborted

theorem Told.close (h : Told s) : Told s.close := by
  cases haborted : s.aborted with
  | true =>
      rw [close_of_aborted haborted]
      exact h
  | false =>
      have hqueued : ∀ i, (∃ frame ∈ s.queue, frame.send = i) →
          (rejectAll s.queue s.outcomes)[i]? = some (.rejected .connectionClosed) :=
        fun i hi => rejectAll_of_mem hi (List.getElem?_eq_some_iff.1 ((h.pending i).2 hi)).1
      have hother : ∀ i, (¬ ∃ frame ∈ s.queue, frame.send = i) →
          (rejectAll s.queue s.outcomes)[i]? = s.outcomes[i]? :=
        fun i hi => rejectAll_of_ne (fun frame hframe hsend => hi ⟨frame, hframe, hsend⟩) _
      rw [close_of_open haborted]
      refine ⟨fun i => ?_, fun i => ?_, fun frame hframe => ?_⟩
      · by_cases hi : ∃ frame ∈ s.queue, frame.send = i
        · simp [hqueued i hi]
        · simpa [hother i hi] using mt (h.pending i).1 hi
      · by_cases hi : ∃ frame ∈ s.queue, frame.send = i
        · simp [hqueued i hi]
        · exact (hother i hi).symm ▸ h.resolved i
      · have hsettled : ¬ ∃ other ∈ s.queue, other.send = frame.send := by
          rw [← h.pending]
          rcases h.written frame hframe with hresolved | hfailed
          · simp [hresolved]
          · simp [hfailed.2]
        exact (hother _ hsettled).symm ▸ h.written frame hframe

theorem Succeeded.close (s : SseHubTransport) : Succeeded s.close := by
  intro hfalse
  rw [close_aborted] at hfalse
  cases hfalse

/-! ### Sending -/

theorem Flow.refuse (h : Flow limits s) (reason : SendRefusal) : Flow limits (s.refuse reason) :=
  { h with
    known := fun frame hframe => by
      have hknown := h.known frame hframe
      simp only [SseHubTransport.refuse, List.length_append]
      omega }

theorem getElem?_append_rejected {outcomes : List SendOutcome} {reason : SendRefusal} {i : ℕ}
    {outcome : SendOutcome} (h : ∀ reason, outcome ≠ .rejected reason) :
    (outcomes ++ [.rejected reason])[i]? = some outcome ↔ outcomes[i]? = some outcome := by
  have hne := h reason
  grind

theorem Told.refuse (h : Told s) (reason : SendRefusal) : Told (s.refuse reason) where
  pending i := (getElem?_append_rejected (by simp)).trans (h.pending i)
  resolved i hi := h.resolved i ((getElem?_append_rejected (by simp)).1 hi)
  written frame hframe := by
    refine (h.written frame hframe).imp (getElem?_append_rejected (by simp)).2 fun hfailed => ?_
    refine ⟨hfailed.1, ?_⟩
    rw [SseHubTransport.refuse, List.getElem?_append_left]
    · exact hfailed.2
    · exact (List.getElem?_eq_some_iff.1 hfailed.2).1

theorem Succeeded.refuse (h : Succeeded s) (reason : SendRefusal) : Succeeded (s.refuse reason) :=
  fun hopen frame hframe => (getElem?_append_rejected (by simp)).2 (h hopen frame hframe)

/-- The state after a frame is queued. -/
def push (s : SseHubTransport) (data : String) : SseHubTransport :=
  { s with
    queue := s.queue ++ [⟨s.outcomes.length, data⟩]
    accepted := s.accepted ++ [⟨s.outcomes.length, data⟩]
    outcomes := s.outcomes ++ [.pending]
    pulling := s.pulling.wake }

/-- A send is refused, refused by a close, or queued. -/
theorem send_cases (limits : TransportLimits) (s : SseHubTransport) (serialized : Option String) :
    (s.aborted = true ∧ s.send limits serialized = s.refuse .closed) ∨
    (s.aborted = false ∧ ∃ reason, s.send limits serialized = s.close.refuse reason) ∨
    (s.aborted = false ∧ s.queue.length < limits.outboundFrames ∧ ∃ data,
      serialized = some data ∧ data.utf8ByteSize ≤ limits.outboundFrameBytes ∧
        s.send limits serialized = s.push data) := by
  unfold send push
  grind

theorem Flow.push (h : Flow limits s) (hopen : s.aborted = false)
    (hwindow : s.queue.length < limits.outboundFrames) {data : String}
    (hsize : data.utf8ByteSize ≤ limits.outboundFrameBytes) : Flow limits (s.push data) where
  ordered := h.ordered.trans (List.prefix_append _ _)
  numbered := by
    refine List.pairwise_append.2 ⟨h.numbered, List.pairwise_singleton _ _, ?_⟩
    intro frame hframe other hother
    rw [List.mem_singleton.1 hother]
    exact h.known frame hframe
  known frame hframe := by
    have hknown := h.known frame
    simp only [SseHubTransport.push, List.mem_append, List.mem_singleton, List.length_append,
      List.length_singleton] at hframe ⊢
    grind
  window := by
    simp only [SseHubTransport.push, List.length_append, List.length_singleton]
    omega
  sizes frame hframe := by
    have hsizes := h.sizes frame
    simp only [SseHubTransport.push, List.mem_append, List.mem_singleton] at hframe
    grind
  lossless _ := by
    simp only [SseHubTransport.push, ← List.append_assoc, h.lossless hopen]
  emptied hfalse := by
    rw [SseHubTransport.push, hopen] at hfalse
    cases hfalse
  asleep hasleep := absurd hasleep (wake_ne_sleeping _)
  woken _ _ := by simp [SseHubTransport.push]

theorem Told.push (h : Told s) (data : String) : Told (s.push data) where
  pending i := by
    have hpending := h.pending i
    simp only [SseHubTransport.push, List.mem_append, List.mem_singleton]
    grind
  resolved i hi := by
    have hresolved := h.resolved i
    simp only [SseHubTransport.push] at hi ⊢
    grind
  written frame hframe := by
    have hwritten := h.written frame hframe
    simp only [SseHubTransport.push]
    grind

theorem Succeeded.push (h : Succeeded s) (data : String) : Succeeded (s.push data) := by
  intro hopen frame hframe
  have hresolved := h hopen frame hframe
  simp only [SseHubTransport.push]
  grind

/-! ### Writing -/

section Write

variable {frame : QueuedFrame} {queue : List QueuedFrame}

/-- The state in which a pull has taken the first frame. -/
def taken (s : SseHubTransport) (queue : List QueuedFrame) : SseHubTransport :=
  { s with queue := queue, pulling := .idle }

/-- Earlier frames went out before, later ones are behind in the queue. -/
theorem Flow.between (h : Flow limits s) (hopen : s.aborted = false)
    (hqueue : s.queue = frame :: queue) :
    (∀ earlier ∈ s.enqueued, earlier.send < frame.send) ∧
      (∀ later ∈ queue, frame.send < later.send) ∧ frame.send < s.outcomes.length := by
  have hall := h.lossless hopen
  have hnumbered := h.numbered
  rw [← hall, hqueue, List.pairwise_append] at hnumbered
  refine ⟨fun earlier hearlier => hnumbered.2.2 earlier hearlier frame List.mem_cons_self,
    (List.pairwise_cons.1 hnumbered.2.1).1, h.known frame ?_⟩
  rw [← hall, hqueue]
  simp

theorem Flow.window_tail (h : Flow limits s) (hqueue : s.queue = frame :: queue) :
    queue.length ≤ limits.outboundFrames := by
  have hwindow := h.window
  rw [hqueue, List.length_cons] at hwindow
  omega

/-- Taking a frame without handing it over. -/
theorem Flow.kept_taken (h : Flow limits s) (hqueue : s.queue = frame :: queue)
    (outcome : SendOutcome) : Kept limits ((s.taken queue).settle frame.send outcome) :=
  { h.toKept with
    known := fun other hother => by simpa [settle, taken] using h.known other hother
    window := h.window_tail hqueue }

theorem Flow.handed (h : Flow limits s) (hopen : s.aborted = false)
    (hqueue : s.queue = frame :: queue) :
    (s.enqueued ++ [frame]) ++ queue = s.accepted := by
  rw [← h.lossless hopen, hqueue, List.append_assoc]
  rfl

/-- Taking a frame and handing it over. -/
theorem Flow.kept_handed (h : Flow limits s) (hopen : s.aborted = false)
    (hqueue : s.queue = frame :: queue) (outcome : SendOutcome) :
    Kept limits ({ s.taken queue with enqueued := s.enqueued ++ [frame] }.settle frame.send
      outcome) :=
  { h.kept_taken hqueue outcome with
    ordered := ⟨queue, h.handed hopen hqueue⟩ }

theorem Flow.write (h : Flow limits s) (hopen : s.aborted = false)
    (hqueue : s.queue = frame :: queue) (write : SseWrite) :
    Flow limits ((s.taken queue).write frame write) := by
  cases write with
  | written =>
      exact
        { h.kept_handed hopen hqueue .resolved with
          lossless := fun _ => h.handed hopen hqueue
          emptied := fun haborted => by
            rw [show s.aborted = true from haborted] at hopen
            cases hopen
          asleep := fun hasleep => by cases hasleep
          woken := fun hwoken => by cases hwoken }
  | enqueueThrows => exact (h.kept_taken hqueue _).close hopen
  | activityThrows => exact (h.kept_handed hopen hqueue _).close hopen

/-- The frame that is taken is no longer pending, and the others are as they were. -/
theorem Told.taken_pending (h : Told s) (hflow : Flow limits s) (hopen : s.aborted = false)
    (hqueue : s.queue = frame :: queue) {outcome : SendOutcome} (hne : outcome ≠ .pending)
    (i : ℕ) : (s.outcomes.set frame.send outcome)[i]? = some .pending ↔
      ∃ other ∈ queue, other.send = i := by
  obtain ⟨-, hlater, hknown⟩ := hflow.between hopen hqueue
  have hpending := h.pending i
  rw [hqueue] at hpending
  by_cases hi : frame.send = i
  · subst hi
    rw [List.getElem?_set_self hknown]
    refine iff_of_false (by simpa using hne) ?_
    rintro ⟨other, hother, hsend⟩
    exact absurd hsend (Nat.ne_of_lt (hlater other hother)).symm
  · rw [List.getElem?_set_ne hi, hpending]
    simp [hi]

theorem Told.outcome_earlier (hflow : Flow limits s) (hopen : s.aborted = false)
    (hqueue : s.queue = frame :: queue) (outcome : SendOutcome) {other : QueuedFrame}
    (hother : other ∈ s.enqueued) :
    (s.outcomes.set frame.send outcome)[other.send]? = s.outcomes[other.send]? :=
  List.getElem?_set_ne (Nat.ne_of_lt ((hflow.between hopen hqueue).1 other hother)).symm

theorem Told.taken_failed (h : Told s) (hflow : Flow limits s) (hopen : s.aborted = false)
    (hqueue : s.queue = frame :: queue) :
    Told ((s.taken queue).settle frame.send (.rejected .writeFailed)) where
  pending := h.taken_pending hflow hopen hqueue (by simp)
  resolved i hi := by
    have hresolved := h.resolved i
    simp only [settle, taken] at hi ⊢
    grind
  written other hother := by
    have hsame := outcome_earlier hflow hopen hqueue (.rejected .writeFailed) hother
    exact hsame.symm ▸ h.written other hother

theorem Told.handed (h : Told s) (hsucceeded : Succeeded s) (hflow : Flow limits s)
    (hopen : s.aborted = false) (hqueue : s.queue = frame :: queue) {outcome : SendOutcome}
    (houtcome : outcome = .resolved ∨ outcome = .rejected .writeFailed) :
    Told ({ s.taken queue with enqueued := s.enqueued ++ [frame] }.settle frame.send outcome) where
  pending := h.taken_pending hflow hopen hqueue (by rcases houtcome with rfl | rfl <;> simp)
  resolved i hi := by
    have hresolved := h.resolved i
    simp only [settle, taken] at hi ⊢
    grind
  written other hother := by
    have hknown := (hflow.between hopen hqueue).2.2
    rcases List.mem_append.1 hother with hearlier | hlast
    · refine .inl ?_
      simp only [settle, taken]
      rw [outcome_earlier hflow hopen hqueue outcome hearlier]
      exact hsucceeded hopen other hearlier
    · rw [List.mem_singleton.1 hlast]
      simp only [settle, taken, List.getElem?_set_self hknown, List.getLast?_concat]
      simpa using houtcome

theorem Told.write (h : Told s) (hsucceeded : Succeeded s) (hflow : Flow limits s)
    (hopen : s.aborted = false) (hqueue : s.queue = frame :: queue) (write : SseWrite) :
    Told ((s.taken queue).write frame write) := by
  cases write with
  | written => exact h.handed hsucceeded hflow hopen hqueue (.inl rfl)
  | enqueueThrows => exact (h.taken_failed hflow hopen hqueue).close
  | activityThrows => exact (h.handed hsucceeded hflow hopen hqueue (.inr rfl)).close

theorem Succeeded.write (h : Succeeded s) (hflow : Flow limits s) (hopen : s.aborted = false)
    (hqueue : s.queue = frame :: queue) (write : SseWrite) :
    Succeeded ((s.taken queue).write frame write) := by
  cases write with
  | written =>
      intro _ other hother
      have hknown := (hflow.between hopen hqueue).2.2
      rcases List.mem_append.1 hother with hearlier | hlast
      · simp only [SseHubTransport.write, settle, taken]
        rw [Told.outcome_earlier hflow hopen hqueue .resolved hearlier]
        exact h hopen other hearlier
      · rw [List.mem_singleton.1 hlast]
        exact List.getElem?_set_self hknown
  | enqueueThrows => exact Succeeded.close _
  | activityThrows => exact Succeeded.close _

end Write

/-! ### Pulling -/

/-- A pull or a turn of one goes to rest, falls asleep over an empty queue, or writes. -/
theorem pulled_cases {write : SseWrite} (hstep : s.pull write = some t ∨ s.turn write = some t) :
    (t = { s with pulling := .idle } ∧ (s.aborted = true ∨ s.queue = [])) ∨
    (s.aborted = false ∧ s.queue = [] ∧ t = { s with pulling := .sleeping }) ∨
    (s.aborted = false ∧ ∃ frame queue, s.queue = frame :: queue ∧
      t = (s.taken queue).write frame write) := by
  obtain ⟨aborted, queue, pulling, outcomes, accepted, enqueued⟩ := s
  cases aborted <;> cases queue <;> cases pulling <;>
    simp_all [pull, turn, taken]

theorem Flow.rest (h : Flow limits s) : Flow limits { s with pulling := .idle } :=
  { h with
    asleep := fun hasleep => by cases hasleep
    woken := fun hwoken => by cases hwoken }

theorem Flow.sleep (h : Flow limits s) (hopen : s.aborted = false) (hqueue : s.queue = []) :
    Flow limits { s with pulling := .sleeping } :=
  { h with
    asleep := fun _ => ⟨hopen, hqueue⟩
    woken := fun hwoken => by cases hwoken }

/-! ### Every run -/

/-- What is kept of a transport. -/
structure Sound (limits : TransportLimits) (s : SseHubTransport) : Prop extends
  Flow limits s, Told s where
  succeeded : Succeeded s

theorem Sound.close (h : Sound limits s) : Sound limits s.close :=
  ⟨h.toFlow.close, h.toTold.close, Succeeded.close s⟩

theorem Sound.refuse (h : Sound limits s) (reason : SendRefusal) : Sound limits (s.refuse reason) :=
  ⟨h.toFlow.refuse reason, h.toTold.refuse reason, h.succeeded.refuse reason⟩

theorem Sound.send (h : Sound limits s) (serialized : Option String) :
    Sound limits (s.send limits serialized) := by
  rcases send_cases limits s serialized with ⟨-, heq⟩ | ⟨-, reason, heq⟩ |
    ⟨hopen, hwindow, data, -, hsize, heq⟩
  · rw [heq]
    exact h.refuse .closed
  · rw [heq]
    exact h.close.refuse reason
  · rw [heq]
    exact ⟨h.toFlow.push hopen hwindow hsize, h.toTold.push data, h.succeeded.push data⟩

theorem Sound.pulled (h : Sound limits s) {write : SseWrite}
    (hstep : s.pull write = some t ∨ s.turn write = some t) : Sound limits t := by
  rcases pulled_cases hstep with
    ⟨rfl, -⟩ | ⟨hopen, hqueue, rfl⟩ | ⟨hopen, frame, queue, hqueue, rfl⟩
  · exact ⟨h.toFlow.rest, { h.toTold with }, h.succeeded⟩
  · exact ⟨h.toFlow.sleep hopen hqueue, { h.toTold with }, h.succeeded⟩
  · exact ⟨h.toFlow.write hopen hqueue write,
      h.toTold.write h.succeeded h.toFlow hopen hqueue write,
      h.succeeded.write h.toFlow hopen hqueue write⟩

theorem Sound.step (h : Sound limits s) {event : SseHubEvent}
    (hstep : s.step limits event = some t) : Sound limits t := by
  cases event with
  | send serialized =>
      cases hstep
      exact h.send serialized
  | pull write => exact h.pulled (.inl hstep)
  | turn write => exact h.pulled (.inr hstep)
  | cancel =>
      cases hstep
      exact h.close
  | close =>
      cases hstep
      exact h.close

theorem Sound.initial : Sound limits (sseHubTransport limits).init where
  ordered := List.prefix_rfl
  numbered := List.Pairwise.nil
  known _ hframe := by cases hframe
  window := Nat.zero_le _
  sizes _ hframe := by cases hframe
  lossless _ := rfl
  emptied _ := rfl
  asleep hasleep := by cases hasleep
  woken hwoken := by cases hwoken
  pending i := by simp [sseHubTransport]
  resolved i hi := by simp [sseHubTransport] at hi
  written _ hframe := by cases hframe
  succeeded _ _ hframe := by cases hframe

theorem Sound.run {events : List SseHubEvent} (h : Sound limits s)
    (hrun : (sseHubTransport limits).exec s events = some t) : Sound limits t :=
  (sseHubTransport limits).exec_preserves (C := fun _ _ => True)
    (fun _ _ _ hsound _ hstep => hsound.step hstep) h
    ((sseHubTransport limits).within_true s events) hrun

/-- The promises of a transport in each state of a run. -/
structure SseHubLaw (limits : TransportLimits) (s : SseHubTransport) : Prop where
  lossless : s.aborted = false → s.enqueued ++ s.queue = s.accepted
  ordered : s.body <+: s.accepted.map fun frame => dataFrame frame.data
  once : s.accepted.Pairwise fun first second => first.send < second.send
  window : s.queue.length ≤ limits.outboundFrames
  sizes : ∀ frame ∈ s.accepted, frame.data.utf8ByteSize ≤ limits.outboundFrameBytes
  pending : ∀ i, s.outcomes[i]? = some .pending ↔ ∃ frame ∈ s.queue, frame.send = i
  closed : s.aborted = true → .pending ∉ s.outcomes
  resolved : ∀ i, s.outcomes[i]? = some .resolved → ∃ frame ∈ s.enqueued, frame.send = i
  written : ∀ frame ∈ s.enqueued, s.outcomes[frame.send]? = some .resolved ∨
    s.aborted = true ∧ s.enqueued.getLast? = some frame ∧
      s.outcomes[frame.send]? = some (.rejected .writeFailed)
  asleep : s.pulling = .sleeping → s.aborted = false ∧ s.queue = []
  woken : s.pulling = .woken → s.aborted = false → s.queue ≠ []

theorem Sound.law (h : Sound limits s) : SseHubLaw limits s where
  lossless := h.lossless
  ordered := h.ordered.map _
  once := h.numbered
  window := h.window
  sizes := h.sizes
  pending := h.pending
  closed haborted hpending := by
    obtain ⟨i, hi⟩ := List.mem_iff_getElem?.1 hpending
    obtain ⟨frame, hframe, -⟩ := (h.pending i).1 hi
    rw [h.emptied haborted] at hframe
    cases hframe
  resolved := h.resolved
  written frame hframe := by
    rcases h.written frame hframe with hresolved | ⟨hlast, hfailed⟩
    · exact .inl hresolved
    · cases hopen : s.aborted with
      | true => exact .inr ⟨rfl, hlast, hfailed⟩
      | false => exact .inl (h.succeeded hopen frame hframe)
  asleep := h.asleep
  woken := h.woken

/-- In every state of every run, frames go out in the order of their sends, none twice and none
lost while the transport is open, within the window and the size; the sends that are pending are
those queued; a send resolves only when its frame went out; and no pull sleeps over a frame. -/
theorem frames_delivered (limits : TransportLimits) (s : SseHubTransport)
    (hs : (sseHubTransport limits).Reachable s) : SseHubLaw limits s := by
  obtain ⟨events, hrun⟩ := hs
  exact (Sound.initial.run hrun).law

theorem frames_delivered_after_close :
    ∃ s, (sseHubTransport ⟨0, 2, 0, 8⟩).exec {} [.pull .written, .send (some "a"),
        .turn .written, .send (some "b"), .close, .send (some "c")] = some s ∧
      SseHubLaw ⟨0, 2, 0, 8⟩ s :=
  ⟨_, rfl, frames_delivered _ _ ⟨[.pull .written, .send (some "a"), .turn .written,
    .send (some "b"), .close, .send (some "c")], rfl⟩⟩

/-! ### What stays -/

/-- What a later state has kept of an earlier one. -/
structure Later (s t : SseHubTransport) : Prop where
  settled : ∀ (i : ℕ) (outcome : SendOutcome), outcome ≠ .pending → s.outcomes[i]? = some outcome →
    t.outcomes[i]? = some outcome
  enqueued : s.enqueued <+: t.enqueued
  accepted : s.accepted <+: t.accepted
  silent : s.aborted = true →
    t.aborted = true ∧ t.enqueued = s.enqueued ∧ t.accepted = s.accepted

theorem Later.refl (s : SseHubTransport) : Later s s :=
  ⟨fun _ _ _ h => h, List.prefix_rfl, List.prefix_rfl, fun haborted => ⟨haborted, rfl, rfl⟩⟩

theorem Later.trans {u : SseHubTransport} (hst : Later s t) (htu : Later t u) : Later s u where
  settled i outcome hne hi := htu.settled i outcome hne (hst.settled i outcome hne hi)
  enqueued := hst.enqueued.trans htu.enqueued
  accepted := hst.accepted.trans htu.accepted
  silent haborted := by
    obtain ⟨hclosed, hframes, haccepted⟩ := hst.silent haborted
    obtain ⟨hlast, hsame, hkept⟩ := htu.silent hclosed
    exact ⟨hlast, hsame.trans hframes, hkept.trans haccepted⟩

theorem later_close (h : Told s) : Later s s.close := by
  cases haborted : s.aborted with
  | true =>
      rw [close_of_aborted haborted]
      exact Later.refl s
  | false =>
      rw [close_of_open haborted]
      refine ⟨fun i outcome hne hi => ?_, List.prefix_rfl, List.prefix_rfl, fun hfalse => ?_⟩
      · have hsettled : ¬ ∃ frame ∈ s.queue, frame.send = i := by
          rw [← h.pending, hi]
          simpa using hne
        exact (rejectAll_of_ne (fun frame hframe hsend =>
          hsettled ⟨frame, hframe, hsend⟩) _).trans hi
      · rw [haborted] at hfalse
        cases hfalse

theorem later_refuse (s : SseHubTransport) (reason : SendRefusal) : Later s (s.refuse reason) :=
  ⟨fun i outcome _ hi => by
      rw [refuse, List.getElem?_append_left (List.getElem?_eq_some_iff.1 hi).1]
      exact hi,
    List.prefix_rfl, List.prefix_rfl, fun haborted => ⟨haborted, rfl, rfl⟩⟩

theorem later_push (hopen : s.aborted = false) (data : String) : Later s (s.push data) where
  settled i outcome _ hi := by
    rw [push, List.getElem?_append_left (List.getElem?_eq_some_iff.1 hi).1]
    exact hi
  enqueued := List.prefix_rfl
  accepted := List.prefix_append _ _
  silent haborted := by
    rw [hopen] at haborted
    cases haborted

theorem later_send (h : Sound limits s) (serialized : Option String) :
    Later s (s.send limits serialized) := by
  rcases send_cases limits s serialized with ⟨-, heq⟩ | ⟨-, reason, heq⟩ |
    ⟨hopen, -, data, -, -, heq⟩
  · rw [heq]
    exact later_refuse s .closed
  · rw [heq]
    exact (later_close h.toTold).trans (later_refuse _ reason)
  · rw [heq]
    exact later_push hopen data

/-- The write settles the send of its frame, which was pending. -/
theorem later_settle (h : Told s) (hopen : s.aborted = false) {frame : QueuedFrame}
    {queue : List QueuedFrame} (hqueue : s.queue = frame :: queue) {u : SseHubTransport}
    {outcome : SendOutcome} (houtcomes : u.outcomes = s.outcomes.set frame.send outcome)
    (henqueued : s.enqueued <+: u.enqueued) (haccepted : u.accepted = s.accepted) : Later s u where
  settled i reached hne hi := by
    have hpending := (h.pending frame.send).2 ⟨frame, by simp [hqueue], rfl⟩
    have hother : frame.send ≠ i := by
      rintro rfl
      exact hne (Option.some.inj (hi.symm.trans hpending))
    rw [houtcomes, List.getElem?_set_ne hother]
    exact hi
  enqueued := henqueued
  accepted := haccepted ▸ List.prefix_rfl
  silent haborted := by
    rw [hopen] at haborted
    cases haborted

theorem later_write (h : Sound limits s) (hopen : s.aborted = false) {frame : QueuedFrame}
    {queue : List QueuedFrame} (hqueue : s.queue = frame :: queue) (write : SseWrite) :
    Later s ((s.taken queue).write frame write) := by
  cases write with
  | written =>
      have hhanded : s.enqueued <+: s.enqueued ++ [frame] := List.prefix_append _ _
      exact later_settle h.toTold hopen hqueue rfl hhanded rfl
  | enqueueThrows =>
      have hsettled : Later s ((s.taken queue).settle frame.send (.rejected .writeFailed)) :=
        later_settle h.toTold hopen hqueue rfl List.prefix_rfl rfl
      exact hsettled.trans (later_close (h.toTold.taken_failed h.toFlow hopen hqueue))
  | activityThrows =>
      have hsettled : Later s ({ s.taken queue with
          enqueued := s.enqueued ++ [frame] }.settle frame.send (.rejected .writeFailed)) :=
        later_settle h.toTold hopen hqueue rfl (List.prefix_append _ _) rfl
      exact hsettled.trans
        (later_close (h.toTold.handed h.succeeded h.toFlow hopen hqueue (.inr rfl)))

theorem later_pulled (h : Sound limits s) {write : SseWrite}
    (hstep : s.pull write = some t ∨ s.turn write = some t) : Later s t := by
  rcases pulled_cases hstep with ⟨rfl, -⟩ | ⟨-, -, rfl⟩ | ⟨hopen, frame, queue, hqueue, rfl⟩
  · exact { Later.refl s with }
  · exact { Later.refl s with }
  · exact later_write h hopen hqueue write

theorem later_step (h : Sound limits s) {event : SseHubEvent}
    (hstep : s.step limits event = some t) : Later s t := by
  cases event with
  | send serialized =>
      cases hstep
      exact later_send h serialized
  | pull write => exact later_pulled h (.inl hstep)
  | turn write => exact later_pulled h (.inr hstep)
  | cancel =>
      cases hstep
      exact later_close h.toTold
  | close =>
      cases hstep
      exact later_close h.toTold

theorem later_run (h : Sound limits s) {events : List SseHubEvent}
    (hrun : (sseHubTransport limits).exec s events = some t) : Later s t := by
  induction events generalizing s with
  | nil =>
      cases hrun
      exact Later.refl _
  | cons event events ih =>
      obtain ⟨u, hstep, hrest⟩ := ((sseHubTransport limits).exec_cons_eq_some_iff).1 hrun
      exact (later_step h hstep).trans (ih (h.step hstep) hrest)

/-! ### What the stream still writes -/

/-- A pull of the stream, or the turn of one, whose write succeeds. -/
def isWrite : SseHubEvent → Bool
  | .pull .written | .turn .written => true
  | _ => false

/-- A queued frame is written by the next pull: none sleeps over it. -/
theorem exists_write (h : Sound limits s) (hopen : s.aborted = false) {frame : QueuedFrame}
    {queue : List QueuedFrame} (hqueue : s.queue = frame :: queue) :
    ∃ event, isWrite event = true ∧
      s.step limits event = some ((s.taken queue).write frame .written) := by
  cases hpulling : s.pulling with
  | idle => exact ⟨.pull .written, rfl, by simp [step, pull, taken, hpulling, hopen, hqueue]⟩
  | woken => exact ⟨.turn .written, rfl, by simp [step, turn, taken, hpulling, hopen, hqueue]⟩
  | sleeping =>
      have hempty := (h.asleep hpulling).2
      rw [hqueue] at hempty
      cases hempty

theorem exists_drain (h : Sound limits s) (hopen : s.aborted = false) :
    ∃ events t, events.length = s.queue.length ∧ (∀ event ∈ events, isWrite event = true) ∧
      (sseHubTransport limits).exec s events = some t ∧ t.aborted = false ∧ t.queue = [] ∧
        t.accepted = s.accepted := by
  induction hqueue : s.queue generalizing s with
  | nil => exact ⟨[], s, rfl, by simp, rfl, hopen, hqueue, rfl⟩
  | cons frame queue ih =>
      obtain ⟨event, hwrite, hstep⟩ := exists_write h hopen hqueue
      obtain ⟨events, t, hlength, hwrites, hrun, hlast⟩ := ih (h.step hstep) hopen rfl
      refine ⟨event :: events, t, by simp [hlength], ?_, ?_, hlast⟩
      · intro next hnext
        rcases List.mem_cons.1 hnext with rfl | hrest
        · exact hwrite
        · exact hwrites next hrest
      · exact ((sseHubTransport limits).exec_cons_eq_some_iff).2 ⟨_, hstep, hrun⟩

/-- From every state of every run: what a send was told and what went out stays, nothing goes out
after the close, and while the transport is open as many pulls as there are queued frames write
all that was accepted and leave no send pending. -/
theorem settled_for_good (limits : TransportLimits) (s : SseHubTransport)
    (hs : (sseHubTransport limits).Reachable s) :
    (∀ events t, (sseHubTransport limits).exec s events = some t → Later s t) ∧
    (s.aborted = false → ∃ events t, events.length = s.queue.length ∧
      (∀ event ∈ events, isWrite event = true) ∧
      (sseHubTransport limits).exec s events = some t ∧ t.enqueued = s.accepted ∧
        .pending ∉ t.outcomes) := by
  obtain ⟨before, hbefore⟩ := hs
  have hsound : Sound limits s := Sound.initial.run hbefore
  refine ⟨fun events t hrun => later_run hsound hrun, fun hopen => ?_⟩
  obtain ⟨events, t, hlength, hwrites, hrun, htopen, hqueue, haccepted⟩ :=
    exists_drain hsound hopen
  have hlast := hsound.run hrun
  refine ⟨events, t, hlength, hwrites, hrun, ?_, fun hpending => ?_⟩
  · rw [← haccepted, ← hlast.lossless htopen, hqueue, List.append_nil]
  · obtain ⟨i, hi⟩ := List.mem_iff_getElem?.1 hpending
    obtain ⟨frame, hframe, -⟩ := (hlast.pending i).1 hi
    rw [hqueue] at hframe
    cases hframe

theorem settled_for_good_queued :
    ∃ s, (sseHubTransport ⟨0, 2, 0, 8⟩).exec {} [.send (some "a"), .send (some "b")] = some s ∧
      ((∀ events t, (sseHubTransport ⟨0, 2, 0, 8⟩).exec s events = some t → Later s t) ∧
      (s.aborted = false → ∃ events t, events.length = s.queue.length ∧
        (∀ event ∈ events, isWrite event = true) ∧
        (sseHubTransport ⟨0, 2, 0, 8⟩).exec s events = some t ∧ t.enqueued = s.accepted ∧
          .pending ∉ t.outcomes)) :=
  ⟨_, rfl, settled_for_good _ _ ⟨[.send (some "a"), .send (some "b")], rfl⟩⟩

end Arc.Observable.SseHubTransport
