import Arc.Observable.ToEmissions

/-!
# Nothing is lost between source and consumer

What the source has pushed is what the consumer has got, the value on its way, the queue and,
after an overflow, what was ignored (`Sound.queue`). A generator that waits has nothing to do
(`Settled.idle`), so no wake-up is lost, and `lossless` reads the promises of the iteration off
these two.
-/

namespace Arc.Observable.Emissions

variable {α ε : Type} {maximumPending : ℕ} {s : Emissions α ε}

/-! ### What every state keeps -/

/-- The value on its way to the consumer. -/
def inFlight (s : Emissions α ε) : List α :=
  match s.phase with
  | .yielding value => [value]
  | _ => []

structure Sound (maximumPending : ℕ) (s : Emissions α ε) : Prop where
  wake : s.wake = true ↔ s.phase = .waiting
  bound : s.pending.length ≤ maximumPending
  queue : ∃ ignored, s.pushed = s.yielded ++ s.inFlight ++ s.pending ++ ignored ∧
    (s.overflowed = false → ignored = [])
  failed : s.failure.isSome = true →
    s.finished = true ∧ (s.overflowed = true ∨ s.source = .failed)
  overflow : s.overflowed = true → s.failure.isSome = true
  sourceEnded : s.source ≠ .active → s.finished = true
  finishedBy : s.finished = true →
    s.overflowed = true ∨ s.source ≠ .active ∨ s.unsubscribed = true
  unsubscribed : s.unsubscribed = true → s.finished = true ∨ s.phase = .ended
  count : s.unsubscribes = if s.unsubscribed then 1 else 0
  fresh : s.phase = .start → s.subscribed = false
  left : s.phase = .ended → s.subscribed = true → s.unsubscribed = true
  drained : s.phase = .ended → s.aborted = false → s.returned = false →
    s.thrown = s.failure ∧ (s.failure = none → s.pending = [])
  asked : s.phase = .returning ∨ .return' ∈ s.requests → s.returned = true

/-- A generator that waits has nothing to do. -/
structure Settled (maximumPending : ℕ) (s : Emissions α ε) : Prop
    extends Sound maximumPending s where
  idle : s.phase = .waiting → s.pending = [] ∧ s.finished = false ∧ s.aborted = false

/-- A generator that is about to run its loop. -/
structure Ready (maximumPending : ℕ) (s : Emissions α ε) : Prop where
  asleep : s.wake = false
  bound : s.pending.length ≤ maximumPending
  queue : ∃ ignored, s.pushed = s.yielded ++ s.pending ++ ignored ∧
    (s.overflowed = false → ignored = [])
  failed : s.failure.isSome = true →
    s.finished = true ∧ (s.overflowed = true ∨ s.source = .failed)
  overflow : s.overflowed = true → s.failure.isSome = true
  sourceEnded : s.source ≠ .active → s.finished = true
  finishedBy : s.finished = true →
    s.overflowed = true ∨ s.source ≠ .active ∨ s.unsubscribed = true
  unsubscribed : s.unsubscribed = true → s.finished = true
  count : s.unsubscribes = if s.unsubscribed then 1 else 0
  asked : .return' ∈ s.requests → s.returned = true

theorem Settled.initial : Settled maximumPending ({} : Emissions α ε) := by
  constructor
  · constructor <;> simp [inFlight]
  · simp

/-! ### Steps of the generator -/

theorem Sound.notify (h : Sound maximumPending s) : Settled maximumPending s.notify := by
  unfold Emissions.notify
  cases hwake : s.wake with
  | false =>
      refine ⟨h, fun hphase => ?_⟩
      rw [h.wake.2 hphase] at hwake
      cases hwake
  | true =>
      have hphase := h.wake.1 hwake
      have hqueue := h.queue
      have hunsubscribed := h.unsubscribed
      have hasked := h.asked
      rw [inFlight, hphase] at hqueue
      constructor
      · exact {
          wake := by simp
          bound := h.bound
          queue := by simpa [inFlight] using hqueue
          failed := h.failed
          overflow := h.overflow
          sourceEnded := h.sourceEnded
          finishedBy := h.finishedBy
          unsubscribed := by simpa [hphase] using hunsubscribed
          count := h.count
          fresh := by simp
          left := by simp
          drained := by simp
          asked := by simpa [hphase] using hasked }
      · simp

theorem unsubscribe_eq (h : s.unsubscribes = if s.unsubscribed then 1 else 0) :
    s.unsubscribe = { s with unsubscribed := true, unsubscribes := 1 } := by
  unfold unsubscribe
  cases hunsubscribed : s.unsubscribed with
  | false => simp [h, hunsubscribed]
  | true =>
      rw [hunsubscribed] at h
      simp only [if_true] at h ⊢
      rw [← hunsubscribed, ← h]

theorem Ready.leave (h : Ready maximumPending s) (thrown : Option (EmissionFailure ε))
    (hdrained : s.aborted = false → s.returned = false →
      thrown = s.failure ∧ (s.failure = none → s.pending = [])) :
    Settled maximumPending (s.leave thrown) := by
  unfold Emissions.leave
  rw [unsubscribe_eq h.count]
  constructor
  · exact {
      wake := by simp [h.asleep]
      bound := h.bound
      queue := by simpa [inFlight] using h.queue
      failed := h.failed
      overflow := h.overflow
      sourceEnded := h.sourceEnded
      finishedBy := fun _ => .inr (.inr rfl)
      unsubscribed := fun _ => .inr rfl
      count := rfl
      fresh := by simp
      left := fun _ _ => rfl
      drained := fun _ => hdrained
      asked := by simp }
  · simp

/-- The loop runs up to a state in which nothing is left to do. -/
theorem Ready.loop (h : Ready maximumPending s) : Settled maximumPending s.loop := by
  unfold Emissions.loop
  cases haborted : s.aborted with
  | true => exact h.leave none (by simp [haborted])
  | false =>
      cases hfailure : s.failure with
      | some failure => exact h.leave (some failure) (by simp [hfailure])
      | none =>
          cases hpending : s.pending with
          | cons value rest =>
              have hbound := h.bound
              rw [hpending, List.length_cons] at hbound
              obtain ⟨ignored, hqueue, hignored⟩ := h.queue
              rw [hpending] at hqueue
              constructor
              · exact {
                  wake := by simp [h.asleep]
                  bound := Nat.le_of_succ_le hbound
                  queue := ⟨ignored, by simpa [inFlight] using hqueue, hignored⟩
                  failed := by simp
                  overflow := by simpa [hfailure] using h.overflow
                  sourceEnded := h.sourceEnded
                  finishedBy := h.finishedBy
                  unsubscribed := fun hgone => .inl (h.unsubscribed hgone)
                  count := h.count
                  fresh := by simp
                  left := by simp
                  drained := by simp
                  asked := by simpa using h.asked }
              · simp
          | nil =>
              cases hfinished : s.finished with
              | true => exact h.leave none (by simp [hfailure, hpending])
              | false =>
                  obtain ⟨ignored, hqueue, hignored⟩ := h.queue
                  rw [hpending] at hqueue
                  constructor
                  · exact {
                      wake := by simp
                      bound := by simp
                      queue := ⟨ignored, by simpa [inFlight] using hqueue, hignored⟩
                      failed := by simp
                      overflow := by simpa [hfailure] using h.overflow
                      sourceEnded := by simpa [hfinished] using h.sourceEnded
                      finishedBy := by simp
                      unsubscribed := by simpa [hfinished] using h.unsubscribed
                      count := h.count
                      fresh := by simp
                      left := by simp
                      drained := by simp
                      asked := by simpa using h.asked }
                  · simp [haborted]

/-- A generator that neither waits nor has ended nor holds a value may run its loop. -/
theorem Settled.ready (h : Settled maximumPending s) (hwaiting : s.phase ≠ .waiting)
    (hended : s.phase ≠ .ended) (hempty : s.inFlight = []) : Ready maximumPending s where
  asleep := by
    cases hwake : s.wake with
    | false => rfl
    | true => exact absurd (h.wake.1 hwake) hwaiting
  bound := h.bound
  queue := by simpa [hempty] using h.queue
  failed := h.failed
  overflow := h.overflow
  sourceEnded := h.sourceEnded
  finishedBy := h.finishedBy
  unsubscribed := fun hgone => (h.unsubscribed hgone).resolve_right hended
  count := h.count
  asked := fun hmem => h.asked (.inr hmem)

theorem Settled.cancel (h : Sound maximumPending s) : Settled maximumPending s.cancel := by
  unfold Emissions.cancel
  have hcount : ({ s with finished := true } : Emissions α ε).unsubscribes =
      if ({ s with finished := true } : Emissions α ε).unsubscribed then 1 else 0 := h.count
  rw [unsubscribe_eq hcount]
  apply Sound.notify
  exact {
    wake := h.wake
    bound := h.bound
    queue := h.queue
    failed := fun hfailed => ⟨rfl, (h.failed hfailed).2⟩
    overflow := h.overflow
    sourceEnded := fun _ => rfl
    finishedBy := fun _ => .inr (.inr rfl)
    unsubscribed := fun _ => .inl rfl
    count := rfl
    fresh := h.fresh
    left := fun _ _ => rfl
    drained := h.drained
    asked := h.asked }

theorem Settled.deliver (h : Settled maximumPending s) {value : α}
    (hphase : s.phase = .yielding value) : Settled maximumPending (s.deliver value) := by
  have hasleep : s.wake = false := by
    cases hwake : s.wake with
    | false => rfl
    | true =>
        rw [h.wake.1 hwake] at hphase
        cases hphase
  have hasked : ∀ request ∈ s.requests.tail, request ∈ s.requests := fun request hmem =>
    List.mem_of_mem_tail hmem
  obtain ⟨ignored, hqueue, hignored⟩ := h.queue
  rw [inFlight, hphase] at hqueue
  have hready : Ready maximumPending
      { s with yielded := s.yielded ++ [value], requests := s.requests.tail } := {
    asleep := hasleep
    bound := h.bound
    queue := ⟨ignored, hqueue, hignored⟩
    failed := h.failed
    overflow := h.overflow
    sourceEnded := h.sourceEnded
    finishedBy := h.finishedBy
    unsubscribed := fun hgone => (h.unsubscribed hgone).resolve_right (by simp [hphase])
    count := h.count
    asked := fun hmem => h.asked (.inr (hasked _ hmem)) }
  unfold Emissions.deliver
  cases hrequests : s.requests.tail with
  | nil =>
      rw [hrequests] at hready
      constructor
      · exact {
          wake := by simp [hasleep]
          bound := hready.bound
          queue := ⟨ignored, by simpa [inFlight] using hqueue, hignored⟩
          failed := hready.failed
          overflow := hready.overflow
          sourceEnded := hready.sourceEnded
          finishedBy := hready.finishedBy
          unsubscribed := fun hgone => .inl (hready.unsubscribed hgone)
          count := hready.count
          fresh := by simp
          left := by simp
          drained := by simp
          asked := by simp }
      · simp
  | cons request rest =>
      rw [hrequests] at hready
      cases request with
      | next => exact hready.loop
      | return' =>
          constructor
          · exact {
              wake := by simp [hasleep]
              bound := hready.bound
              queue := ⟨ignored, by simpa [inFlight] using hqueue, hignored⟩
              failed := hready.failed
              overflow := hready.overflow
              sourceEnded := hready.sourceEnded
              finishedBy := hready.finishedBy
              unsubscribed := fun hgone => .inl (hready.unsubscribed hgone)
              count := hready.count
              fresh := by simp
              left := by simp
              drained := by simp
              asked := fun _ => hready.asked List.mem_cons_self }
          · simp

/-! ### Calls of the source -/

theorem sourceCalls_iff : s.sourceCalls = true ↔
    s.subscribed = true ∧ s.source = .active ∧ s.unsubscribed = false := by
  simp [sourceCalls, and_assoc]

theorem Settled.not_ended (h : Settled maximumPending s) (hcalls : s.sourceCalls = true) :
    s.phase ≠ .ended := by
  intro hphase
  obtain ⟨hsubscribed, -, hunsubscribed⟩ := sourceCalls_iff.1 hcalls
  rw [h.left hphase hsubscribed] at hunsubscribed
  cases hunsubscribed

theorem Settled.next (h : Settled maximumPending s) (hcalls : s.sourceCalls = true) (value : α) :
    Settled maximumPending (s.next maximumPending value) := by
  obtain ⟨hsubscribed, hactive, hunsubscribed⟩ := sourceCalls_iff.1 hcalls
  have hended := h.not_ended hcalls
  obtain ⟨ignored, hqueue, hignored⟩ := h.queue
  unfold Emissions.next
  dsimp only
  by_cases hfinished : s.finished = true
  · -- an active source that has not been unsubscribed has overrun the queue
    rw [if_pos hfinished]
    have hoverflowed : s.overflowed = true := by
      have hby := h.finishedBy hfinished
      simpa [hactive, hunsubscribed] using hby
    refine ⟨?_, h.idle⟩
    exact {
      wake := h.wake
      bound := h.bound
      queue := ⟨ignored ++ [value], by simp [hqueue, inFlight], by simp [hoverflowed]⟩
      failed := h.failed
      overflow := h.overflow
      sourceEnded := h.sourceEnded
      finishedBy := h.finishedBy
      unsubscribed := h.unsubscribed
      count := h.count
      fresh := h.fresh
      left := h.left
      drained := h.drained
      asked := h.asked }
  · rw [if_neg hfinished]
    have hcalm : s.overflowed = false := by
      cases hoverflowed : s.overflowed with
      | false => rfl
      | true => exact absurd (h.failed (h.overflow hoverflowed)).1 hfinished
    have hnone := hignored hcalm
    subst hnone
    by_cases hfull : maximumPending ≤ s.pending.length
    · rw [if_pos hfull]
      apply Sound.notify
      exact {
        wake := h.wake
        bound := h.bound
        queue := ⟨[value], by simp [hqueue, inFlight], by simp⟩
        failed := by simp
        overflow := by simp
        sourceEnded := fun _ => rfl
        finishedBy := by simp
        unsubscribed := fun _ => .inl rfl
        count := h.count
        fresh := h.fresh
        left := h.left
        drained := fun hphase => absurd hphase hended
        asked := h.asked }
    · rw [if_neg hfull]
      apply Sound.notify
      exact {
        wake := h.wake
        bound := by simp; omega
        queue := ⟨[], by simp [hqueue, inFlight], fun _ => rfl⟩
        failed := h.failed
        overflow := h.overflow
        sourceEnded := h.sourceEnded
        finishedBy := h.finishedBy
        unsubscribed := h.unsubscribed
        count := h.count
        fresh := h.fresh
        left := h.left
        drained := fun hphase => absurd hphase hended
        asked := h.asked }

theorem Settled.error (h : Settled maximumPending s) (hcalls : s.sourceCalls = true) (error : ε) :
    Settled maximumPending (s.error error) := by
  apply Sound.notify
  exact {
    wake := h.wake
    bound := h.bound
    queue := h.queue
    failed := by simp
    overflow := by simp
    sourceEnded := fun _ => rfl
    finishedBy := by simp
    unsubscribed := fun _ => .inl rfl
    count := h.count
    fresh := h.fresh
    left := h.left
    drained := fun hphase => absurd hphase (h.not_ended hcalls)
    asked := h.asked }

theorem Settled.complete (h : Settled maximumPending s) (hcalls : s.sourceCalls = true) :
    Settled maximumPending s.complete := by
  have hactive := (sourceCalls_iff.1 hcalls).2.1
  apply Sound.notify
  exact {
    wake := h.wake
    bound := h.bound
    queue := h.queue
    failed := fun hfailed => ⟨rfl, .inl ((h.failed hfailed).2.resolve_right (by simp [hactive]))⟩
    overflow := h.overflow
    sourceEnded := fun _ => rfl
    finishedBy := by simp
    unsubscribed := fun _ => .inl rfl
    count := h.count
    fresh := h.fresh
    left := h.left
    drained := fun hphase => absurd hphase (h.not_ended hcalls)
    asked := h.asked }

/-! ### Calls of the consumer -/

theorem Settled.request (h : Settled maximumPending s) (request : Request) {returned : Bool}
    (hreturned : s.returned = true ∨ request = .return' → returned = true) :
    Settled maximumPending
      { s with requests := s.requests ++ [request], returned := returned } := by
  refine ⟨?_, h.idle⟩
  exact {
    wake := h.wake
    bound := h.bound
    queue := h.queue
    failed := h.failed
    overflow := h.overflow
    sourceEnded := h.sourceEnded
    finishedBy := h.finishedBy
    unsubscribed := h.unsubscribed
    count := h.count
    fresh := h.fresh
    left := h.left
    drained := fun hphase haborted hnot => h.drained hphase haborted (by
      cases hs : s.returned with
      | false => rfl
      | true => simp [hreturned (.inl hs)] at hnot)
    asked := by
      rintro (hphase | hmem)
      · exact hreturned (.inl (h.asked (.inl hphase)))
      · rcases List.mem_append.1 hmem with hmem | hmem
        · exact hreturned (.inl (h.asked (.inr hmem)))
        · exact hreturned (.inr (List.mem_singleton.1 hmem).symm) }

/-- A generator that has not run ends at once. -/
theorem Settled.endAtStart (h : Settled maximumPending s) (hphase : s.phase = .start)
    {returned : Bool} (hreturned : s.aborted = true ∨ returned = true)
    (hkept : s.returned = true → returned = true) :
    Settled maximumPending { s with phase := .ended, returned := returned } := by
  have hready := h.ready (by simp [hphase]) (by simp [hphase]) (by simp [inFlight, hphase])
  constructor
  · exact {
      wake := by simp [hready.asleep]
      bound := h.bound
      queue := by simpa [inFlight, hphase] using h.queue
      failed := h.failed
      overflow := h.overflow
      sourceEnded := h.sourceEnded
      finishedBy := h.finishedBy
      unsubscribed := fun _ => .inr rfl
      count := h.count
      fresh := by simp
      left := fun _ hsubscribed => by
        rw [h.fresh hphase] at hsubscribed
        cases hsubscribed
      drained := fun _ haborted hnot => by
        rcases hreturned with hgone | hgone
        · rw [hgone] at haborted
          cases haborted
        · rw [hgone] at hnot
          cases hnot
      asked := fun hasked => hkept (h.asked (.inr (hasked.resolve_left (by simp)))) }
  · simp

theorem Settled.pull (h : Settled maximumPending s) : Settled maximumPending s.pull := by
  unfold Emissions.pull
  split
  · rename_i hphase
    have hready := h.ready (by simp [hphase]) (by simp [hphase]) (by simp [inFlight, hphase])
    split_ifs with haborted
    · exact h.endAtStart hphase (.inl haborted) id
    · constructor
      · exact {
          wake := by simp [hready.asleep]
          bound := h.bound
          queue := by simpa [inFlight] using hready.queue
          failed := h.failed
          overflow := h.overflow
          sourceEnded := h.sourceEnded
          finishedBy := h.finishedBy
          unsubscribed := fun hgone => .inl (hready.unsubscribed hgone)
          count := h.count
          fresh := by simp
          left := by simp
          drained := by simp
          asked := by simp }
      · simp
  · rename_i hphase
    have hready := h.ready (by simp [hphase]) (by simp [hphase]) (by simp [inFlight, hphase])
    exact Ready.loop { hready with asked := by simp }
  · exact h
  · exact h.request .next (by simp)

theorem Settled.return' (h : Settled maximumPending s) : Settled maximumPending s.return' := by
  unfold Emissions.return'
  dsimp only
  split
  · rename_i hphase
    exact h.endAtStart hphase (.inr rfl) (fun _ => rfl)
  · rename_i hphase
    have hready := h.ready (by simp [hphase]) (by simp [hphase]) (by simp [inFlight, hphase])
    constructor
    · exact {
        wake := by simp [hready.asleep]
        bound := h.bound
        queue := by simpa [inFlight] using hready.queue
        failed := h.failed
        overflow := h.overflow
        sourceEnded := h.sourceEnded
        finishedBy := h.finishedBy
        unsubscribed := fun hgone => .inl (hready.unsubscribed hgone)
        count := h.count
        fresh := by simp
        left := by simp
        drained := by simp
        asked := fun _ => rfl }
    · simp
  · refine ⟨?_, h.idle⟩
    exact { h with
      drained := by simp
      asked := fun _ => rfl }
  · exact h.request .return' (fun _ => rfl)

theorem Settled.abort (h : Settled maximumPending s) : Settled maximumPending s.abort := by
  have hsound : Sound maximumPending { s with aborted := true } := { h with drained := by simp }
  unfold Emissions.abort
  dsimp only
  split_ifs with hlistening
  · exact Settled.cancel hsound
  · refine ⟨hsound, fun hphase => ?_⟩
    have hwaiting : s.phase = .waiting := hphase
    simp [listening, hwaiting] at hlistening

theorem cancel_phase (hphase : s.wake = false) : s.cancel.phase = s.phase ∧ s.cancel.wake = false := by
  unfold Emissions.cancel Emissions.unsubscribe Emissions.notify
  cases s.unsubscribed <;> simp [hphase]

theorem Settled.subscribe (h : Settled maximumPending s) (hphase : s.phase = .subscribing) :
    Settled maximumPending s.subscribe := by
  have hready := h.ready (by simp [hphase]) (by simp [hphase]) (by simp [inFlight, hphase])
  unfold Emissions.subscribe
  cases haborted : s.aborted with
  | false => exact hready.loop
  | true =>
      have hcancel := cancel_phase hready.asleep
      have hphase' : s.cancel.phase = .subscribing := hcancel.1.trans hphase
      exact ((Settled.cancel h.toSound).ready (by simp [hphase']) (by simp [hphase'])
        (by simp [inFlight, hphase'])).loop

/-! ### Every run -/

theorem Settled.step (h : Settled maximumPending s) {event : EmissionEvent α ε}
    {t : Emissions α ε} (hstep : s.step maximumPending event = some t) :
    Settled maximumPending t := by
  cases event with
  | next value =>
      obtain ⟨hcalls, heq⟩ := Option.ite_none_right_eq_some.1 hstep
      cases heq
      exact h.next hcalls value
  | error error =>
      obtain ⟨hcalls, heq⟩ := Option.ite_none_right_eq_some.1 hstep
      cases heq
      exact h.error hcalls error
  | complete =>
      obtain ⟨hcalls, heq⟩ := Option.ite_none_right_eq_some.1 hstep
      cases heq
      exact h.complete hcalls
  | subscribed =>
      obtain ⟨hsubscribing, heq⟩ := Option.ite_none_right_eq_some.1 hstep
      cases heq
      refine h.subscribe ?_
      cases hphase : s.phase <;> simp_all
  | pull =>
      cases hstep
      exact h.pull
  | return' =>
      cases hstep
      exact h.return'
  | abort =>
      obtain ⟨-, heq⟩ := Option.ite_none_left_eq_some.1 hstep
      cases heq
      exact h.abort
  | release =>
      obtain ⟨-, heq⟩ := Option.ite_none_right_eq_some.1 hstep
      cases heq
      exact Settled.cancel h.toSound
  | turn =>
      unfold Emissions.step Emissions.turn at hstep
      cases hphase : s.phase with
      | yielding value =>
          rw [hphase] at hstep
          cases hstep
          exact h.deliver hphase
      | woken =>
          rw [hphase] at hstep
          cases hstep
          exact (h.ready (by simp [hphase]) (by simp [hphase])
            (by simp [inFlight, hphase])).loop
      | returning =>
          rw [hphase] at hstep
          cases hstep
          have hready := h.ready (by simp [hphase]) (by simp [hphase])
            (by simp [inFlight, hphase])
          exact hready.leave none (by simp [h.asked (.inl hphase)])
      | _ => simp [hphase] at hstep

theorem Settled.reachable (h : (toEmissions α ε maximumPending).Reachable s) :
    Settled maximumPending s :=
  Machine.Reachable.invariant _ Settled.initial (fun _ _ _ hs hstep => hs.step hstep) h

/-- The calls that a waiting consumer waits for. -/
def wakes : EmissionEvent α ε → Bool
  | .next _ | .error _ | .complete | .abort => true
  | _ => false

/-- The iteration passes on what the source pushes, in order and within bounds. -/
structure Lossless (maximumPending : ℕ) (s : Emissions α ε) : Prop where
  inOrder : s.yielded <+: s.pushed
  whole : s.phase = .ended → s.source = .completed → s.overflowed = false → s.aborted = false →
    s.returned = false → s.yielded = s.pushed
  bound : s.pending.length ≤ maximumPending
  overflow : ∀ value, s.sourceCalls = true → s.finished = false →
    s.pending.length = maximumPending → (s.next maximumPending value).overflowed = true
  throws : s.overflowed = true → s.aborted = false →
    (s.loop.phase = .ended ∧ s.loop.thrown.isSome = true) ∧
      (s.phase = .ended → s.returned = false → s.thrown.isSome = true)
  idle : s.phase = .waiting → s.pending = [] ∧ s.finished = false ∧ s.aborted = false ∧
    s.source = .active ∧ s.unsubscribed = false
  woken : s.phase = .waiting → ∀ event t, wakes event = true →
    s.step maximumPending event = some t → t.phase = .woken
  unsubscribed : s.unsubscribes ≤ 1 ∧
    (s.phase = .ended → s.subscribed = true → s.unsubscribes = 1)

theorem notify_phase (h : s.wake = true) : s.notify.phase = .woken := by
  simp [notify, h]

theorem cancel_wakes (h : s.wake = true) : s.cancel.phase = .woken := by
  unfold cancel
  apply notify_phase
  unfold unsubscribe
  split_ifs <;> exact h

theorem Settled.woken (h : Settled maximumPending s) (hphase : s.phase = .waiting)
    {event : EmissionEvent α ε} {t : Emissions α ε} (hwakes : wakes event = true)
    (hstep : s.step maximumPending event = some t) : t.phase = .woken := by
  have hwake := h.wake.2 hphase
  have hfinished := (h.idle hphase).2.1
  cases event with
  | next value =>
      obtain ⟨-, heq⟩ := Option.ite_none_right_eq_some.1 hstep
      cases heq
      unfold Emissions.next
      dsimp only
      rw [if_neg (by simp [hfinished])]
      split_ifs <;> exact notify_phase hwake
  | error error =>
      obtain ⟨-, heq⟩ := Option.ite_none_right_eq_some.1 hstep
      cases heq
      exact notify_phase hwake
  | complete =>
      obtain ⟨-, heq⟩ := Option.ite_none_right_eq_some.1 hstep
      cases heq
      exact notify_phase hwake
  | abort =>
      obtain ⟨-, heq⟩ := Option.ite_none_left_eq_some.1 hstep
      cases heq
      have hlistening : s.listening = true := by simp [listening, hphase]
      unfold Emissions.abort
      dsimp only
      rw [if_pos hlistening]
      exact cancel_wakes hwake
  | _ => cases hwakes

theorem Settled.lossless (h : Settled maximumPending s) : Lossless maximumPending s where
  inOrder := by
    obtain ⟨ignored, hqueue, -⟩ := h.queue
    rw [hqueue, List.append_assoc, List.append_assoc]
    exact List.prefix_append _ _
  whole := fun hended hcompleted hoverflowed haborted hreturned => by
    obtain ⟨ignored, hqueue, hignored⟩ := h.queue
    have hfailure : s.failure = none := by
      cases hfailure : s.failure with
      | none => rfl
      | some failure =>
          have hfailed := (h.failed (by simp [hfailure])).2
          simp [hoverflowed, hcompleted] at hfailed
    have hpending := (h.drained hended haborted hreturned).2 hfailure
    simpa [inFlight, hended, hpending, hignored hoverflowed] using hqueue.symm
  bound := h.bound
  overflow := fun value _ hfinished hfull => by
    unfold Emissions.next
    dsimp only
    rw [if_neg (by simp [hfinished]), if_pos (Nat.le_of_eq hfull.symm)]
    unfold Emissions.notify
    split_ifs <;> rfl
  throws := fun hoverflowed haborted => by
    have hfailed := h.overflow hoverflowed
    obtain ⟨failure, hfailure⟩ := Option.isSome_iff_exists.1 hfailed
    refine ⟨?_, fun hended hreturned => ?_⟩
    · unfold Emissions.loop
      rw [haborted, hfailure]
      exact ⟨rfl, rfl⟩
    · rw [(h.drained hended haborted hreturned).1]
      exact hfailed
  idle := fun hphase => by
    obtain ⟨hpending, hfinished, haborted⟩ := h.idle hphase
    have hsource := h.sourceEnded
    have hunsubscribed := h.unsubscribed
    rw [hfinished] at hsource hunsubscribed
    refine ⟨hpending, hfinished, haborted, by simpa using hsource, ?_⟩
    simpa [hphase] using hunsubscribed
  woken := fun hphase _ _ hwakes hstep => h.woken hphase hwakes hstep
  unsubscribed := by
    have hcount := h.count
    refine ⟨?_, fun hended hsubscribed => ?_⟩
    · split_ifs at hcount <;> omega
    · simpa [h.left hended hsubscribed] using hcount

/-- In every state a run reaches, the iteration is lossless and bounded. -/
theorem toEmissions_lossless (h : (toEmissions α ε maximumPending).Reachable s) :
    Lossless maximumPending s :=
  (Settled.reachable h).lossless

/-- One value during `subscribe` and two after it, the last of them too many. -/
theorem toEmissions_lossless_overflow : ∃ s : Emissions ℕ Unit,
    Lossless 1 s ∧ s.yielded = [1] ∧ s.thrown = some .queueFull :=
  ⟨_, toEmissions_lossless
    ⟨[.pull, .next 1, .subscribed, .next 2, .next 3, .turn, .pull], rfl⟩, rfl, rfl⟩

end Arc.Observable.Emissions
