import Mathlib.Data.List.Chain
import Arc.Foundation.Machine

/-!
# The filtered health source

A subscription to the health of the hub sends a snapshot when it is told of a change, drops
the ones that look like the last one sent, and keeps 50 milliseconds between two; a change
that comes too early is left to a timer, which takes a new snapshot when it fires. Unsubscribing
clears the timer. The end of the changes does not: a timer that is pending then still fires.

`step` performs one event; the clock is moved by the events. A snapshot is read at each event
that takes one, so nothing is assumed about when the health changes; `serialize` is the text
two snapshots are compared by.
-/

namespace Arc.Observable

/-- A snapshot that was sent: when, and whether the subscription had ended by then. -/
structure HealthEmission (α : Type) where
  value : α
  sentAt : ℕ
  ended : Bool
  deriving DecidableEq, Repr

/-- A subscription to a filtered health source. The emissions are listed latest first;
`notified` is the snapshot taken at the last notification. -/
structure HealthSubscription (α : Type) where
  clock : ℕ := 0
  closed : Bool := false
  completed : Bool := false
  sourceClosed : Bool := false
  lastSerialized : Option String := none
  lastSentAt : ℕ := 0
  timer : Bool := false
  emissions : List (HealthEmission α) := []
  notified : Option α := none
  deriving DecidableEq, Repr

/-- What can happen. `elapsed` passes before the event, and `took` between the two times it
reads the clock; a notification and a timer take a snapshot. -/
inductive HealthEvent (α : Type)
  | notify (elapsed took : ℕ) (snapshot : α)
  | fire (elapsed took : ℕ) (snapshot : α)
  | complete
  | error
  | unsubscribe

namespace HealthSubscription

variable {α : Type} (serialize : α → String)

/-- Send the snapshot, leave it to the timer, or drop it. -/
def send (s : HealthSubscription α) (took : ℕ) (value : α) : HealthSubscription α :=
  if s.closed then s
  else if s.lastSerialized = some (serialize value) then s
  else if s.lastSerialized.isSome ∧ s.clock < s.lastSentAt + 50 then { s with timer := true }
  else { s with
    clock := s.clock + took
    lastSerialized := some (serialize value)
    lastSentAt := s.clock + took
    emissions := ⟨value, s.clock + took, s.completed⟩ :: s.emissions }

/-- One event. The source notifies nobody once it has ended or the subscription is closed,
and only a pending timer fires. -/
def step (s : HealthSubscription α) : HealthEvent α → Option (HealthSubscription α)
  | .notify elapsed took snapshot =>
      if s.closed ∨ s.sourceClosed then none
      else some (send serialize
        { s with clock := s.clock + elapsed, notified := some snapshot } took snapshot)
  | .fire elapsed took snapshot =>
      if s.timer then
        some (send serialize { s with clock := s.clock + elapsed, timer := false } took snapshot)
      else none
  | .complete =>
      if s.closed ∨ s.sourceClosed then none
      else some { s with completed := true, sourceClosed := true }
  | .error =>
      if s.closed ∨ s.sourceClosed then none
      else some { s with sourceClosed := true }
  | .unsubscribe =>
      if s.closed then none
      else some { s with closed := true, timer := false }

/-- Subscribing replays the current value of the changes at once. -/
def machine (took : ℕ) (snapshot : α) (startedAt : ℕ) :
    Machine (HealthSubscription α) (HealthEvent α) where
  init := send serialize { clock := startedAt, notified := some snapshot } took snapshot
  step := step serialize

/-- The subscription still gets what is sent. -/
def Live (s : HealthSubscription α) : Prop := s.closed = false ∧ s.completed = false

/-- A later emission against the one before it. -/
def Follows (later earlier : HealthEmission α) : Prop :=
  earlier.sentAt + 50 ≤ later.sentAt ∧ serialize later.value ≠ serialize earlier.value

/-- Rate-limited and distinct, up to date whenever no timer is pending, and final. -/
structure Faithful (s : HealthSubscription α) : Prop where
  spaced : s.emissions.IsChain (Follows serialize)
  upToDate : s.timer = false → s.Live → ∀ snapshot, s.notified = some snapshot →
    ∃ emission, s.emissions.head? = some emission ∧
      serialize emission.value = serialize snapshot
  final : ∀ emission ∈ s.emissions, emission.ended = false

/-- The changes end with no timer pending, and a timer finds the health as it was at the last
notification. -/
def Orderly (s : HealthSubscription α) : HealthEvent α → Prop
  | .complete => s.timer = false
  | .fire _ _ snapshot => s.notified.map serialize = some (serialize snapshot)
  | _ => True

instance (s : HealthSubscription α) : ∀ event, Decidable (s.Orderly serialize event)
  | .notify _ _ _ => inferInstanceAs (Decidable True)
  | .fire _ _ _ => inferInstanceAs (Decidable (_ = _))
  | .complete => inferInstanceAs (Decidable (_ = _))
  | .error => inferInstanceAs (Decidable True)
  | .unsubscribe => inferInstanceAs (Decidable True)

/-! ### The invariant -/

/-- What the fields of a subscription say about its emissions. -/
structure Consistent (s : HealthSubscription α) : Prop where
  spaced : s.emissions.IsChain (Follows serialize)
  serialized : s.lastSerialized = s.emissions.head?.map fun emission => serialize emission.value
  sentAt : ∀ emission, s.emissions.head? = some emission → emission.sentAt = s.lastSentAt
  final : ∀ emission ∈ s.emissions, emission.ended = false
  cleared : s.closed = true ∨ s.completed = true → s.timer = false
  ended : s.completed = true → s.sourceClosed = true

/-- The last snapshot that was taken is the one that was sent, unless a timer is pending. -/
def Caught (s : HealthSubscription α) : Prop :=
  s.timer = false → s.closed = false →
    s.lastSerialized = s.notified.map serialize

variable {serialize}

/-- What `send` keeps, and that it leaves the snapshot sent or a timer pending. -/
theorem send_spec {s : HealthSubscription α} (hs : s.Consistent serialize)
    (hcompleted : s.completed = false) (took : ℕ) (value : α) :
    (s.send serialize took value).Consistent serialize ∧
      ((s.send serialize took value).timer = false → s.closed = false →
        (s.send serialize took value).lastSerialized = some (serialize value)) ∧
      (s.send serialize took value).notified = s.notified ∧
      (s.send serialize took value).closed = s.closed := by
  unfold send
  split_ifs with hclosed hsame hearly
  · exact ⟨hs, fun _ hopen => absurd hclosed (by rw [hopen]; exact Bool.false_ne_true), rfl, rfl⟩
  · exact ⟨hs, fun _ _ => hsame, rfl, rfl⟩
  · refine ⟨⟨hs.spaced, hs.serialized, hs.sentAt, hs.final, ?_, hs.ended⟩, ?_, rfl, rfl⟩
    · rintro (h | h)
      · exact absurd h hclosed
      · rw [hcompleted] at h
        exact absurd h Bool.false_ne_true
    · exact fun htimer => absurd htimer (by simp)
  · refine ⟨⟨?_, rfl, ?_, ?_, hs.cleared, hs.ended⟩, fun _ _ => rfl, rfl, rfl⟩
    · refine List.isChain_cons.2 ⟨?_, hs.spaced⟩
      intro emission hemission
      have hlast : s.lastSerialized = some (serialize emission.value) := by
        rw [hs.serialized, Option.mem_def.1 hemission]
        rfl
      have hsent := hs.sentAt emission (Option.mem_def.1 hemission)
      have hlate : ¬ s.clock < s.lastSentAt + 50 := fun h => hearly ⟨by rw [hlast]; rfl, h⟩
      refine ⟨by simp only; omega, fun heq => hsame ?_⟩
      rw [hlast, ← heq]
    · intro emission hemission
      cases hemission
      rfl
    · intro emission hemission
      rcases List.mem_cons.1 hemission with rfl | hmem
      · exact hcompleted
      · exact hs.final emission hmem

/-- Moving the clock, noting a snapshot and clearing the timer change nothing that was sent. -/
theorem Consistent.with {s : HealthSubscription α} (hs : s.Consistent serialize) (clock : ℕ)
    (notified : Option α) {timer : Bool} (htimer : timer = true → s.timer = true) :
    Consistent serialize { s with clock := clock, notified := notified, timer := timer } where
  spaced := hs.spaced
  serialized := hs.serialized
  sentAt := hs.sentAt
  final := hs.final
  ended := hs.ended
  cleared := by
    intro hended
    have hnot := hs.cleared hended
    cases timer with
    | false => rfl
    | true =>
        rw [htimer rfl] at hnot
        exact absurd hnot (by decide)

variable (serialize) in
/-- What holds in every state of an orderly run. -/
structure Steady (s : HealthSubscription α) : Prop where
  consistent : s.Consistent serialize
  caught : s.Caught serialize

theorem Steady.faithful {s : HealthSubscription α} (hs : s.Steady serialize) :
    s.Faithful serialize where
  spaced := hs.consistent.spaced
  final := hs.consistent.final
  upToDate := by
    intro htimer hlive snapshot hnotified
    have hlast := hs.caught htimer hlive.1
    rw [hs.consistent.serialized, hnotified] at hlast
    exact Option.map_eq_some_iff.1 hlast

/-- Sending a snapshot from a steady state that is not ended. -/
theorem steady_send {s : HealthSubscription α} (hs : s.Consistent serialize)
    (hcompleted : s.completed = false) (took : ℕ) {value : α}
    (hnotified : s.notified.map serialize = some (serialize value)) :
    (s.send serialize took value).Steady serialize := by
  obtain ⟨hconsistent, hsent, hsame, hclosed⟩ := send_spec hs hcompleted took value
  refine ⟨hconsistent, fun htimer hopen => ?_⟩
  rw [hsame, hnotified]
  exact hsent htimer (hclosed ▸ hopen)

theorem steady_machine (took : ℕ) (snapshot : α) (startedAt : ℕ) :
    (machine serialize took snapshot startedAt).init.Steady serialize := by
  refine steady_send (s := { clock := startedAt, notified := some snapshot }) ?_ rfl took rfl
  refine ⟨List.IsChain.nil, rfl, ?_, ?_, fun _ => rfl, fun h => absurd h Bool.false_ne_true⟩
  · intro emission hemission
    cases hemission
  · exact fun _ hmem => absurd hmem List.not_mem_nil

/-- One orderly step: a notification or a timer sends, an end clears what it has to. -/
theorem steady_step {s t : HealthSubscription α} {event : HealthEvent α}
    (hs : s.Steady serialize) (horderly : s.Orderly serialize event)
    (h : s.step serialize event = some t) : t.Steady serialize := by
  have hcompleted : s.timer = true → s.completed = false := by
    intro htimer
    rw [Bool.eq_false_iff]
    intro hended
    rw [hs.consistent.cleared (Or.inr hended)] at htimer
    exact absurd htimer Bool.false_ne_true
  cases event with
  | notify elapsed took snapshot =>
      simp only [step] at h
      split_ifs at h with hended
      cases h
      rw [not_or] at hended
      have hopen : s.completed = false := by
        rw [Bool.eq_false_iff]
        exact fun hcompleted => hended.2 (hs.consistent.ended hcompleted)
      exact steady_send
        (s := { s with clock := s.clock + elapsed, notified := some snapshot })
        (hs.consistent.with _ _ id) hopen took rfl
  | fire elapsed took snapshot =>
      simp only [step] at h
      split_ifs at h with htimer
      cases h
      exact steady_send (s := { s with clock := s.clock + elapsed, timer := false })
        (hs.consistent.with _ _ fun htimer => absurd htimer Bool.false_ne_true)
        (hcompleted htimer) took horderly
  | complete =>
      simp only [step] at h
      split_ifs at h with hended
      cases h
      exact ⟨⟨hs.consistent.spaced, hs.consistent.serialized, hs.consistent.sentAt,
        hs.consistent.final, fun _ => horderly, fun _ => rfl⟩, hs.caught⟩
  | error =>
      simp only [step] at h
      split_ifs at h with hended
      cases h
      exact ⟨⟨hs.consistent.spaced, hs.consistent.serialized, hs.consistent.sentAt,
        hs.consistent.final, hs.consistent.cleared, fun _ => rfl⟩, hs.caught⟩
  | unsubscribe =>
      simp only [step] at h
      split_ifs at h with hended
      cases h
      exact ⟨⟨hs.consistent.spaced, hs.consistent.serialized, hs.consistent.sentAt,
        hs.consistent.final, fun _ => rfl, hs.consistent.ended⟩,
        fun _ hopen => absurd hopen (by simp)⟩

/-- A run whose steps are orderly is faithful in every state it reaches. -/
theorem faithful_of_orderly (took : ℕ) (snapshot : α) (startedAt : ℕ)
    {events : List (HealthEvent α)} {s : HealthSubscription α}
    (horderly : (machine serialize took snapshot startedAt).Within (Orderly serialize)
      (machine serialize took snapshot startedAt).init events)
    (hrun : (machine serialize took snapshot startedAt).exec
      (machine serialize took snapshot startedAt).init events = some s) :
    s.Faithful serialize :=
  Steady.faithful ((machine serialize took snapshot startedAt).exec_preserves
    (fun _ _ _ hs hC ht => steady_step hs hC ht) (steady_machine took snapshot startedAt)
    horderly hrun)

/-! ### A timer that outlives the changes -/

/-- A change comes too early, the changes end, and the timer fires. -/
def endedBeforeTimer : List (HealthEvent ℕ) :=
  [.notify 10 0 1, .complete, .fire 40 0 1]

/-- The same change, sent by the timer before the changes end. -/
def endedAfterTimer : List (HealthEvent ℕ) :=
  [.notify 10 0 1, .fire 40 0 1, .complete]

/-- The timer sends a snapshot after the end of the changes. -/
theorem not_faithful_endedBeforeTimer : ∃ s,
    (machine (toString : ℕ → String) 0 0 1000).exec
      (machine (toString : ℕ → String) 0 0 1000).init endedBeforeTimer = some s ∧
      ¬ s.Faithful (toString : ℕ → String) := by
  refine ⟨_, rfl, fun h => ?_⟩
  exact absurd (h.final ⟨1, 1050, true⟩ List.mem_cons_self) (by decide)

theorem faithful_endedAfterTimer : ∃ s,
    (machine (toString : ℕ → String) 0 0 1000).exec
      (machine (toString : ℕ → String) 0 0 1000).init endedAfterTimer = some s ∧
      s.Faithful (toString : ℕ → String) := by
  have horderly : (machine (toString : ℕ → String) 0 0 1000).Within (Orderly toString)
      (machine (toString : ℕ → String) 0 0 1000).init endedAfterTimer := by decide
  exact ⟨_, rfl, faithful_of_orderly 0 0 1000 horderly rfl⟩

end HealthSubscription

end Arc.Observable
