import Arc.Observable.SessionLedger

/-!
# The budgets of a server's sessions

`Advance c c'` lists what one event can make of the record of a call. The budgets
are sums of two counts over the ledger, so a change of one record moves them by
its own weight: every advance keeps the weight or lowers it, except a promotion,
which asks for capacity first, and an accepted opening whose signal has been
aborted, which asks for nothing.
-/

namespace Arc.Observable

namespace OpenCall

/-- A call in flight has no live session, and its slot among the caller's openings is
given back when its signal is aborted. -/
def Orderly (c : OpenCall) : Prop :=
  c.inFlight = true → c.live = false ∧
    (c.admission = .subscription → c.ownerReleased = c.aborted)

end OpenCall

namespace ObservableSessions

/-- The event hands an opened session over to its caller. -/
def accepts (s : ObservableSessions) : SessionEvent → Bool
  | .opened _ rejected => !(s.disposed || s.servicesDisposed) && !rejected
  | _ => false

/-- What one event can make of the record of a call, given whether its caller has room
for one more subscription and whether the event accepts the session. -/
inductive Advance (room accepted : Bool) (c : OpenCall) : OpenCall → Prop
  | abort : Advance room accepted c
      { c with ownerReleased := c.ownerReleased || c.opensSubscription, aborted := true }
  | shutDown (h : c.phase = .opening) : Advance room accepted c
      { c with held := true, released := true, phase := .closingDisposed }
  | reject (h : c.phase = .opening) : Advance room accepted c (settledRecord { c with held := true })
  | accept (haccepted : accepted = true) (h : c.phase = .opening) (hopen : c.released = false) :
      Advance room accepted c (settledRecord { c with held := true, live := true })
  | settle (h : c.inFlight = true) : Advance room accepted c (settledRecord c)
  | promote (hroom : room = true) : Advance room accepted c { c with reserved := true }
  | release : Advance room accepted c { c with released := true }
  | close : Advance room accepted c { c with closed := true }

theorem calls_opened {s : ObservableSessions} {k : ℕ} {c : OpenCall}
    (hk : s.calls[k]? = some c) (rejected : Bool) :
    (s.opened k c rejected).calls = s.calls.set k
      (if s.disposed || s.servicesDisposed then
        { c with held := true, released := true, phase := .closingDisposed }
      else if rejected then settledRecord { c with held := true }
      else settledRecord { c with held := true, live := true }) := by
  have hk' : (s.hold k c).calls[k]? = some { c with held := true } := getElem?_update hk
  have hhold : (s.hold k c).calls = s.calls.set k { c with held := true } := rfl
  simp only [opened]
  split_ifs
  · simp only [update]
    rw [calls_closeSession hk', hhold, List.set_set, List.set_set]
  · rw [calls_finish hk', hhold, List.set_set]
  · rw [calls_finish (getElem?_of_calls hk' (calls_activate _ k _)), calls_activate, hhold,
      List.set_set, List.set_set]

/-- An event of one call advances its record, or changes nothing. -/
theorem advance_of_stepCall {s t : ObservableSessions} {k : ℕ} {c : OpenCall} {e : SessionEvent}
    (hk : s.calls[k]? = some c) (h : s.stepCall k c e = some t) :
    t = s ∨ ∃ c', Advance (s.hasSessionCapacity c.key) (s.accepts e) c c' ∧
      t.calls = s.calls.set k c' := by
  cases e with
  | abort _ =>
      obtain rfl := Option.some.inj h
      exact Or.inr ⟨_, .abort, calls_abort hk⟩
  | opened _ rejected =>
      simp only [stepCall] at h
      split_ifs at h with hguard
      obtain rfl := Option.some.inj h
      simp only [Bool.and_eq_true, decide_eq_true_eq] at hguard
      obtain ⟨⟨-, hphase⟩, hopen⟩ := hguard
      refine Or.inr ⟨_, ?_, calls_opened hk rejected⟩
      split_ifs with hdisposed hrejected
      · exact .shutDown hphase
      · exact .reject hphase
      · exact .accept (by simp_all [accepts]) hphase (by simp_all)
  | failed _ =>
      simp only [stepCall] at h
      split_ifs at h with hphase
      obtain rfl := Option.some.inj h
      exact Or.inr ⟨_, .settle (by simp [OpenCall.inFlight, hphase]), calls_finish hk⟩
  | closedDisposed _ =>
      simp only [stepCall] at h
      split_ifs at h with hphase
      obtain rfl := Option.some.inj h
      exact Or.inr ⟨_, .settle (by simp [OpenCall.inFlight, hphase]), calls_finish hk⟩
  | reserve _ =>
      simp only [stepCall] at h
      split_ifs at h
      obtain rfl := Option.some.inj h
      simp only [reserveSession]
      split_ifs with hcapacity
      · exact Or.inl rfl
      · exact Or.inr ⟨_, .promote (by simpa using hcapacity), rfl⟩
  | release _ =>
      simp only [stepCall] at h
      split_ifs at h
      obtain rfl := Option.some.inj h
      exact Or.inr ⟨_, .release, s.calls_onRelease k c⟩
  | close _ =>
      simp only [stepCall] at h
      split_ifs at h
      obtain rfl := Option.some.inj h
      exact Or.inr ⟨_, .close, s.calls_onClose k c⟩
  | openSession | markDisposed | disposeServices => cases h

/-! ### Advances and weights -/

/-- What a record weighs against a limit: one for each of the two predicates it meets. -/
def weight (p q : OpenCall → Bool) (c : OpenCall) : ℕ :=
  (if p c then 1 else 0) + if q c then 1 else 0

/-- A changed record moves the sum of two counts by its own weight. -/
theorem load_set (p q : OpenCall → Bool) {l : List OpenCall} {k : ℕ} {c : OpenCall}
    (c' : OpenCall) (hk : l[k]? = some c) :
    (l.set k c').countP p + (l.set k c').countP q + weight p q c =
      l.countP p + l.countP q + weight p q c' := by
  have hp := Ledger.countP_set p c' hk
  have hq := Ledger.countP_set q c' hk
  simp only [weight]
  omega

theorem weight_le {p q : OpenCall → Bool} {c c' : OpenCall}
    (hp : p c' = true → p c = true) (hq : q c' = true → q c = true) :
    weight p q c' ≤ weight p q c := by
  simp only [weight]
  split_ifs <;> simp_all

/-- A change that does not add to one count adds at most one. -/
theorem weight_le_succ {p q : OpenCall → Bool} {c c' : OpenCall}
    (hq : q c' = true → q c = true) : weight p q c' ≤ weight p q c + 1 := by
  simp only [weight]
  split_ifs <;> simp_all

/-- The record of a settled call opens nothing, and its session is as it was. -/
@[simp] theorem active_settledRecord (c : OpenCall) :
    (settledRecord c).active = c.active := rfl

@[simp] theorem waiting_settledRecord (c : OpenCall) :
    (settledRecord c).waiting = c.waiting := rfl

@[simp] theorem activeFor_settledRecord (key : String) (c : OpenCall) :
    (settledRecord c).activeFor key = c.activeFor key := rfl

@[simp] theorem opensSubscription_settledRecord (c : OpenCall) :
    (settledRecord c).opensSubscription = false := rfl

@[simp] theorem opensSnapshot_settledRecord (c : OpenCall) :
    (settledRecord c).opensSnapshot = false := rfl

@[simp] theorem opensFor_settledRecord (key : String) (c : OpenCall) :
    (settledRecord c).opensFor key = false := rfl

theorem weight_settledRecord_le (p q : OpenCall → Bool) (c : OpenCall)
    (hp : p (settledRecord c) = p c) (hq : q (settledRecord c) = false) :
    weight p q (settledRecord c) ≤ weight p q c :=
  weight_le (fun h => hp ▸ h) (fun h => absurd (hq.symm.trans h) (by decide))

namespace Advance

variable {room accepted : Bool} {c c' : OpenCall}

theorem orderly (h : Advance room accepted c c') (hc : c.Orderly) : c'.Orderly := by
  cases h with
  | abort =>
      intro hflight
      obtain ⟨hlive, -⟩ := hc hflight
      refine ⟨hlive, fun hadmission => ?_⟩
      have hopens : c.opensSubscription = true := by
        have hadmission' : c.admission = .subscription := hadmission
        have hflight' : c.inFlight = true := hflight
        simp [OpenCall.opensSubscription, hflight', hadmission']
      simp [hopens]
  | shutDown hphase =>
      intro _
      exact hc (by simp [OpenCall.inFlight, hphase])
  | reject | accept | settle =>
      intro hflight
      cases hflight
  | promote | release | close => exact hc

/-- The session of an accepted call was not active before. -/
theorem accept_inactive (hphase : c.phase = .opening) (hc : c.Orderly) (hwf : c.WellFormed) :
    c.inFlight = true ∧ c.live = false ∧ c.reserved = false := by
  have hflight : c.inFlight = true := by simp [OpenCall.inFlight, hphase]
  refine ⟨hflight, (hc hflight).1, ?_⟩
  by_contra hreserved
  have hlive := hwf.reserved (by simpa using hreserved)
  rw [(hc hflight).1] at hlive
  cases hlive

/-- An accepted subscription takes the place of its own opening. -/
theorem accept_active (hphase : c.phase = .opening) (hc : c.Orderly) (hwf : c.WellFormed)
    (hopen : c.released = false) :
    OpenCall.active { c with held := true, live := true } = c.opensSubscription := by
  obtain ⟨hflight, -, hreserved⟩ := accept_inactive hphase hc hwf
  simp [OpenCall.active, OpenCall.opensSubscription, hopen, hreserved, hflight]

/-- Only a promotion adds to the subscriptions. -/
theorem subscription_weight (h : Advance room accepted c c') (hc : c.Orderly) (hwf : c.WellFormed) :
    weight OpenCall.active OpenCall.opensSubscription c' ≤
      weight OpenCall.active OpenCall.opensSubscription c + if room then 1 else 0 := by
  cases h with
  | abort | close => exact Nat.le_add_right _ _
  | shutDown hphase =>
      refine Nat.le_add_right_of_le (weight_le ?_ ?_)
      · simp [OpenCall.active]
      · simp [OpenCall.opensSubscription, OpenCall.inFlight, hphase]
  | reject | settle => exact Nat.le_add_right_of_le (weight_settledRecord_le _ _ _ rfl rfl)
  | accept haccepted hphase hopen =>
      refine Nat.le_add_right_of_le ?_
      simp only [weight, active_settledRecord, opensSubscription_settledRecord,
        accept_active hphase hc hwf hopen, Bool.false_eq_true, if_false, Nat.add_zero]
      exact Nat.le_add_left _ _
  | promote hroom =>
      rw [if_pos hroom]
      exact weight_le_succ (fun h => h)
  | release => exact Nat.le_add_right_of_le (weight_le (by simp [OpenCall.active]) (fun h => h))

/-- No advance adds to the snapshots. -/
theorem snapshot_weight (h : Advance room accepted c c') (hc : c.Orderly) (hwf : c.WellFormed) :
    weight OpenCall.waiting OpenCall.opensSnapshot c' ≤
      weight OpenCall.waiting OpenCall.opensSnapshot c := by
  cases h with
  | abort | close => exact Nat.le_refl _
  | shutDown hphase =>
      refine weight_le ?_ ?_
      · simp [OpenCall.waiting]
      · simp [OpenCall.opensSnapshot, OpenCall.inFlight, hphase]
  | reject | settle => exact weight_settledRecord_le _ _ _ rfl rfl
  | accept haccepted hphase hopen =>
      obtain ⟨hflight, -, hreserved⟩ := accept_inactive hphase hc hwf
      have hwaiting : OpenCall.waiting { c with held := true, live := true } =
          c.opensSnapshot := by
        simp [OpenCall.waiting, OpenCall.opensSnapshot, hopen, hreserved, hflight]
      simp only [weight, waiting_settledRecord, opensSnapshot_settledRecord, hwaiting,
        Bool.false_eq_true, if_false, Nat.add_zero]
      exact Nat.le_add_left _ _
  | promote => exact weight_le (by simp [OpenCall.waiting]) (fun h => h)
  | release => exact weight_le (by simp [OpenCall.waiting]) (fun h => h)

/-- Only a promotion adds to the sessions of a caller, and an accepted opening whose
signal has been aborted. -/
theorem caller_weight (h : Advance room accepted c c') (hc : c.Orderly) (hwf : c.WellFormed)
    (key : String) :
    weight (OpenCall.activeFor key) (OpenCall.opensFor key) c' ≤
        weight (OpenCall.activeFor key) (OpenCall.opensFor key) c +
          (if room = true ∧ c.key = key then 1 else 0) ∨
      (accepted = true ∧ c.opensSubscription = true ∧ c.aborted = true) := by
  cases h with
  | abort =>
      exact Or.inl (Nat.le_add_right_of_le (weight_le (fun h => h) (by simp [OpenCall.opensFor])))
  | close => exact Or.inl (Nat.le_add_right _ _)
  | shutDown hphase =>
      refine Or.inl (Nat.le_add_right_of_le (weight_le ?_ ?_))
      · simp [OpenCall.activeFor, OpenCall.active]
      · simp [OpenCall.opensFor, OpenCall.opensSubscription, OpenCall.inFlight, hphase]
  | reject | settle =>
      exact Or.inl (Nat.le_add_right_of_le (weight_settledRecord_le _ _ _ rfl rfl))
  | accept haccepted hphase hopen =>
      have hactive := accept_active hphase hc hwf hopen
      by_cases hexcess : c.opensSubscription = true ∧ c.aborted = true
      · exact Or.inr ⟨haccepted, hexcess⟩
      · refine Or.inl (Nat.le_add_right_of_le ?_)
        have hsame : OpenCall.activeFor key { c with held := true, live := true } =
            c.opensFor key := by
          simp only [OpenCall.activeFor, OpenCall.opensFor, hactive]
          cases hopens : c.opensSubscription <;> simp_all
        simp only [weight, activeFor_settledRecord, opensFor_settledRecord, hsame,
          Bool.false_eq_true, if_false, Nat.add_zero]
        exact Nat.le_add_left _ _
  | promote hroom =>
      left
      by_cases hkey : c.key = key
      · rw [if_pos ⟨hroom, hkey⟩]
        exact weight_le_succ (fun h => h)
      · exact Nat.le_add_right_of_le (weight_le (by simp [OpenCall.activeFor, hkey]) (fun h => h))
  | release =>
      refine Or.inl (Nat.le_add_right_of_le (weight_le ?_ (fun h => h)))
      simp [OpenCall.activeFor, OpenCall.active]

end Advance

/-! ### The invariant of a server -/

/-- The counters and the sizes the admission checks compare are counts over the ledger:
nothing is counted twice and nothing is released twice. -/
structure Exact (s : ObservableSessions) : Prop where
  active : s.observableSessions.card = s.calls.countP OpenCall.active
  waiting : s.snapshotSessions.card = s.calls.countP OpenCall.waiting
  opening : s.openingObservableSessions = s.calls.countP OpenCall.opensSubscription
  snapshots : s.openingSnapshots = s.calls.countP OpenCall.opensSnapshot
  owned : ∀ key, s.owned key = s.calls.countP (OpenCall.activeFor key)
  openingOwned : ∀ key, s.openingOwned key = s.calls.countP (OpenCall.opensFor key)

structure Consistent (s : ObservableSessions) : Prop where
  fitting : s.Fitting
  counted : s.Counted
  orderly : ∀ (k : ℕ) (c : OpenCall), s.calls[k]? = some c → c.Orderly
  subscriptions :
    s.calls.countP OpenCall.active + s.calls.countP OpenCall.opensSubscription ≤ s.subscriptions
  snapshots :
    s.calls.countP OpenCall.waiting + s.calls.countP OpenCall.opensSnapshot ≤ s.subscriptions

/-- A position is in a set exactly when its record says so. -/
theorem Fitting.mem_iff {s : ObservableSessions} (hs : s.Fitting) (member : Slot → Prop)
    {p : OpenCall → Bool} (hempty : ¬ member Slot.empty)
    (hfits : ∀ {slot c}, Slot.Fits slot c → (member slot ↔ p c = true)) (k : ℕ) :
    member (s.slot k) ↔ ∃ c, s.calls[k]? = some c ∧ p c = true := by
  have hslot := hs k
  cases hk : s.calls[k]? with
  | none =>
      rw [hk] at hslot
      simpa [hslot] using hempty
  | some c =>
      rw [hk] at hslot
      simpa using hfits hslot

theorem Consistent.exact {s : ObservableSessions} (hs : s.Consistent) : s.Exact where
  active := Ledger.card_eq_countP fun k =>
    hs.fitting.mem_iff Slot.observable (fun h => h) (fun h => h.observable) k
  waiting := Ledger.card_eq_countP fun k =>
    hs.fitting.mem_iff Slot.snapshot (fun h => h) (fun h => h.snapshot) k
  opening := hs.counted.subscriptions
  snapshots := hs.counted.snapshots
  owned := by
    intro key
    refine Ledger.length_filter_eq_countP fun k => ?_
    refine hs.fitting.mem_iff (fun slot => slot.owner = some key)
      (fun h => nomatch h) (fun h => ?_) k
    rw [h.owner, OpenCall.activeFor]
    split_ifs with hactive
    · simp [hactive]
    · simp [hactive]
  openingOwned := by
    intro key
    rw [hs.counted.owners]
    have hsame : ∀ c ∈ s.calls, OpenCall.holdsOwner key c = OpenCall.opensFor key c := by
      intro c hc
      obtain ⟨k, hk⟩ := List.mem_iff_getElem?.1 hc
      have horderly := hs.orderly k c hk
      simp only [OpenCall.holdsOwner, OpenCall.opensFor]
      cases hopens : c.opensSubscription with
      | false => rfl
      | true =>
          simp only [OpenCall.opensSubscription, Bool.and_eq_true, decide_eq_true_eq] at hopens
          rw [(horderly hopens.1).2 hopens.2]
    exact congrArg Nat.cast (List.countP_congr fun c hc => by rw [hsame c hc])

/-- The capacity check compares the true counts. -/
theorem Exact.capacity {s : ObservableSessions} (hs : s.Exact) {key : String}
    (h : s.hasSessionCapacity key = true) :
    s.calls.countP OpenCall.active + s.calls.countP OpenCall.opensSubscription <
        s.subscriptions ∧
      s.calls.countP (OpenCall.activeFor key) + s.calls.countP (OpenCall.opensFor key) <
        s.subscriptionsPerCaller := by
  simp only [hasSessionCapacity, hasSubscriptionCapacity, hs.active, hs.opening, hs.owned,
    hs.openingOwned, Bool.and_eq_true, decide_eq_true_eq] at h
  exact ⟨by exact_mod_cast h.2.1, by exact_mod_cast h.2.2⟩

/-- The configured limits. -/
def limits (s : ObservableSessions) : ℕ × ℕ := (s.subscriptions, s.subscriptionsPerCaller)

@[simp] theorem limits_update (s : ObservableSessions) (k : ℕ) (c : OpenCall) :
    (s.update k c).limits = s.limits := rfl

@[simp] theorem limits_finish (s : ObservableSessions) (k : ℕ) (c : OpenCall) :
    (s.finish k c).limits = s.limits := by
  rw [finish, releaseOwner]
  split
  · rfl
  · split_ifs <;> rfl

@[simp] theorem limits_onRelease (s : ObservableSessions) (k : ℕ) (c : OpenCall) :
    (s.onRelease k c).limits = s.limits := by
  rw [onRelease, limits_update]
  split_ifs <;> rfl

theorem limits_opened (s : ObservableSessions) (k : ℕ) (c : OpenCall) (rejected : Bool) :
    (s.opened k c rejected).limits = s.limits := by
  rw [opened, closeSession]
  split_ifs
  · rfl
  · rw [limits_update, limits_onRelease]
    rfl
  · rw [limits_finish]
    rfl
  · rw [limits_finish, activate]
    cases c.admission <;> rfl

theorem limits_stepCall {s t : ObservableSessions} {k : ℕ} {c : OpenCall} {e : SessionEvent}
    (h : s.stepCall k c e = some t) : t.limits = s.limits := by
  cases e with
  | abort _ =>
      obtain rfl := Option.some.inj h
      rw [abort, releaseOwner]
      split_ifs <;> rfl
  | opened _ rejected =>
      simp only [stepCall] at h
      split_ifs at h
      obtain rfl := Option.some.inj h
      exact s.limits_opened k c rejected
  | failed _ | closedDisposed _ =>
      simp only [stepCall] at h
      split_ifs at h
      obtain rfl := Option.some.inj h
      exact s.limits_finish k c
  | reserve _ =>
      simp only [stepCall] at h
      split_ifs at h
      obtain rfl := Option.some.inj h
      rw [reserveSession]
      split_ifs <;> rfl
  | release _ =>
      simp only [stepCall] at h
      split_ifs at h
      obtain rfl := Option.some.inj h
      exact s.limits_onRelease k c
  | close _ =>
      simp only [stepCall] at h
      split_ifs at h
      obtain rfl := Option.some.inj h
      rw [onClose, limits_update]
      split_ifs <;> rfl
  | openSession | markDisposed | disposeServices => cases h

/-! ### One step -/

/-- A request for a session is refused and changes nothing, or enters a call. -/
theorem openSession_cases (s : ObservableSessions) (key : String) (admission : Admission)
    (canceled known created : Bool) :
    (s.hasSessionCapacity key = true ∧
        (s.openSession key admission canceled known created).1 = ObservableSessions.start { s with
          openingOwners := s.openingOwners.set key (s.openingOwned key + 1)
          openingObservableSessions := s.openingObservableSessions + 1 } key .subscription
            created) ∨
      (s.openingSnapshots + 1 + s.snapshotSessions.card ≤ (s.subscriptions : ℤ) ∧
        (s.openSession key admission canceled known created).1 = ObservableSessions.start { s with
          openingSnapshots := s.openingSnapshots + 1 } key .snapshot created) ∨
      (s.openSession key admission canceled known created).1 = s := by
  cases admission with
  | subscription =>
      simp only [openSession]
      split_ifs with hdisposed hcanceled hknown hcapacity
      · exact Or.inr (Or.inr rfl)
      · exact Or.inr (Or.inr rfl)
      · exact Or.inr (Or.inr rfl)
      · exact Or.inr (Or.inr rfl)
      · exact Or.inl ⟨by simpa using hcapacity, rfl⟩
  | snapshot =>
      simp only [openSession]
      split_ifs with hdisposed hcanceled hknown hfull
      · exact Or.inr (Or.inr rfl)
      · exact Or.inr (Or.inr rfl)
      · exact Or.inr (Or.inr rfl)
      · exact Or.inr (Or.inr rfl)
      · exact Or.inr (Or.inl ⟨by omega, rfl⟩)

/-- A step either enters a call into the ledger, or is an event of one call, or leaves
the ledger, the sets and the counters alone. -/
theorem step_cases {s t : ObservableSessions} {e : SessionEvent} (h : s.step e = some t) :
    (∃ key created, s.hasSessionCapacity key = true ∧
        t = ObservableSessions.start { s with
          openingOwners := s.openingOwners.set key (s.openingOwned key + 1)
          openingObservableSessions := s.openingObservableSessions + 1 } key .subscription
            created) ∨
      (∃ key created, s.openingSnapshots + 1 + s.snapshotSessions.card ≤ (s.subscriptions : ℤ) ∧
        t = ObservableSessions.start { s with openingSnapshots := s.openingSnapshots + 1 } key
          .snapshot created) ∨
      (∃ k c, s.calls[k]? = some c ∧ s.stepCall k c e = some t) ∨
      ∃ disposed servicesDisposed,
        t = { s with disposed := disposed, servicesDisposed := servicesDisposed } := by
  have hcall : ∀ k, (s.calls[k]?.bind fun c => s.stepCall k c e) = some t →
      ∃ k c, s.calls[k]? = some c ∧ s.stepCall k c e = some t := by
    intro k hk
    obtain ⟨c, hc, ht⟩ := Option.bind_eq_some_iff.1 hk
    exact ⟨k, c, hc, ht⟩
  cases e with
  | openSession key admission canceled known created =>
      obtain rfl : (s.openSession key admission canceled known created).1 = t := Option.some.inj h
      rcases s.openSession_cases key admission canceled known created with
        ⟨hcapacity, ht⟩ | ⟨hroom, ht⟩ | ht
      · exact Or.inl ⟨key, created, hcapacity, ht⟩
      · exact Or.inr (Or.inl ⟨key, created, hroom, ht⟩)
      · exact Or.inr (Or.inr (Or.inr ⟨s.disposed, s.servicesDisposed, ht⟩))
  | abort k | opened k _ | failed k | closedDisposed k | reserve k | release k | close k =>
      exact Or.inr (Or.inr (Or.inl (hcall k h)))
  | markDisposed =>
      obtain rfl := Option.some.inj h
      exact Or.inr (Or.inr (Or.inr ⟨true, s.servicesDisposed, rfl⟩))
  | disposeServices =>
      obtain rfl := Option.some.inj h
      exact Or.inr (Or.inr (Or.inr ⟨s.disposed, true, rfl⟩))

theorem limits_step {s t : ObservableSessions} {e : SessionEvent} (h : s.step e = some t) :
    t.limits = s.limits := by
  rcases step_cases h with ⟨key, created, -, rfl⟩ | ⟨key, created, -, rfl⟩ |
    ⟨k, c, -, hcall⟩ | ⟨disposed, servicesDisposed, rfl⟩
  · rfl
  · rfl
  · exact limits_stepCall hcall
  · rfl

theorem orderly_started (key : String) (admission : Admission) (created : Bool) :
    (OpenCall.started key admission created).Orderly := fun _ => ⟨rfl, fun _ => rfl⟩

theorem orderly_append {l : List OpenCall} {c' : OpenCall}
    (hl : ∀ (k : ℕ) (c : OpenCall), l[k]? = some c → c.Orderly) (hc' : c'.Orderly) :
    ∀ (k : ℕ) (c : OpenCall), (l ++ [c'])[k]? = some c → c.Orderly := by
  intro k c hk
  rcases List.mem_append.1 (List.mem_of_getElem? hk) with hmem | hmem
  · obtain ⟨j, hj⟩ := List.mem_iff_getElem?.1 hmem
    exact hl j c hj
  · obtain rfl := List.mem_singleton.1 hmem
    exact hc'

theorem Consistent.step {s t : ObservableSessions} (hs : s.Consistent) {e : SessionEvent}
    (h : s.step e = some t) : t.Consistent := by
  rcases step_cases h with ⟨key, created, hcapacity, rfl⟩ | ⟨key, created, hroom, rfl⟩ |
    ⟨k, c, hk, hcall⟩ | ⟨disposed, servicesDisposed, rfl⟩
  · obtain ⟨hroom, -⟩ := hs.exact.capacity hcapacity
    refine ⟨?_, hs.counted.startSubscription key created, ?_, ?_, ?_⟩
    · have hfitting : ObservableSessions.Fitting { s with
          openingOwners := s.openingOwners.set key (s.openingOwned key + 1)
          openingObservableSessions := s.openingObservableSessions + 1 } := hs.fitting
      exact hfitting.start key .subscription created
    · exact orderly_append hs.orderly (orderly_started _ _ _)
    · simp only [start, List.countP_append]
      have hnew : ∀ p : OpenCall → Bool, [OpenCall.started key .subscription created].countP p =
          if p (.started key .subscription created) then 1 else 0 := fun p => by simp
      rw [hnew, hnew]
      have hinactive : (OpenCall.started key .subscription created).active = false := rfl
      have hopens : (OpenCall.started key .subscription created).opensSubscription = true := rfl
      rw [hinactive, hopens, if_neg Bool.false_ne_true, if_pos rfl]
      omega
    · simpa [start, OpenCall.started, OpenCall.waiting, OpenCall.opensSnapshot] using hs.snapshots
  · refine ⟨?_, hs.counted.startSnapshot key created, ?_, ?_, ?_⟩
    · have hfitting : ObservableSessions.Fitting { s with
          openingSnapshots := s.openingSnapshots + 1 } := hs.fitting
      exact hfitting.start key .snapshot created
    · exact orderly_append hs.orderly (orderly_started _ _ _)
    · simpa [start, OpenCall.started, OpenCall.active, OpenCall.opensSubscription] using
        hs.subscriptions
    · rw [hs.exact.waiting, hs.exact.snapshots] at hroom
      simp only [start, List.countP_append]
      have hwaiting : [OpenCall.started key .snapshot created].countP OpenCall.waiting = 0 := rfl
      have hopens : [OpenCall.started key .snapshot created].countP OpenCall.opensSnapshot = 1 :=
        rfl
      rw [hwaiting, hopens]
      omega
  · have horderly := hs.orderly k c hk
    have hwf := (hs.fitting.fits hk).wellFormed
    have hnew : c.phase = .opening → c.live = false := fun hphase =>
      (horderly (by simp [OpenCall.inFlight, hphase])).1
    have hlimit : t.subscriptions = s.subscriptions := congrArg Prod.fst (limits_stepCall hcall)
    rcases advance_of_stepCall hk hcall with rfl | ⟨c', hadvance, hcalls⟩
    · exact hs
    refine ⟨hs.fitting.stepCall hk hnew hcall, hs.counted.stepCall hk hcall, ?_, ?_, ?_⟩
    · rw [hcalls]
      intro j d hj
      by_cases hjk : j = k
      · subst hjk
        rw [List.getElem?_set_self (List.getElem?_eq_some_iff.1 hk).1] at hj
        exact Option.some.inj hj ▸ hadvance.orderly horderly
      · rw [List.getElem?_set_ne (Ne.symm hjk)] at hj
        exact hs.orderly j d hj
    · have hload := load_set OpenCall.active OpenCall.opensSubscription c' hk
      have hweight := hadvance.subscription_weight horderly hwf
      rw [hcalls, hlimit]
      split_ifs at hweight with hroom
      · have hcapacity := (hs.exact.capacity hroom).1
        omega
      · have hbefore := hs.subscriptions
        omega
    · have hload := load_set OpenCall.waiting OpenCall.opensSnapshot c' hk
      have hweight := hadvance.snapshot_weight horderly hwf
      have hbefore := hs.snapshots
      rw [hcalls, hlimit]
      omega
  · exact ⟨hs.fitting, ⟨hs.counted.subscriptions, hs.counted.snapshots, hs.counted.owners,
      hs.counted.positive⟩, hs.orderly, hs.subscriptions, hs.snapshots⟩

theorem consistent_new (subscriptions subscriptionsPerCaller : ℕ) :
    (ObservableSessions.new subscriptions subscriptionsPerCaller).Consistent where
  fitting := by
    intro j
    simp [new, slot, Slot.empty]
  counted := ⟨rfl, rfl, fun _ => rfl, fun _ _ h => nomatch h⟩
  orderly := fun _ _ h => by simp [new] at h
  subscriptions := Nat.zero_le _
  snapshots := Nat.zero_le _

theorem Consistent.reachable {subscriptions subscriptionsPerCaller : ℕ} {s : ObservableSessions}
    (hs : (machine subscriptions subscriptionsPerCaller).Reachable s) : s.Consistent :=
  hs.invariant (P := Consistent) _ (consistent_new _ _) fun _ _ _ hbefore ht => hbefore.step ht

end ObservableSessions

end Arc.Observable
