import Arc.Observable.SessionBudgets

/-!
# The budgets of a server over a run

The limits of a server hold in every reachable state. The limit of a caller holds
all along a run exactly when no step of it accepts an aborted opening of a caller
whose places have been taken meanwhile: the abort has given the place of the
opening back, and nothing asks for another when its session arrives after all.
-/

namespace Arc.Observable

namespace ObservableSessions

/-! ### The budget of a caller -/

/-- The active subscriptions of a caller and its openings that are not aborted. -/
def callerLoad (s : ObservableSessions) (key : String) : ℕ :=
  s.calls.countP (OpenCall.activeFor key) + s.calls.countP (OpenCall.opensFor key)

def WithinCaller (s : ObservableSessions) : Prop :=
  ∀ key, s.callerLoad key ≤ s.subscriptionsPerCaller

/-- When a subscription whose signal was aborted while opening is accepted after all, its
caller still has room for it. -/
def RoomForAborted (s : ObservableSessions) : SessionEvent → Prop
  | .opened k rejected => s.accepts (.opened k rejected) = true →
      ∀ c, s.calls[k]? = some c → c.opensSubscription = true → c.aborted = true →
        s.callerLoad c.key < s.subscriptionsPerCaller
  | _ => True

instance (s : ObservableSessions) : ∀ e, Decidable (s.RoomForAborted e)
  | .opened k rejected =>
      match h : s.calls[k]? with
      | none => isTrue fun _ _ hc => nomatch h.symm.trans hc
      | some c => decidable_of_iff (s.accepts (.opened k rejected) = true →
          c.opensSubscription = true → c.aborted = true →
            s.callerLoad c.key < s.subscriptionsPerCaller)
          ⟨fun hroom haccepts _ hd => Option.some.inj (h.symm.trans hd) ▸ hroom haccepts,
            fun hroom haccepts => hroom haccepts c h⟩
  | .openSession .. | .abort _ | .failed _ | .closedDisposed _ | .reserve _ | .release _
  | .close _ | .markDisposed | .disposeServices => isTrue trivial

/-- Every event of a call keeps the callers within their budget, but the acceptance of an
aborted opening. -/
theorem withinCaller_stepCall {s t : ObservableSessions} (hs : s.Consistent)
    (hbudget : s.WithinCaller) {k : ℕ} {c : OpenCall} (hk : s.calls[k]? = some c)
    {e : SessionEvent} (h : s.stepCall k c e = some t)
    (hexcess : ¬(s.accepts e = true ∧ c.opensSubscription = true ∧ c.aborted = true)) :
    t.WithinCaller := by
  have hlimit : t.subscriptionsPerCaller = s.subscriptionsPerCaller :=
    congrArg Prod.snd (limits_stepCall h)
  rcases advance_of_stepCall hk h with rfl | ⟨c', hadvance, hcalls⟩
  · exact hbudget
  intro key
  have hload := load_set (OpenCall.activeFor key) (OpenCall.opensFor key) c' hk
  have hbefore := hbudget key
  have hweight := (hadvance.caller_weight (hs.orderly k c hk)
    (hs.fitting.fits hk).wellFormed key).resolve_right hexcess
  rw [callerLoad] at hbefore ⊢
  rw [hcalls, hlimit]
  split_ifs at hweight with hroom
  · obtain ⟨hcapacity, rfl⟩ := hroom
    have hfree := (hs.exact.capacity hcapacity).2
    omega
  · omega

/-- An accepted opening that was aborted takes a place nothing was kept for. -/
theorem callerLoad_opened {s t : ObservableSessions} (hs : s.Consistent) {k : ℕ} {c : OpenCall}
    (hk : s.calls[k]? = some c) {rejected : Bool}
    (h : s.stepCall k c (.opened k rejected) = some t)
    (haccepts : s.accepts (.opened k rejected) = true) (hopens : c.opensSubscription = true)
    (haborted : c.aborted = true) (key : String) :
    t.callerLoad key = s.callerLoad key + if c.key = key then 1 else 0 := by
  simp only [accepts, Bool.and_eq_true, Bool.not_eq_true', Bool.or_eq_false_iff] at haccepts
  obtain ⟨⟨hdisposed, hservices⟩, hrejected⟩ := haccepts
  simp only [stepCall] at h
  split_ifs at h with hguard
  obtain rfl := Option.some.inj h
  simp only [Bool.and_eq_true, decide_eq_true_eq] at hguard
  obtain ⟨⟨-, hphase⟩, hopen⟩ := hguard
  have hreleased : c.released = false := by simpa [hrejected, hdisposed] using hopen
  have hcalls := calls_opened hk rejected
  rw [hdisposed, hservices, hrejected, if_neg (by decide), if_neg (by decide)] at hcalls
  have hload := load_set (OpenCall.activeFor key) (OpenCall.opensFor key)
    (settledRecord { c with held := true, live := true }) hk
  have hactive := Advance.accept_active hphase (hs.orderly k c hk)
    (hs.fitting.fits hk).wellFormed hreleased
  have hinactive : c.active = false := by
    have hlive := (hs.orderly k c hk (by simp [OpenCall.inFlight, hphase])).1
    simp [OpenCall.active, hlive]
  have hafter : weight (OpenCall.activeFor key) (OpenCall.opensFor key)
      (settledRecord { c with held := true, live := true }) = if c.key = key then 1 else 0 := by
    have htaken : OpenCall.activeFor key (settledRecord { c with held := true, live := true }) =
        decide (c.key = key) := by
      rw [activeFor_settledRecord, OpenCall.activeFor, hactive, hopens, Bool.true_and]
    rw [weight, htaken, opensFor_settledRecord, if_neg Bool.false_ne_true, Nat.add_zero]
    exact if_congr decide_eq_true_iff rfl rfl
  have hbefore : weight (OpenCall.activeFor key) (OpenCall.opensFor key) c = 0 := by
    simp [weight, OpenCall.activeFor, OpenCall.opensFor, hinactive, haborted]
  rw [hrejected, callerLoad, callerLoad, hcalls]
  omega

/-- A step keeps every caller within its budget exactly when it does not accept an aborted
opening of a caller that has no room left. -/
theorem withinCaller_step {s t : ObservableSessions} {e : SessionEvent} (hs : s.Consistent)
    (hbudget : s.WithinCaller) (h : s.step e = some t) :
    t.WithinCaller ↔ s.RoomForAborted e := by
  by_cases hopened : ∃ k rejected, e = .opened k rejected
  · obtain ⟨k, rejected, rfl⟩ := hopened
    obtain ⟨c, hk, hcall⟩ := Option.bind_eq_some_iff.1 h
    by_cases hexcess : s.accepts (.opened k rejected) = true ∧ c.opensSubscription = true ∧
        c.aborted = true
    · obtain ⟨haccepts, hopens, haborted⟩ := hexcess
      have hload := callerLoad_opened hs hk hcall haccepts hopens haborted
      have hlimit : t.subscriptionsPerCaller = s.subscriptionsPerCaller :=
        congrArg Prod.snd (limits_stepCall hcall)
      constructor
      · intro hafter _ d hd _ _
        obtain rfl : c = d := Option.some.inj (hk.symm.trans hd)
        have hkey := hafter c.key
        rw [hload, if_pos rfl, hlimit] at hkey
        exact hkey
      · intro hroom key
        rw [hload, hlimit]
        split_ifs with hkey
        · exact hkey ▸ hroom haccepts c hk hopens haborted
        · exact hbudget key
    · refine iff_of_true (withinCaller_stepCall hs hbudget hk hcall hexcess) ?_
      intro haccepts d hd hopens haborted
      obtain rfl : c = d := Option.some.inj (hk.symm.trans hd)
      exact absurd ⟨haccepts, hopens, haborted⟩ hexcess
  · have hroom : s.RoomForAborted e := by
      cases e with
      | opened k rejected => exact absurd ⟨k, rejected, rfl⟩ hopened
      | _ => trivial
    have hrefuses : s.accepts e ≠ true := by
      cases e with
      | opened k rejected => exact absurd ⟨k, rejected, rfl⟩ hopened
      | _ => exact Bool.false_ne_true
    refine iff_of_true ?_ hroom
    rcases step_cases h with ⟨key, created, hcapacity, rfl⟩ | ⟨key, created, -, rfl⟩ |
      ⟨k, c, hk, hcall⟩ | ⟨disposed, servicesDisposed, rfl⟩
    · obtain ⟨-, hfree⟩ := hs.exact.capacity hcapacity
      intro other
      have hbefore := hbudget other
      have hactive : OpenCall.activeFor other (.started key .subscription created) = false := rfl
      have hopens : OpenCall.opensFor other (.started key .subscription created) =
          decide (key = other) := rfl
      simp only [callerLoad, start, List.countP_append, List.countP_singleton, hactive,
        hopens] at hbefore ⊢
      by_cases hkey : key = other
      · subst hkey
        simp only [decide_true, if_true, Bool.false_eq_true, if_false]
        omega
      · simp only [hkey, decide_false, Bool.false_eq_true, if_false]
        omega
    · intro other
      have hactive : OpenCall.activeFor other (.started key .snapshot created) = false := rfl
      have hopens : OpenCall.opensFor other (.started key .snapshot created) = false := rfl
      simpa [callerLoad, start, hactive, hopens] using hbudget other
    · exact withinCaller_stepCall hs hbudget hk hcall fun hexcess => hrefuses hexcess.1
    · exact hbudget

/-! ### Nothing is left behind -/

/-- Every set, map and counter is empty. -/
structure Vacant (s : ObservableSessions) : Prop where
  observableSessions : s.observableSessions = ∅
  snapshotSessions : s.snapshotSessions = ∅
  retiringSessions : s.retiringSessions = ∅
  openingSessions : s.openingSessions = ∅
  releasedOpening : s.releasedOpening = ∅
  observableOwners : s.observableOwners = .empty
  openingOwners : s.openingOwners = .empty
  openingObservableSessions : s.openingObservableSessions = 0
  openingSnapshots : s.openingSnapshots = 0

theorem Consistent.vacant {s : ObservableSessions} (hs : s.Consistent)
    (hsettled : ∀ c ∈ s.calls, c.phase = .settled)
    (hclosed : ∀ c ∈ s.calls, c.created = true → c.closed = true) : s.Vacant := by
  have hslot : ∀ k, s.slot k = Slot.empty := by
    intro k
    have hk := hs.fitting k
    cases hget : s.calls[k]? with
    | none => rwa [hget] at hk
    | some c =>
        rw [hget] at hk
        exact hk.eq_empty (hclosed c (List.mem_of_getElem? hget))
  have hidle : ∀ p : OpenCall → Bool, (∀ c, c.phase = .settled → p c = false) →
      s.calls.countP p = 0 := by
    intro p hp
    rw [List.countP_eq_zero]
    intro c hc
    simp [hp c (hsettled c hc)]
  have hnobody : ∀ member : Slot → Prop, ¬ member Slot.empty → ∀ k, ¬ member (s.slot k) :=
    fun _ hempty k => (hslot k).symm ▸ hempty
  refine ⟨?_, ?_, ?_, ?_, ?_, ?_, ?_, ?_, ?_⟩
  · exact Finset.eq_empty_of_forall_notMem (hnobody Slot.observable fun h => h)
  · exact Finset.eq_empty_of_forall_notMem (hnobody Slot.snapshot fun h => h)
  · exact Finset.eq_empty_of_forall_notMem (hnobody Slot.retiring fun h => h)
  · exact Finset.eq_empty_of_forall_notMem (hnobody Slot.opening fun h => h)
  · exact Finset.eq_empty_of_forall_notMem (hnobody Slot.releasedOpening fun h => h)
  · exact InsertionMap.eq_empty_of_get fun k => congrArg Slot.owner (hslot k)
  · refine InsertionMap.eq_empty_of_get fun key => ?_
    have howned := hs.counted.owners key
    rw [hidle _ fun c hc => by simp [OpenCall.holdsOwner, OpenCall.opensSubscription,
      OpenCall.inFlight, hc], openingOwned] at howned
    cases hget : s.openingOwners.get key with
    | none => rfl
    | some n =>
        have hpos := hs.counted.positive key n hget
        rw [hget, Option.getD_some] at howned
        omega
  · rw [hs.counted.subscriptions, hidle _ fun c hc => by
      simp [OpenCall.opensSubscription, OpenCall.inFlight, hc]]
    rfl
  · rw [hs.counted.snapshots, hidle _ fun c hc => by
      simp [OpenCall.opensSnapshot, OpenCall.inFlight, hc]]
    rfl

/-! ### Runs -/

/-- A caller opens a subscription, aborts it, gets it after all and closes it, and then
opens another one. -/
def openedTwice : List SessionEvent :=
  [.openSession "a" .subscription false true true,
    .abort 0,
    .opened 0 false,
    .release 0,
    .close 0,
    .openSession "a" .subscription false true true,
    .opened 1 false]

end ObservableSessions

end Arc.Observable
