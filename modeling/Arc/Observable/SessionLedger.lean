import Arc.Observable.ObservableSessions

/-!
# The sets and counters of a server are counts over its ledger

`Fitting` says what the sets and the owner map hold at each position of the
ledger, given the record there; `Counted` says what the counters count. Together
they turn the sizes the admission checks compare into counts over the ledger.
-/

namespace Arc.Observable

/-- What the sets and the owner map of a server hold at one position. -/
structure Slot where
  observable : Prop
  owner : Option String
  snapshot : Prop
  retiring : Prop
  opening : Prop
  releasedOpening : Prop

/-- What has happened to a session has happened in order. -/
structure OpenCall.WellFormed (c : OpenCall) : Prop where
  closed : c.closed = true → c.released = true
  released : c.released = true → c.created = true
  live : c.live = true → c.held = true
  reserved : c.reserved = true → c.live = true
  held : c.held = true → c.created = true

namespace Slot

def empty : Slot := ⟨False, none, False, False, False, False⟩

/-- What a slot holds for a record. -/
structure Fits (slot : Slot) (c : OpenCall) : Prop where
  observable : slot.observable ↔ c.active = true
  owner : slot.owner = if c.active then some c.key else none
  snapshot : slot.snapshot ↔ c.waiting = true
  retiring : slot.retiring → c.held = true ∧ c.released = true ∧ c.closed = false
  opening : slot.opening → c.created = true ∧ c.closed = false
  releasedOpening : slot.releasedOpening → c.released = true ∧ c.closed = false
  wellFormed : c.WellFormed

/-- The progress of the call itself does not matter to the sets. -/
theorem Fits.progress {slot : Slot} {c : OpenCall} (h : slot.Fits c) (phase : CallPhase)
    (aborted ownerReleased : Bool) :
    slot.Fits { c with phase := phase, aborted := aborted, ownerReleased := ownerReleased } where
  observable := h.observable
  owner := h.owner
  snapshot := h.snapshot
  retiring := h.retiring
  opening := h.opening
  releasedOpening := h.releasedOpening
  wellFormed := ⟨h.wellFormed.closed, h.wellFormed.released, h.wellFormed.live,
    h.wellFormed.reserved, h.wellFormed.held⟩

/-- A closed session holds nothing. -/
theorem Fits.eq_empty {slot : Slot} {c : OpenCall} (h : slot.Fits c)
    (hclosed : c.created = true → c.closed = true) : slot = Slot.empty := by
  have hwf := h.wellFormed
  have hgone : c.live = true → c.released = true := fun hlive =>
    hwf.closed (hclosed (hwf.held (hwf.live hlive)))
  have hinactive : c.active = false := by
    cases hlive : c.live with
    | false => simp [OpenCall.active, hlive]
    | true => simp [OpenCall.active, hgone hlive]
  have hwaiting : c.waiting = false := by
    cases hlive : c.live with
    | false => simp [OpenCall.waiting, hlive]
    | true => simp [OpenCall.waiting, hgone hlive]
  have hopen : c.created = true → c.closed = false → False := fun hcreated hopen => by
    rw [hclosed hcreated] at hopen
    cases hopen
  obtain ⟨observable, owner, snapshot, retiring, opening, releasedOpening⟩ := slot
  simp only [Slot.empty, Slot.mk.injEq, eq_iff_iff, iff_false]
  refine ⟨fun hmem => ?_, ?_, fun hmem => ?_, fun hmem => ?_, fun hmem => ?_, fun hmem => ?_⟩
  · exact absurd (h.observable.1 hmem) (by simp [hinactive])
  · simpa [hinactive] using h.owner
  · exact absurd (h.snapshot.1 hmem) (by simp [hwaiting])
  · exact hopen (hwf.held (h.retiring hmem).1) (h.retiring hmem).2.2
  · exact hopen (h.opening hmem).1 (h.opening hmem).2
  · exact hopen (hwf.released (h.releasedOpening hmem).1) (h.releasedOpening hmem).2

end Slot

namespace ObservableSessions

/-- What the sets and the owner map hold at a position. -/
def slot (s : ObservableSessions) (k : ℕ) : Slot where
  observable := k ∈ s.observableSessions
  owner := s.observableOwners.get k
  snapshot := k ∈ s.snapshotSessions
  retiring := k ∈ s.retiringSessions
  opening := k ∈ s.openingSessions
  releasedOpening := k ∈ s.releasedOpening

/-- Every slot fits its record, and is empty where no call has been entered yet. -/
def Fitting (s : ObservableSessions) : Prop :=
  ∀ j, match s.calls[j]? with
    | none => s.slot j = Slot.empty
    | some c => (s.slot j).Fits c

theorem Fitting.fits {s : ObservableSessions} (hs : s.Fitting) {k : ℕ} {c : OpenCall}
    (hk : s.calls[k]? = some c) : (s.slot k).Fits c := by
  have h := hs k
  rwa [hk] at h

/-- An operation on one call touches its own slot and record only. -/
theorem Fitting.change {s t : ObservableSessions} (hs : s.Fitting) {k : ℕ} {c c' : OpenCall}
    (hk : s.calls[k]? = some c) (hcalls : t.calls = s.calls.set k c')
    (hslot : ∀ j, j ≠ k → t.slot j = s.slot j)
    (hfits : (t.slot k).Fits c') : t.Fitting := by
  intro j
  rw [hcalls]
  by_cases hj : j = k
  · subst hj
    rw [List.getElem?_set_self (List.getElem?_eq_some_iff.1 hk).1]
    exact hfits
  · rw [List.getElem?_set_ne (Ne.symm hj), hslot j hj]
    exact hs j

theorem getElem?_update {s : ObservableSessions} {k : ℕ} {c c' : OpenCall}
    (hk : s.calls[k]? = some c) : (s.update k c').calls[k]? = some c' :=
  List.getElem?_set_self (List.getElem?_eq_some_iff.1 hk).1

@[simp] theorem slot_update (s : ObservableSessions) (k j : ℕ) (c : OpenCall) :
    (s.update k c).slot j = s.slot j := rfl

/-! ### Operations on the slots -/

theorem slot_onRelease_of_ne (s : ObservableSessions) {k j : ℕ} (c : OpenCall) (h : j ≠ k) :
    (s.onRelease k c).slot j = s.slot j := by
  simp only [onRelease, slot_update]
  split_ifs <;> simp [slot, forget, h, InsertionMap.get_delete_of_ne]

theorem slot_onClose_of_ne (s : ObservableSessions) {k j : ℕ} (c : OpenCall) (h : j ≠ k) :
    (s.onClose k c).slot j = s.slot j := by
  simp only [onClose, slot_update]
  split_ifs <;> simp [slot, forget, h, InsertionMap.get_delete_of_ne]

theorem slot_releaseOwner (s : ObservableSessions) (k j : ℕ) (c : OpenCall) :
    (s.releaseOwner k c).slot j = s.slot j := by
  simp only [releaseOwner]
  split_ifs <;> rfl

theorem slot_finish (s : ObservableSessions) (k j : ℕ) (c : OpenCall) :
    (s.finish k c).slot j = s.slot j := by
  simp only [finish]
  cases c.admission with
  | snapshot => rfl
  | subscription => exact s.slot_releaseOwner k j c

/-! ### Operations on the ledger -/

theorem calls_releaseOwner {s : ObservableSessions} {k : ℕ} {c : OpenCall}
    (hk : s.calls[k]? = some c) :
    (s.releaseOwner k c).calls = s.calls.set k { c with ownerReleased := true } := by
  simp only [releaseOwner]
  split_ifs with hreleased
  · obtain ⟨hlt, hget⟩ := List.getElem?_eq_some_iff.1 hk
    have hsame : { c with ownerReleased := true } = c := by rw [← hreleased]
    rw [hsame, ← hget, List.set_getElem_self]
  · rfl

/-- The record of a call that has settled. -/
def settledRecord (c : OpenCall) : OpenCall :=
  { c with ownerReleased := c.ownerReleased || decide (c.admission = .subscription)
           phase := .settled }

theorem calls_finish {s : ObservableSessions} {k : ℕ} {c : OpenCall}
    (hk : s.calls[k]? = some c) :
    (s.finish k c).calls = s.calls.set k (settledRecord c) := by
  simp only [finish, settledRecord]
  cases hadmission : c.admission with
  | snapshot => simp [update]
  | subscription => simp [update, calls_releaseOwner hk]

theorem calls_onRelease (s : ObservableSessions) (k : ℕ) (c : OpenCall) :
    (s.onRelease k c).calls = s.calls.set k { c with released := true } := by
  simp only [onRelease, update]
  split_ifs <;> rfl

theorem calls_onClose (s : ObservableSessions) (k : ℕ) (c : OpenCall) :
    (s.onClose k c).calls = s.calls.set k { c with closed := true } := by
  simp only [onClose, update]
  split_ifs <;> rfl

theorem calls_abort {s : ObservableSessions} {k : ℕ} {c : OpenCall}
    (hk : s.calls[k]? = some c) :
    (s.abort k c).calls = s.calls.set k
      { c with ownerReleased := c.ownerReleased || c.opensSubscription, aborted := true } := by
  simp only [abort]
  split_ifs with hopens
  · simp [update, calls_releaseOwner hk, hopens]
  · simp [update, hopens]

/-! ### Every event keeps the slots fitting -/

theorem Fitting.finish {s : ObservableSessions} (hs : s.Fitting) {k : ℕ} {c : OpenCall}
    (hk : s.calls[k]? = some c) : (s.finish k c).Fitting := by
  refine hs.change hk (calls_finish hk) (fun j _ => s.slot_finish k j c) ?_
  rw [slot_finish]
  exact (hs.fits hk).progress _ _ _

theorem Fitting.abort {s : ObservableSessions} (hs : s.Fitting) {k : ℕ} {c : OpenCall}
    (hk : s.calls[k]? = some c) : (s.abort k c).Fitting := by
  have hslot : ∀ j, (s.abort k c).slot j = s.slot j := by
    intro j
    simp only [ObservableSessions.abort]
    split_ifs
    · rw [slot_update, slot_releaseOwner]
    · rfl
  refine hs.change hk (calls_abort hk) (fun j _ => hslot j) ?_
  rw [hslot]
  exact (hs.fits hk).progress _ _ _

theorem Fitting.onRelease {s : ObservableSessions} (hs : s.Fitting) {k : ℕ} {c : OpenCall}
    (hk : s.calls[k]? = some c) (hcreated : c.created = true) (hreleased : c.released = false) :
    (s.onRelease k c).Fitting := by
  refine hs.change hk (s.calls_onRelease k c) (fun j hj => s.slot_onRelease_of_ne c hj) ?_
  obtain ⟨h1, h2, h3, h4, h5, h6, h7, h8, h9, h10, h11⟩ := hs.fits hk
  simp only [ObservableSessions.onRelease, slot_update]
  constructor
  case wellFormed => constructor <;> simp_all
  all_goals cases hheld : c.held <;>
    simp_all [slot, forget, OpenCall.active, OpenCall.waiting]

theorem Fitting.onClose {s : ObservableSessions} (hs : s.Fitting) {k : ℕ} {c : OpenCall}
    (hk : s.calls[k]? = some c) (hreleased : c.released = true) : (s.onClose k c).Fitting := by
  refine hs.change hk (s.calls_onClose k c) (fun j hj => s.slot_onClose_of_ne c hj) ?_
  obtain ⟨h1, h2, h3, h4, h5, h6, h7, h8, h9, h10, h11⟩ := hs.fits hk
  simp only [ObservableSessions.onClose, slot_update]
  constructor
  case wellFormed => constructor <;> simp_all
  all_goals cases hheld : c.held <;>
    simp_all [slot, forget, OpenCall.active, OpenCall.waiting]

theorem Fitting.reserveSession {s t : ObservableSessions} (hs : s.Fitting) {k : ℕ}
    {c : OpenCall} (hk : s.calls[k]? = some c) (hlive : c.live = true)
    (hopen : c.released = false) (ht : s.reserveSession k c = some t) : t.Fitting := by
  simp only [ObservableSessions.reserveSession] at ht
  split_ifs at ht
  obtain rfl := Option.some.inj ht
  refine hs.change hk rfl ?_ ?_
  · intro j hj
    simp [slot, update, hj, InsertionMap.get_set_of_ne]
  · obtain ⟨h1, h2, h3, h4, h5, h6, h7, h8, h9, h10, h11⟩ := hs.fits hk
    constructor
    case wellFormed => constructor <;> simp_all
    all_goals simp_all [slot, update, OpenCall.active, OpenCall.waiting]

theorem Fitting.hold {s : ObservableSessions} (hs : s.Fitting) {k : ℕ} {c : OpenCall}
    (hk : s.calls[k]? = some c) (hcreated : c.created = true) : (s.hold k c).Fitting := by
  refine hs.change hk rfl ?_ ?_
  · intro j hj
    simp [slot, ObservableSessions.hold, update, hj]
  · obtain ⟨h1, h2, h3, h4, h5, h6, h7, h8, h9, h10, h11⟩ := hs.fits hk
    constructor
    case wellFormed => constructor <;> simp_all
    all_goals
      simp_all [slot, ObservableSessions.hold, update, OpenCall.active, OpenCall.waiting]

theorem Fitting.activate {s : ObservableSessions} (hs : s.Fitting) {k : ℕ} {c : OpenCall}
    (hk : s.calls[k]? = some c) (hheld : c.held = true) (hnew : c.live = false)
    (hopen : c.released = false) : (s.activate k c).Fitting := by
  obtain ⟨h1, h2, h3, h4, h5, h6, h7, h8, h9, h10, h11⟩ := hs.fits hk
  simp only [ObservableSessions.activate]
  cases hadmission : c.admission with
  | snapshot =>
      refine hs.change hk rfl ?_ ?_
      · intro j hj
        simp [slot, update, hj]
      · constructor
        case wellFormed => constructor <;> simp_all
        all_goals simp_all [slot, update, OpenCall.active, OpenCall.waiting]
  | subscription =>
      refine hs.change hk rfl ?_ ?_
      · intro j hj
        simp [slot, update, hj, InsertionMap.get_set_of_ne]
      · constructor
        case wellFormed => constructor <;> simp_all
        all_goals simp_all [slot, update, OpenCall.active, OpenCall.waiting]

theorem calls_activate (s : ObservableSessions) (k : ℕ) (c : OpenCall) :
    (s.activate k c).calls = s.calls.set k { c with live := true } := by
  simp only [activate]
  cases c.admission <;> rfl

theorem calls_closeSession {s : ObservableSessions} {k : ℕ} {c : OpenCall}
    (hk : s.calls[k]? = some c) :
    (s.closeSession k c).calls = s.calls.set k { c with released := true } := by
  simp only [closeSession]
  split_ifs with hreleased
  · obtain ⟨hlt, hget⟩ := List.getElem?_eq_some_iff.1 hk
    have hsame : { c with released := true } = c := by rw [← hreleased]
    rw [hsame, ← hget, List.set_getElem_self]
  · exact s.calls_onRelease k c

theorem Fitting.closeSession {s : ObservableSessions} (hs : s.Fitting) {k : ℕ} {c : OpenCall}
    (hk : s.calls[k]? = some c) (hcreated : c.created = true) :
    (s.closeSession k c).Fitting := by
  simp only [ObservableSessions.closeSession]
  split_ifs with hreleased
  · exact hs
  · exact hs.onRelease hk hcreated (by simpa using hreleased)

theorem getElem?_of_calls {s t : ObservableSessions} {k : ℕ} {c c' : OpenCall}
    (hk : s.calls[k]? = some c) (hcalls : t.calls = s.calls.set k c') :
    t.calls[k]? = some c' := by
  rw [hcalls]
  exact List.getElem?_set_self (List.getElem?_eq_some_iff.1 hk).1

theorem Fitting.opened {s : ObservableSessions} (hs : s.Fitting) {k : ℕ} {c : OpenCall}
    (hk : s.calls[k]? = some c) (hcreated : c.created = true) (hnew : c.live = false)
    {rejected : Bool} (hopen : (rejected || !c.released || s.disposed) = true) :
    (s.opened k c rejected).Fitting := by
  have hheld := hs.hold hk hcreated
  have hk' : (s.hold k c).calls[k]? = some { c with held := true } := getElem?_update hk
  simp only [ObservableSessions.opened]
  split_ifs with hdisposed hrejected
  · have hclosed := hheld.closeSession hk' hcreated
    have hk'' := getElem?_of_calls hk' (calls_closeSession hk')
    refine hclosed.change hk'' rfl (fun j _ => rfl) ?_
    exact (hclosed.fits hk'').progress _ _ _
  · exact hheld.finish hk'
  · have hfree : c.released = false := by simp_all
    exact (hheld.activate hk' rfl hnew hfree).finish
      (getElem?_of_calls hk' (calls_activate _ k _))

theorem calls_start (s : ObservableSessions) (key : String) (admission : Admission)
    (created : Bool) :
    (s.start key admission created).calls = s.calls ++ [.started key admission created] := rfl

/-- A new call gets the next position, which nothing refers to. -/
theorem Fitting.start {s : ObservableSessions} (hs : s.Fitting) (key : String)
    (admission : Admission) (created : Bool) : (s.start key admission created).Fitting := by
  intro j
  rcases Nat.lt_trichotomy j s.calls.length with hj | rfl | hj
  · have hslot : (s.start key admission created).slot j = s.slot j := by
      cases created <;> simp [slot, ObservableSessions.start, hj.ne]
    rw [hslot, calls_start, List.getElem?_append_left hj]
    exact hs j
  · have h := hs s.calls.length
    rw [List.getElem?_eq_none (Nat.le_refl _)] at h
    simp only [slot, Slot.empty, Slot.mk.injEq, eq_iff_iff, iff_false] at h
    obtain ⟨h1, h2, h3, h4, h5, h6⟩ := h
    simp only [ObservableSessions.start, List.getElem?_concat_length]
    constructor
    case wellFormed => constructor <;> simp [OpenCall.started]
    all_goals cases created <;>
      simp_all [slot, OpenCall.started, OpenCall.active, OpenCall.waiting]
  · have hslot : (s.start key admission created).slot j = s.slot j := by
      cases created <;> simp [slot, ObservableSessions.start, hj.ne']
    have hlong : (s.calls ++ [OpenCall.started key admission created]).length ≤ j := by
      rw [List.length_append, List.length_singleton]
      exact hj
    have h := hs j
    rw [List.getElem?_eq_none hj.le] at h
    rw [hslot, calls_start, List.getElem?_eq_none hlong]
    exact h

/-! ### The counters -/

/-- The counters count the calls in flight, once each. -/
structure Counted (s : ObservableSessions) : Prop where
  subscriptions : s.openingObservableSessions = s.calls.countP OpenCall.opensSubscription
  snapshots : s.openingSnapshots = s.calls.countP OpenCall.opensSnapshot
  owners : ∀ key, s.openingOwned key = s.calls.countP (OpenCall.holdsOwner key)
  positive : ∀ key n, s.openingOwners.get key = some n → 0 < n

/-- What the server counts. -/
def counters (s : ObservableSessions) : ℤ × ℤ × InsertionMap String ℤ :=
  (s.openingObservableSessions, s.openingSnapshots, s.openingOwners)

@[simp] theorem counters_update (s : ObservableSessions) (k : ℕ) (c : OpenCall) :
    (s.update k c).counters = s.counters := rfl

@[simp] theorem counters_activate (s : ObservableSessions) (k : ℕ) (c : OpenCall) :
    (s.activate k c).counters = s.counters := by
  rw [activate]
  cases c.admission <;> rfl

@[simp] theorem counters_onRelease (s : ObservableSessions) (k : ℕ) (c : OpenCall) :
    (s.onRelease k c).counters = s.counters := by
  rw [onRelease, counters_update]
  split_ifs <;> rfl

@[simp] theorem counters_closeSession (s : ObservableSessions) (k : ℕ) (c : OpenCall) :
    (s.closeSession k c).counters = s.counters := by
  rw [closeSession]
  split_ifs
  · rfl
  · exact s.counters_onRelease k c

@[simp] theorem counters_onClose (s : ObservableSessions) (k : ℕ) (c : OpenCall) :
    (s.onClose k c).counters = s.counters := by
  rw [onClose, counters_update]
  split_ifs <;> rfl

/-- A change of a record that is not counted. -/
theorem Counted.change {s t : ObservableSessions} (hs : s.Counted) {k : ℕ} {c c' : OpenCall}
    (hk : s.calls[k]? = some c) (hcalls : t.calls = s.calls.set k c')
    (hcounters : t.counters = s.counters) (hflight : c'.inFlight = c.inFlight)
    (hadmission : c'.admission = c.admission) (hkey : c'.key = c.key)
    (hreleased : c'.ownerReleased = c.ownerReleased) : t.Counted := by
  simp only [counters, Prod.mk.injEq] at hcounters
  obtain ⟨hsubscriptions, hsnapshots, howners⟩ := hcounters
  refine ⟨?_, ?_, ?_, ?_⟩
  · rw [hsubscriptions, hcalls, hs.subscriptions, Ledger.countP_set_of_eq _ _ hk]
    simp [OpenCall.opensSubscription, hflight, hadmission]
  · rw [hsnapshots, hcalls, hs.snapshots, Ledger.countP_set_of_eq _ _ hk]
    simp [OpenCall.opensSnapshot, hflight, hadmission]
  · intro key
    rw [hcalls, Ledger.countP_set_of_eq _ _ hk, ← hs.owners, openingOwned, openingOwned, howners]
    simp [OpenCall.holdsOwner, OpenCall.opensSubscription, hflight, hadmission, hkey, hreleased]
  · rw [howners]
    exact hs.positive

theorem get_decrementOwner {owners : InsertionMap String ℤ} {key : String} {n : ℤ}
    (h : owners.get key = some n) (other : String) :
    ((decrementOwner owners key).get other).getD 0 =
      (owners.get other).getD 0 - if key = other then 1 else 0 := by
  simp only [decrementOwner, h, Option.getD_some]
  by_cases hkey : key = other
  · subst hkey
    rw [if_pos rfl, h, Option.getD_some]
    by_cases hlast : n - 1 = 0
    · rw [if_neg (by simpa using hlast), InsertionMap.get_delete_self, Option.getD_none, hlast]
    · rw [if_pos hlast, InsertionMap.get_set_self, Option.getD_some]
  · have hne : other ≠ key := Ne.symm hkey
    rw [if_neg hkey, Int.sub_zero]
    by_cases hlast : n - 1 = 0
    · rw [if_neg (by simpa using hlast), InsertionMap.get_delete_of_ne _ hne]
    · rw [if_pos hlast, InsertionMap.get_set_of_ne _ _ hne]

theorem decrementOwner_pos {owners : InsertionMap String ℤ} {key : String} {n : ℤ}
    (h : owners.get key = some n) (hpos : ∀ other m, owners.get other = some m → 0 < m)
    {other : String} {m : ℤ} (hm : (decrementOwner owners key).get other = some m) : 0 < m := by
  have hn := hpos key n h
  simp only [decrementOwner, h, Option.getD_some] at hm
  by_cases hkey : other = key
  · subst hkey
    by_cases hlast : n - 1 = 0
    · rw [if_neg (by simpa using hlast), InsertionMap.get_delete_self] at hm
      cases hm
    · rw [if_pos hlast, InsertionMap.get_set_self] at hm
      obtain rfl := Option.some.inj hm
      omega
  · refine hpos other m ?_
    by_cases hlast : n - 1 = 0
    · rwa [if_neg (by simpa using hlast), InsertionMap.get_delete_of_ne _ hkey] at hm
    · rwa [if_pos hlast, InsertionMap.get_set_of_ne _ _ hkey] at hm

theorem Counted.releaseOwner {s : ObservableSessions} (hs : s.Counted) {k : ℕ} {c : OpenCall}
    (hk : s.calls[k]? = some c) (hopens : c.opensSubscription = true) :
    (s.releaseOwner k c).Counted := by
  simp only [ObservableSessions.releaseOwner]
  by_cases hreleased : c.ownerReleased = true
  · rw [if_pos hreleased]
    exact hs
  · rw [if_neg hreleased]
    have hholds : ∀ key, OpenCall.holdsOwner key c = decide (c.key = key) := by
      intro key
      simp [OpenCall.holdsOwner, hopens, hreleased]
    have hcount := fun key => Ledger.countP_set (OpenCall.holdsOwner key)
      { c with ownerReleased := true } hk
    have hafter : ∀ key, OpenCall.holdsOwner key { c with ownerReleased := true } = false := by
      intro key
      simp [OpenCall.holdsOwner]
    have hstored : ∃ n, s.openingOwners.get c.key = some n ∧
        n = s.calls.countP (OpenCall.holdsOwner c.key) := by
      have howned := hs.owners c.key
      have hpos : 0 < s.calls.countP (OpenCall.holdsOwner c.key) :=
        List.countP_pos_iff.2 ⟨c, List.mem_of_getElem? hk, by simp [hholds]⟩
      rw [openingOwned] at howned
      cases hget : s.openingOwners.get c.key with
      | none =>
          rw [hget, Option.getD_none] at howned
          omega
      | some n => exact ⟨n, rfl, by rwa [hget, Option.getD_some] at howned⟩
    obtain ⟨n, hget, hn⟩ := hstored
    refine ⟨?_, ?_, ?_, fun key m hm => decrementOwner_pos hget hs.positive hm⟩
    · refine hs.subscriptions.trans ?_
      simp only [update]
      rw [Ledger.countP_set_of_eq _ _ hk]
      rfl
    · refine hs.snapshots.trans ?_
      simp only [update]
      rw [Ledger.countP_set_of_eq _ _ hk]
      rfl
    · intro key
      have hkeycount := hcount key
      have howned := hs.owners key
      rw [hafter, hholds] at hkeycount
      rw [openingOwned] at howned ⊢
      simp only [update]
      rw [get_decrementOwner hget, howned]
      by_cases hkey : c.key = key
      · simp only [hkey, decide_true, if_true, Bool.false_eq_true, if_false] at hkeycount ⊢
        omega
      · simp only [hkey, decide_false, Bool.false_eq_true, if_false] at hkeycount ⊢
        omega

theorem finish_snapshot (s : ObservableSessions) (k : ℕ) {c : OpenCall}
    (h : c.admission = .snapshot) :
    s.finish k c = update { s with openingSnapshots := s.openingSnapshots - 1 } k
      { c with phase := .settled } := by
  rw [finish]
  split
  · rfl
  · rename_i h'
    cases h.symm.trans h'

theorem finish_subscription (s : ObservableSessions) (k : ℕ) {c : OpenCall}
    (h : c.admission = .subscription) :
    s.finish k c = update { s.releaseOwner k c with
      openingObservableSessions := s.openingObservableSessions - 1 } k
      { c with ownerReleased := true, phase := .settled } := by
  rw [finish]
  split
  · rename_i h'
    cases h.symm.trans h'
  · rfl

theorem Counted.finish {s : ObservableSessions} (hs : s.Counted) {k : ℕ} {c : OpenCall}
    (hk : s.calls[k]? = some c) (hflight : c.inFlight = true) : (s.finish k c).Counted := by
  rcases hadmission : c.admission with _ | _
  · have hopens : c.opensSubscription = true := by
      simp [OpenCall.opensSubscription, hflight, hadmission]
    have hreleased := hs.releaseOwner hk hopens
    have hk' := getElem?_of_calls hk (calls_releaseOwner hk)
    have hcount := Ledger.countP_set OpenCall.opensSubscription
      { c with ownerReleased := true, phase := .settled } hk'
    have hbefore : OpenCall.opensSubscription { c with ownerReleased := true } = true := hopens
    have hafter : OpenCall.opensSubscription
      { c with ownerReleased := true, phase := .settled } = false := rfl
    have hsame : (s.releaseOwner k c).openingObservableSessions =
        s.openingObservableSessions := by
      simp only [ObservableSessions.releaseOwner]
      split_ifs <;> rfl
    rw [hbefore, hafter] at hcount
    rw [finish_subscription s k hadmission]
    refine ⟨?_, ?_, ?_, hreleased.positive⟩
    · have hbalance := hreleased.subscriptions
      simp only [update, Bool.false_eq_true, if_false, if_true] at hcount ⊢
      omega
    · refine hreleased.snapshots.trans ?_
      simp only [update]
      rw [Ledger.countP_set_of_eq _ _ hk']
      simp [OpenCall.opensSnapshot, hadmission]
    · intro key
      refine (hreleased.owners key).trans ?_
      simp only [update]
      rw [Ledger.countP_set_of_eq _ _ hk']
      simp [OpenCall.holdsOwner]
  · have hcount := Ledger.countP_set OpenCall.opensSnapshot { c with phase := .settled } hk
    have hbefore : c.opensSnapshot = true := by simp [OpenCall.opensSnapshot, hflight, hadmission]
    have hafter : OpenCall.opensSnapshot { c with phase := .settled } = false := rfl
    rw [hbefore, hafter] at hcount
    rw [finish_snapshot s k hadmission]
    refine ⟨?_, ?_, ?_, hs.positive⟩
    · refine hs.subscriptions.trans ?_
      simp only [update]
      rw [Ledger.countP_set_of_eq _ _ hk]
      simp [OpenCall.opensSubscription, hadmission]
    · have hbalance := hs.snapshots
      simp only [update, Bool.false_eq_true, if_false, if_true] at hcount ⊢
      omega
    · intro key
      refine (hs.owners key).trans ?_
      simp only [update]
      rw [Ledger.countP_set_of_eq _ _ hk]
      simp [OpenCall.holdsOwner, OpenCall.opensSubscription, hadmission]

theorem Counted.abort {s : ObservableSessions} (hs : s.Counted) {k : ℕ} {c : OpenCall}
    (hk : s.calls[k]? = some c) : (s.abort k c).Counted := by
  rw [ObservableSessions.abort]
  split_ifs with hopens
  · exact (hs.releaseOwner hk hopens).change (getElem?_of_calls hk (calls_releaseOwner hk)) rfl
      rfl rfl rfl rfl rfl
  · exact hs.change hk rfl rfl rfl rfl rfl rfl

theorem Counted.opened {s : ObservableSessions} (hs : s.Counted) {k : ℕ} {c : OpenCall}
    (hk : s.calls[k]? = some c) (hphase : c.phase = .opening) (rejected : Bool) :
    (s.opened k c rejected).Counted := by
  have hflight : c.inFlight = true := by simp [OpenCall.inFlight, hphase]
  have hheld : (s.hold k c).Counted := hs.change hk rfl rfl rfl rfl rfl rfl
  have hk' : (s.hold k c).calls[k]? = some { c with held := true } := getElem?_update hk
  rw [ObservableSessions.opened]
  split_ifs
  · have hclosed := hheld.change hk' (calls_closeSession hk') (counters_closeSession _ _ _)
      rfl rfl rfl rfl
    exact hclosed.change (getElem?_of_calls hk' (calls_closeSession hk')) rfl rfl
      hflight.symm rfl rfl rfl
  · exact hheld.finish hk' hflight
  · have hlive := hheld.change hk' (calls_activate _ k { c with held := true })
      (counters_activate _ _ _) rfl rfl rfl rfl
    exact hlive.finish (getElem?_of_calls hk' (calls_activate _ _ _)) hflight

/-- A subscription enters the ledger with its counters. -/
theorem Counted.startSubscription {s : ObservableSessions} (hs : s.Counted) (key : String)
    (created : Bool) :
    (ObservableSessions.start { s with
      openingOwners := s.openingOwners.set key (s.openingOwned key + 1)
      openingObservableSessions := s.openingObservableSessions + 1 } key .subscription
        created).Counted where
  subscriptions := by
    have hbefore := hs.subscriptions
    simp [ObservableSessions.start, OpenCall.started, OpenCall.opensSubscription,
      OpenCall.inFlight, hbefore]
  snapshots := by
    have hbefore := hs.snapshots
    simp [ObservableSessions.start, OpenCall.started, OpenCall.opensSnapshot, hbefore]
  owners := by
    intro other
    have hbefore := hs.owners other
    have hnew : OpenCall.holdsOwner other (.started key .subscription created) =
        decide (key = other) := rfl
    rw [openingOwned] at hbefore ⊢
    simp only [ObservableSessions.start, List.countP_append, List.countP_singleton, hnew]
    by_cases hkey : key = other
    · subst hkey
      rw [InsertionMap.get_set_self, Option.getD_some, openingOwned, hbefore]
      simp
    · rw [InsertionMap.get_set_of_ne _ _ (Ne.symm hkey), hbefore]
      simp [hkey]
  positive := by
    intro other n hn
    have hcount : 0 ≤ s.openingOwned key := by
      rw [hs.owners]
      exact Int.natCast_nonneg _
    by_cases hkey : other = key
    · subst hkey
      simp only [ObservableSessions.start, InsertionMap.get_set_self, Option.some.injEq] at hn
      omega
    · simp only [ObservableSessions.start, InsertionMap.get_set_of_ne _ _ hkey] at hn
      exact hs.positive other n hn

/-- A snapshot enters the ledger with its counter. -/
theorem Counted.startSnapshot {s : ObservableSessions} (hs : s.Counted) (key : String)
    (created : Bool) :
    (ObservableSessions.start { s with openingSnapshots := s.openingSnapshots + 1 } key .snapshot
      created).Counted where
  subscriptions := by
    have hbefore := hs.subscriptions
    simp [ObservableSessions.start, OpenCall.started, OpenCall.opensSubscription, hbefore]
  snapshots := by
    have hbefore := hs.snapshots
    simp [ObservableSessions.start, OpenCall.started, OpenCall.opensSnapshot,
      OpenCall.inFlight, hbefore]
  owners := by
    intro other
    have hbefore := hs.owners other
    rw [openingOwned] at hbefore ⊢
    simp [ObservableSessions.start, OpenCall.started, OpenCall.holdsOwner,
      OpenCall.opensSubscription, hbefore]
  positive := hs.positive

/-! ### Every event of a call keeps both -/

theorem Fitting.stepCall {s t : ObservableSessions} (hs : s.Fitting) {k : ℕ} {c : OpenCall}
    (hk : s.calls[k]? = some c) (hnew : c.phase = .opening → c.live = false) {e : SessionEvent}
    (h : s.stepCall k c e = some t) : t.Fitting := by
  cases e with
  | abort _ =>
      obtain rfl := Option.some.inj h
      exact hs.abort hk
  | opened _ rejected =>
      simp only [ObservableSessions.stepCall] at h
      split_ifs at h with hguard
      obtain rfl := Option.some.inj h
      simp only [Bool.and_eq_true, decide_eq_true_eq] at hguard
      exact hs.opened hk hguard.1.1 (hnew hguard.1.2) hguard.2
  | failed _ | closedDisposed _ =>
      simp only [ObservableSessions.stepCall] at h
      split_ifs at h
      obtain rfl := Option.some.inj h
      exact hs.finish hk
  | reserve _ =>
      simp only [ObservableSessions.stepCall] at h
      split_ifs at h with hguard
      obtain rfl := Option.some.inj h
      simp only [Bool.and_eq_true, decide_eq_true_eq] at hguard
      obtain ⟨⟨hlive, -⟩, hopen⟩ := hguard
      cases hreserved : s.reserveSession k c with
      | none => exact hs
      | some t =>
          refine hs.reserveSession hk hlive ?_ hreserved
          simp only [ObservableSessions.reserveSession] at hreserved
          split_ifs at hreserved with hcapacity
          by_contra hreleased
          simp_all [hasSessionCapacity]
  | release _ =>
      simp only [ObservableSessions.stepCall] at h
      split_ifs at h with hguard
      obtain rfl := Option.some.inj h
      simp only [Bool.and_eq_true, Bool.not_eq_true'] at hguard
      exact hs.onRelease hk hguard.1 hguard.2
  | close _ =>
      simp only [ObservableSessions.stepCall] at h
      split_ifs at h with hguard
      obtain rfl := Option.some.inj h
      simp only [Bool.and_eq_true, Bool.not_eq_true'] at hguard
      exact hs.onClose hk hguard.1
  | openSession | markDisposed | disposeServices => cases h

theorem Counted.stepCall {s t : ObservableSessions} (hs : s.Counted) {k : ℕ} {c : OpenCall}
    (hk : s.calls[k]? = some c) {e : SessionEvent} (h : s.stepCall k c e = some t) :
    t.Counted := by
  cases e with
  | abort _ =>
      obtain rfl := Option.some.inj h
      exact hs.abort hk
  | opened _ rejected =>
      simp only [ObservableSessions.stepCall] at h
      split_ifs at h with hguard
      obtain rfl := Option.some.inj h
      simp only [Bool.and_eq_true, decide_eq_true_eq] at hguard
      exact hs.opened hk hguard.1.2 rejected
  | failed _ | closedDisposed _ =>
      simp only [ObservableSessions.stepCall] at h
      split_ifs at h with hphase
      obtain rfl := Option.some.inj h
      exact hs.finish hk (by simp [OpenCall.inFlight, hphase])
  | reserve _ =>
      simp only [ObservableSessions.stepCall] at h
      split_ifs at h
      obtain rfl := Option.some.inj h
      rw [reserveSession]
      split_ifs
      · exact hs
      · exact hs.change hk rfl rfl rfl rfl rfl rfl
  | release _ =>
      simp only [ObservableSessions.stepCall] at h
      split_ifs at h
      obtain rfl := Option.some.inj h
      exact hs.change hk (calls_onRelease s k c) (counters_onRelease s k c) rfl rfl rfl rfl
  | close _ =>
      simp only [ObservableSessions.stepCall] at h
      split_ifs at h
      obtain rfl := Option.some.inj h
      exact hs.change hk (calls_onClose s k c) (counters_onClose s k c) rfl rfl rfl rfl
  | openSession | markDisposed | disposeServices => cases h

end ObservableSessions

end Arc.Observable
