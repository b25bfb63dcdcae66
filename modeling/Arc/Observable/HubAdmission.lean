import Arc.Observable.ObservableQueryHub

/-!
# Admission to the hub

A connection is in the table exactly while its `onClose` has not run (`Sound.tracked`), so the
size of the table is the number of slots in use and every step that adds to it has checked the
limits. A connection calls `onClose` at most once; one whose close has settled has called it,
unless its output threw in a close of its own (`slots_freed_iff`).
-/

namespace Arc.Observable.ObservableQueryHub

/-! ### The life of one connection -/

namespace Lifetime

/-- What holds of a connection at every moment. -/
structure Sound (lifetime : Lifetime) : Prop where
  closes : lifetime.closes = if lifetime.released then 1 else 0
  uncoordinated : lifetime.closing = some .scheduled ∨ lifetime.closing = some .draining →
    lifetime.transportClosing = none
  coordinated : lifetime.closing = some .racing → lifetime.transportClosing ≠ none
  unreleased : lifetime.transportClosing = none → lifetime.closing ≠ some .settled →
    lifetime.released = false
  owned : lifetime.transportClosing = none → ∀ delivery ∈ lifetime.deliveries, delivery = .closing
  aliased : .closing ∈ lifetime.deliveries → lifetime.closing ≠ none
  joined : .settled ∈ lifetime.deliveries → lifetime.released = true

/-- A close or a join that has settled has called `onClose`. -/
def Accounted (lifetime : Lifetime) : Prop :=
  lifetime.closeSettled ∨ lifetime.joinSettled → lifetime.closes = 1

variable {lifetime lifetime' : Lifetime} {output : OutputClose}

theorem Sound.closes_le_one (h : lifetime.Sound) : lifetime.closes ≤ 1 := by
  rw [h.closes]
  split_ifs <;> omega

/-- Before the close has settled, only a delivery of its own can have. -/
theorem Sound.accounted (h : lifetime.Sound) (hclosing : ¬ lifetime.closeSettled) :
    lifetime.Accounted := by
  rintro (hsettled | hsettled | hsettled)
  · exact absurd hsettled hclosing
  · rw [h.closes, h.joined hsettled, if_pos rfl]
  · exact absurd hsettled.2 hclosing

/-! #### The steps -/

theorem sound_new : ({} : Lifetime).Sound where
  closes := rfl
  uncoordinated _ := rfl
  coordinated h := by cases h
  unreleased _ _ := rfl
  owned _ _ h := absurd h List.not_mem_nil
  aliased h := absurd h List.not_mem_nil
  joined h := absurd h List.not_mem_nil

theorem accounted_new : ({} : Lifetime).Accounted :=
  sound_new.accounted fun h => by cases h

theorem Sound.joinReleased (h : lifetime.Sound) (htransport : lifetime.transportClosing ≠ none) :
    lifetime.joinReleased.Sound where
  closes := h.closes
  uncoordinated := h.uncoordinated
  coordinated := h.coordinated
  unreleased := h.unreleased
  owned hnone := absurd hnone htransport
  aliased hmem := h.aliased (by simpa [Lifetime.joinReleased] using hmem)
  joined hmem := h.joined (by simpa [Lifetime.joinReleased] using hmem)

theorem Sound.race (h : lifetime.Sound) (htransport : lifetime.transportClosing ≠ none) :
    { lifetime with closing := some .racing }.Sound where
  closes := h.closes
  uncoordinated hnot := by
    rcases hnot with hnot | hnot
    · cases hnot
    · cases hnot
  coordinated _ := htransport
  unreleased hnone := absurd hnone htransport
  owned := h.owned
  aliased _ hnone := by cases hnone
  joined := h.joined

theorem Sound.close (h : lifetime.Sound) : lifetime.close.Sound := by
  unfold Lifetime.close
  split_ifs with hclosing htransport hdeliveries
  · exact h
  · have htransport : lifetime.transportClosing = none := by simpa using htransport
    have hclosing : lifetime.closing = none := by simpa using hclosing
    exact { h with
      uncoordinated := fun _ => htransport
      coordinated := fun hnot => by cases hnot
      unreleased := fun _ _ => h.unreleased htransport (by simp [hclosing])
      aliased := fun _ hnone => by cases hnone }
  · have htransport : lifetime.transportClosing ≠ none := by simpa using htransport
    exact (h.joinReleased htransport).race htransport
  · exact h.race (by simpa using htransport)

theorem Sound.transport (h : lifetime.Sound) (hclosing : lifetime.closing = none) :
    { lifetime with transportClosing := some output }.Sound :=
  { h with
    uncoordinated := fun hnot => by simp [hclosing] at hnot
    coordinated := fun _ hnone => by cases hnone
    unreleased := fun hnone => by cases hnone
    owned := fun hnone => by cases hnone }

theorem Sound.releaseTransport (h : lifetime.Sound) :
    (lifetime.releaseTransport output).Sound := by
  unfold Lifetime.releaseTransport
  split_ifs with htransport hclosing haborts
  · exact h
  · exact h
  · exact (h.transport (by simpa using hclosing)).close
  · exact h.transport (by simpa using hclosing)

theorem transportClosing_close :
    lifetime.close.transportClosing = lifetime.transportClosing := by
  unfold Lifetime.close Lifetime.joinReleased
  split_ifs <;> rfl

/-- The transport is released, unless a close of its own owns it. -/
theorem transportClosing_releaseTransport
    (h : ¬ (lifetime.closing ≠ none ∧ lifetime.transportClosing = none)) :
    (lifetime.releaseTransport output).transportClosing ≠ none := by
  unfold Lifetime.releaseTransport
  split_ifs with htransport hclosing haborts
  · exact Option.isSome_iff_ne_none.1 htransport
  · exact fun hnone => h ⟨Option.isSome_iff_ne_none.1 hclosing, hnone⟩
  · rw [transportClosing_close]
    exact fun hnone => by cases hnone
  · exact fun hnone => by cases hnone

theorem Sound.joinDelivery (h : lifetime.Sound) : (lifetime.joinDelivery output).Sound := by
  unfold Lifetime.joinDelivery
  split_ifs with hdeliveries hclosing
  · exact h
  · exact { h with
      owned := fun hnone delivery hmem => by
        rcases List.mem_append.1 hmem with hmem | hmem
        · exact h.owned hnone delivery hmem
        · exact List.mem_singleton.1 hmem
      aliased := fun _ => Option.isSome_iff_ne_none.1 hclosing.1
      joined := fun hmem => h.joined (by simpa using hmem) }
  · exact h.releaseTransport.joinReleased
      (transportClosing_releaseTransport fun hnot =>
        hclosing ⟨Option.isSome_iff_ne_none.2 hnot.1, Option.isNone_iff_eq_none.2 hnot.2⟩)

theorem Sound.closeBegins (h : lifetime.Sound)
    (hstep : lifetime.closeBegins output = some lifetime') :
    lifetime'.Sound ∧ lifetime'.closes = lifetime.closes ∧
      (lifetime'.Accounted ↔ output.throws = false) := by
  unfold Lifetime.closeBegins at hstep
  by_cases hclosing : lifetime.closing = some .scheduled
  · rw [if_pos hclosing] at hstep
    cases hstep
    have htransport := h.uncoordinated (.inl hclosing)
    have hreleased := h.unreleased htransport (by simp [hclosing])
    have hsound : ∀ closing, closing ≠ .racing → { lifetime with closing := some closing }.Sound :=
      fun closing hne => { h with
        uncoordinated := fun _ => htransport
        coordinated := fun hracing => absurd (Option.some.inj hracing) hne
        unreleased := fun _ _ => hreleased
        aliased := fun _ hnone => by cases hnone }
    refine ⟨hsound _ (by cases output.throws <;> decide), rfl, ?_⟩
    cases hthrows : output.throws with
    | true =>
        refine iff_of_false (fun haccounted => ?_) (by decide)
        have hone : lifetime.closes = 1 := haccounted (.inl rfl)
        rw [h.closes, hreleased] at hone
        cases hone
    | false =>
        exact iff_of_true ((hsound .draining (by decide)).accounted fun hnot => by cases hnot) rfl
  · rw [if_neg hclosing] at hstep
    cases hstep

theorem Sound.closeEnds (h : lifetime.Sound) (hstep : lifetime.closeEnds = some lifetime') :
    lifetime'.Sound ∧ lifetime'.closes = 1 := by
  unfold Lifetime.closeEnds at hstep
  split_ifs at hstep with hclosing
  cases hstep
  have hreleased := h.unreleased (h.uncoordinated (.inr hclosing)) (by simp [hclosing])
  have hcloses : lifetime.closes + 1 = 1 := by simp [h.closes, hreleased]
  have hsound : { lifetime with
      closing := some .settled, released := true, closes := lifetime.closes + 1 }.Sound :=
    { h with
      closes := hcloses
      uncoordinated := fun _ => h.uncoordinated (.inr hclosing)
      coordinated := fun hnot => by cases hnot
      unreleased := fun _ hnot => absurd rfl hnot
      aliased := fun _ hnone => by cases hnone
      joined := fun _ => rfl }
  exact ⟨hsound, hcloses⟩

theorem releaseConnection_eq (lifetime : Lifetime) :
    lifetime.releaseConnection.closing = lifetime.closing ∧
      lifetime.releaseConnection.transportClosing = lifetime.transportClosing ∧
      lifetime.releaseConnection.deliveries = lifetime.deliveries ∧
      lifetime.releaseConnection.released = true := by
  unfold Lifetime.releaseConnection
  split_ifs with h
  · exact ⟨rfl, rfl, rfl, h⟩
  · exact ⟨rfl, rfl, rfl, rfl⟩

theorem Sound.closes_releaseConnection (h : lifetime.Sound) :
    lifetime.releaseConnection.closes = 1 := by
  unfold Lifetime.releaseConnection
  split_ifs with hreleased
  · rw [h.closes, if_pos hreleased]
  · rw [h.closes, if_neg hreleased]

/-- `onClose` runs now, or has run. -/
theorem Sound.release (h : lifetime.Sound) (htransport : lifetime.transportClosing ≠ none) :
    lifetime.releaseConnection.Sound := by
  obtain ⟨hclosing, htransport', hdeliveries, hreleased⟩ := releaseConnection_eq lifetime
  refine ⟨?_, ?_, ?_, fun hnone => ?_, fun hnone => ?_, ?_, fun _ => hreleased⟩
  · rw [hreleased, if_pos rfl, h.closes_releaseConnection]
  · rw [hclosing, htransport']
    exact h.uncoordinated
  · rw [hclosing, htransport']
    exact h.coordinated
  · exact absurd (htransport'.symm.trans hnone) htransport
  · exact absurd (htransport'.symm.trans hnone) htransport
  · rw [hdeliveries, hclosing]
    exact h.aliased

theorem Sound.raceEnds (h : lifetime.Sound) (hstep : lifetime.raceEnds = some lifetime') :
    lifetime'.Sound ∧ lifetime'.closes = 1 := by
  unfold Lifetime.raceEnds at hstep
  split_ifs at hstep with hclosing
  cases hstep
  have htransport := h.coordinated hclosing
  obtain ⟨-, htransport', -, -⟩ := releaseConnection_eq lifetime
  have hrelease := h.release htransport
  have hsound : { lifetime.releaseConnection with closing := some .settled }.Sound :=
    { hrelease with
      uncoordinated := fun hnot => by
        rcases hnot with hnot | hnot
        · cases hnot
        · cases hnot
      coordinated := fun hnot => by cases hnot
      unreleased := fun hnone => absurd (htransport'.symm.trans hnone) htransport
      aliased := fun _ hnone => by cases hnone }
  exact ⟨hsound, h.closes_releaseConnection⟩

theorem Sound.deliveryEnds {index : ℕ} (h : lifetime.Sound)
    (hstep : lifetime.deliveryEnds index = some lifetime') :
    lifetime'.Sound ∧ lifetime'.closes = 1 := by
  unfold Lifetime.deliveryEnds at hstep
  split_ifs at hstep with hdelivery
  cases hstep
  have htransport : lifetime.transportClosing ≠ none := fun hnone => by
    have halias := h.owned hnone _ (List.mem_of_getElem? hdelivery)
    cases halias
  obtain ⟨hclosing, htransport', -, hreleased⟩ := releaseConnection_eq lifetime
  have hrelease := h.release htransport
  have hsound : { lifetime.releaseConnection with
      deliveries := lifetime.deliveries.set index .settled }.Sound :=
    { hrelease with
      owned := fun hnone => absurd (htransport'.symm.trans hnone) htransport
      aliased := fun hmem => by
        rcases List.mem_or_eq_of_mem_set hmem with hmem | hmem
        · exact hclosing ▸ h.aliased hmem
        · cases hmem
      joined := fun _ => hreleased }
  exact ⟨hsound, h.closes_releaseConnection⟩

/-! #### Calls that settle nothing -/

/-- Neither `onClose` has run nor a close has settled. -/
structure Quiet (lifetime lifetime' : Lifetime) : Prop where
  closes : lifetime'.closes = lifetime.closes
  closeSettled : lifetime'.closeSettled → lifetime.closeSettled

theorem Quiet.accounted (h : Quiet lifetime lifetime') (hsound : lifetime'.Sound)
    (haccounted : lifetime.Accounted) : lifetime'.Accounted := by
  by_cases hsettled : lifetime'.closeSettled
  · intro _
    rw [h.closes, haccounted (.inl (h.closeSettled hsettled))]
  · exact hsound.accounted hsettled

theorem quiet_close (lifetime : Lifetime) : Quiet lifetime lifetime.close := by
  unfold Lifetime.close Lifetime.joinReleased
  split_ifs
  · exact ⟨rfl, id⟩
  · exact ⟨rfl, fun h => by cases h⟩
  · exact ⟨rfl, fun h => by cases h⟩
  · exact ⟨rfl, fun h => by cases h⟩

theorem quiet_releaseTransport (lifetime : Lifetime) (output : OutputClose) :
    Quiet lifetime (lifetime.releaseTransport output) := by
  unfold Lifetime.releaseTransport
  split_ifs
  · exact ⟨rfl, id⟩
  · exact ⟨rfl, id⟩
  · have hclose := quiet_close { lifetime with transportClosing := some output }
    exact ⟨hclose.closes, hclose.closeSettled⟩
  · exact ⟨rfl, id⟩

theorem quiet_joinDelivery (lifetime : Lifetime) (output : OutputClose) :
    Quiet lifetime (lifetime.joinDelivery output) := by
  unfold Lifetime.joinDelivery
  split_ifs
  · exact ⟨rfl, id⟩
  · exact ⟨rfl, id⟩
  · have hrelease := quiet_releaseTransport lifetime output
    exact ⟨hrelease.closes, hrelease.closeSettled⟩

end Lifetime

/-! ### The table -/

namespace Hub

/-- The table holds the connections whose `onClose` has not run, within the limits. -/
structure Sound (limits : ObservableLimits) (hub : Hub) : Prop where
  lifetimes : ∀ lifetime ∈ hub.lifetimes, lifetime.Sound
  tracked : ∀ id, hub.connections.get id ≠ none ↔
    ∃ lifetime, hub.lifetimes[id]? = some lifetime ∧ lifetime.closes = 0
  size : hub.connections.size ≤ limits.hubConnections
  perCaller : ∀ key, (hub.ofCaller key).length ≤ limits.hubConnectionsPerCaller

def Accounted (hub : Hub) : Prop := ∀ lifetime ∈ hub.lifetimes, lifetime.Accounted

variable {limits : ObservableLimits} {hub hub' : Hub}

theorem sound_init : ({} : Hub).Sound limits where
  lifetimes _ h := absurd h List.not_mem_nil
  tracked id := by simp
  size := Nat.zero_le _
  perCaller _ := Nat.zero_le _

theorem canAdmit_bounds {context : ExecutionContext} (h : hub.canAdmit limits context = true) :
    hub.connections.size < limits.hubConnections ∧
      (hub.ofCaller (observableCallerKey context)).length < limits.hubConnectionsPerCaller := by
  simp only [canAdmit, Bool.and_eq_true, Bool.not_eq_true', Bool.or_eq_false_iff,
    decide_eq_true_eq, decide_eq_false_iff_not] at h
  exact ⟨Nat.lt_of_not_le h.1.2, h.2⟩

theorem Sound.connect (h : hub.Sound limits) (protocol : Protocol) (authenticationFailed : Bool)
    (context : ExecutionContext) :
    (hub.connect limits protocol authenticationFailed context).Sound limits := by
  unfold Hub.connect
  split_ifs with hrefused
  · exact h
  have hadmitted : hub.canAdmit limits context = true := by
    cases hcan : hub.canAdmit limits context with
    | true => rfl
    | false => simp [hcan] at hrefused
  obtain ⟨hsize, hcaller⟩ := canAdmit_bounds hadmitted
  have hfresh : hub.connections.get hub.lifetimes.length = none := by
    by_contra hsome
    obtain ⟨lifetime, hget, -⟩ := (h.tracked _).1 hsome
    simp at hget
  have hentries := InsertionMap.entries_set_of_not_mem (v := (⟨protocol, context⟩ : HubConnection))
    (InsertionMap.get_eq_none_iff.1 hfresh)
  refine ⟨?_, fun id => ?_, ?_, fun key => ?_⟩
  · intro lifetime hmem
    rcases List.mem_append.1 hmem with hmem | hmem
    · exact h.lifetimes lifetime hmem
    · rw [List.mem_singleton.1 hmem]
      exact Lifetime.sound_new
  · by_cases hid : id = hub.lifetimes.length
    · subst hid
      simp
    · rw [InsertionMap.get_set_of_ne _ _ hid, h.tracked]
      by_cases hlt : id < hub.lifetimes.length
      · rw [List.getElem?_append_left hlt]
      · rw [List.getElem?_eq_none (by omega), List.getElem?_eq_none (by simp; omega)]
  · rw [InsertionMap.size_set_of_not_mem hfresh]
    omega
  · unfold Hub.ofCaller
    rw [hentries, List.filter_append, List.length_append]
    have hkey := h.perCaller key
    unfold Hub.ofCaller at hkey hcaller
    by_cases heq : (⟨protocol, context⟩ : HubConnection).ownerKey = key
    · have hcaller' : observableCallerKey context = key := heq
      rw [List.filter_cons_of_pos (by simpa using heq)]
      rw [hcaller'] at hcaller
      exact hcaller
    · rw [List.filter_cons_of_neg (by simpa using heq)]
      exact hkey

/-- What a step of one connection does to the hub. -/
theorem update_eq_some {id : ℕ} {step : Lifetime → Option Lifetime}
    (hupdate : hub.update id step = some hub') :
    ∃ lifetime lifetime', hub.lifetimes[id]? = some lifetime ∧ step lifetime = some lifetime' ∧
      hub' = { hub with
        lifetimes := hub.lifetimes.set id lifetime'
        connections := if lifetime'.closes = lifetime.closes then hub.connections
          else hub.connections.delete id } := by
  obtain ⟨lifetime, hget, hstep⟩ := Option.bind_eq_some_iff.1 hupdate
  obtain ⟨lifetime', hmoved, rfl⟩ := Option.map_eq_some_iff.1 hstep
  exact ⟨lifetime, lifetime', hget, hmoved, rfl⟩

theorem Sound.update (h : hub.Sound limits) {id : ℕ} {step : Lifetime → Option Lifetime}
    (hstep : ∀ lifetime lifetime', lifetime.Sound → step lifetime = some lifetime' →
      lifetime'.Sound ∧ lifetime.closes ≤ lifetime'.closes)
    (hupdate : hub.update id step = some hub') : hub'.Sound limits := by
  obtain ⟨lifetime, lifetime', hget, hmoved, rfl⟩ := update_eq_some hupdate
  have hlt := (List.getElem?_eq_some_iff.1 hget).1
  obtain ⟨hsound, hle⟩ := hstep lifetime lifetime' (h.lifetimes _ (List.mem_of_getElem? hget)) hmoved
  have hset : ∀ other, (hub.lifetimes.set id lifetime')[other]? =
      if id = other then some lifetime' else hub.lifetimes[other]? := by
    intro other
    rw [List.getElem?_set]
    split_ifs with heq
    · rfl
    · rfl
  refine ⟨fun other hmem => ?_, fun other => ?_, ?_, fun key => ?_⟩
  · rcases List.mem_or_eq_of_mem_set hmem with hmem | rfl
    · exact h.lifetimes other hmem
    · exact hsound
  · show (if lifetime'.closes = lifetime.closes then hub.connections
        else hub.connections.delete id).get other ≠ none ↔ _
    dsimp only
    rw [hset]
    by_cases heq : id = other
    · subst heq
      have htracked := h.tracked id
      rw [hget] at htracked
      rw [if_pos rfl]
      split_ifs with hcloses
      · rw [htracked]
        simp [hcloses]
      · rw [InsertionMap.get_delete_self]
        simp
        omega
    · rw [if_neg heq]
      split_ifs
      · exact h.tracked other
      · rw [InsertionMap.get_delete_of_ne _ (Ne.symm heq)]
        exact h.tracked other
  · dsimp only
    split_ifs
    · exact h.size
    · exact Nat.le_trans (InsertionMap.size_delete_le _ _) h.size
  · have hkey := h.perCaller key
    unfold Hub.ofCaller at hkey ⊢
    dsimp only
    split_ifs
    · exact hkey
    · exact Nat.le_trans (List.filter_sublist.filter _).length_le hkey

theorem accounted_update {id : ℕ} {step : Lifetime → Option Lifetime} {clean : Prop}
    (hstep : ∀ lifetime lifetime', lifetime ∈ hub.lifetimes → lifetime.Accounted →
      step lifetime = some lifetime' → (lifetime'.Accounted ↔ clean))
    (hupdate : hub.update id step = some hub') (hall : hub.Accounted) :
    hub'.Accounted ↔ clean := by
  obtain ⟨lifetime, lifetime', hget, hmoved, rfl⟩ := update_eq_some hupdate
  have hlt := (List.getElem?_eq_some_iff.1 hget).1
  have hmem := List.mem_of_getElem? hget
  rw [← hstep lifetime lifetime' hmem (hall _ hmem) hmoved]
  constructor
  · exact fun h => h lifetime' (List.mem_set hlt _)
  · intro h other hmem
    rcases List.mem_or_eq_of_mem_set hmem with hmem | rfl
    · exact hall other hmem
    · exact h

/-- A call on one connection that settles nothing. -/
theorem Sound.call (h : hub.Sound limits) {id : ℕ} {call : Lifetime → Lifetime}
    (hcall : ∀ lifetime, lifetime.Sound → (call lifetime).Sound)
    (hquiet : ∀ lifetime, Lifetime.Quiet lifetime (call lifetime))
    (hupdate : hub.update id (fun lifetime => some (call lifetime)) = some hub') :
    hub'.Sound limits ∧ (hub.Accounted → (hub'.Accounted ↔ True)) := by
  refine ⟨h.update ?_ hupdate, accounted_update ?_ hupdate⟩
  · rintro lifetime _ hsound ⟨⟩
    exact ⟨hcall lifetime hsound, Nat.le_of_eq (hquiet lifetime).closes.symm⟩
  · rintro lifetime _ hmem haccounted ⟨⟩
    exact iff_of_true
      ((hquiet lifetime).accounted (hcall lifetime (h.lifetimes _ hmem)) haccounted) trivial

/-- A connection that has called `onClose` after the step. -/
theorem Sound.settle (h : hub.Sound limits) {id : ℕ} {step : Lifetime → Option Lifetime}
    (hstep : ∀ lifetime lifetime', lifetime.Sound → step lifetime = some lifetime' →
      lifetime'.Sound ∧ lifetime'.closes = 1)
    (hupdate : hub.update id step = some hub') :
    hub'.Sound limits ∧ (hub.Accounted → (hub'.Accounted ↔ True)) := by
  refine ⟨h.update ?_ hupdate, accounted_update ?_ hupdate⟩
  · intro lifetime lifetime' hsound hmoved
    obtain ⟨hsound', hcloses⟩ := hstep lifetime lifetime' hsound hmoved
    exact ⟨hsound', by rw [hcloses]; exact hsound.closes_le_one⟩
  · intro lifetime lifetime' hmem _ hmoved
    exact iff_of_true (fun _ => (hstep lifetime lifetime' (h.lifetimes _ hmem) hmoved).2) trivial

/-- A call on every connection that settles nothing. -/
theorem Sound.forEach (h : hub.Sound limits) {call : ℕ → Lifetime → Lifetime}
    (hcall : ∀ id lifetime, lifetime.Sound → (call id lifetime).Sound)
    (hquiet : ∀ id lifetime, Lifetime.Quiet lifetime (call id lifetime)) :
    (hub.forEach call).Sound limits ∧ (hub.Accounted → (hub.forEach call).Accounted) := by
  refine ⟨⟨fun lifetime hmem => ?_, fun id => ?_, h.size, h.perCaller⟩, fun hall => ?_⟩
  · obtain ⟨id, hid, rfl⟩ := List.mem_mapIdx.1 hmem
    have hsound := h.lifetimes _ (List.getElem_mem hid)
    split_ifs
    · exact hcall id _ hsound
    · exact hsound
  · refine (h.tracked id).trans ?_
    unfold Hub.forEach
    simp only [List.getElem?_mapIdx, Option.map_eq_some_iff]
    constructor
    · rintro ⟨lifetime, hget, hcloses⟩
      refine ⟨_, ⟨lifetime, hget, rfl⟩, ?_⟩
      split_ifs
      · rw [(hquiet id lifetime).closes, hcloses]
      · exact hcloses
    · rintro ⟨_, ⟨lifetime, hget, rfl⟩, hcloses⟩
      refine ⟨lifetime, hget, ?_⟩
      split_ifs at hcloses
      · rw [← (hquiet id lifetime).closes, hcloses]
      · exact hcloses
  · intro lifetime hmem
    obtain ⟨id, hid, rfl⟩ := List.mem_mapIdx.1 hmem
    have hsound := h.lifetimes _ (List.getElem_mem hid)
    have haccounted := hall _ (List.getElem_mem hid)
    split_ifs
    · exact (hquiet id _).accounted (hcall id _ hsound) haccounted
    · exact haccounted

end Hub

/-! ### Runs -/

/-- In a close of its own the output closes without throwing. -/
def Clean : HubEvent → Prop
  | .closeBegins _ output => output.throws = false
  | _ => True

instance : DecidablePred Clean
  | .closeBegins _ output => inferInstanceAs (Decidable (output.throws = false))
  | .connect .. | .close _ | .closeEnds _ | .raceEnds _ | .joinDelivery .. | .deliveryEnds ..
  | .stopAdmission | .coordinateShutdown _ | .dispose => isTrue trivial

variable {limits : ObservableLimits} {hub hub' : Hub} {event : HubEvent}

/-- What one event does: the table stays sound, and a connection is accounted for unless the
output of a close of its own has thrown. -/
theorem step_sound (h : hub.Sound limits) (hstep : step limits hub event = some hub') :
    hub'.Sound limits ∧ (hub.Accounted → (hub'.Accounted ↔ Clean event)) := by
  cases event with
  | connect protocol authenticationFailed context =>
      cases hstep
      refine ⟨h.connect protocol authenticationFailed context, fun hall => iff_of_true ?_ trivial⟩
      unfold Hub.connect
      split_ifs
      · exact hall
      · intro lifetime hmem
        rcases List.mem_append.1 hmem with hmem | hmem
        · exact hall lifetime hmem
        · rw [List.mem_singleton.1 hmem]
          exact Lifetime.accounted_new
  | close id => exact h.call (fun _ => Lifetime.Sound.close) Lifetime.quiet_close hstep
  | closeBegins id output =>
      refine ⟨h.update ?_ hstep, Hub.accounted_update ?_ hstep⟩
      · intro lifetime lifetime' hsound hmoved
        obtain ⟨hsound', hcloses, -⟩ := hsound.closeBegins hmoved
        exact ⟨hsound', Nat.le_of_eq hcloses.symm⟩
      · intro lifetime lifetime' hmem _ hmoved
        exact ((h.lifetimes _ hmem).closeBegins hmoved).2.2
  | closeEnds id => exact h.settle (fun _ _ => Lifetime.Sound.closeEnds) hstep
  | raceEnds id => exact h.settle (fun _ _ => Lifetime.Sound.raceEnds) hstep
  | joinDelivery id output =>
      exact h.call (fun _ => Lifetime.Sound.joinDelivery)
        (fun lifetime => Lifetime.quiet_joinDelivery lifetime output) hstep
  | deliveryEnds id index => exact h.settle (fun _ _ => Lifetime.Sound.deliveryEnds) hstep
  | stopAdmission =>
      cases hstep
      exact ⟨⟨h.lifetimes, h.tracked, h.size, h.perCaller⟩, fun hall => iff_of_true hall trivial⟩
  | coordinateShutdown outputs =>
      cases hstep
      have hstopped : { hub with disposed := true, stopping := true }.Sound limits :=
        ⟨h.lifetimes, h.tracked, h.size, h.perCaller⟩
      have hreleased : ∀ id lifetime, lifetime.Sound →
          (Lifetime.releaseTransport (outputs id) lifetime).Sound :=
        fun _ _ => Lifetime.Sound.releaseTransport
      obtain ⟨hsound, haccounted⟩ := hstopped.forEach hreleased
        (fun id lifetime => Lifetime.quiet_releaseTransport lifetime (outputs id))
      exact ⟨hsound, fun hall => iff_of_true (haccounted hall) trivial⟩
  | dispose =>
      cases hstep
      unfold Hub.dispose
      split_ifs
      · exact ⟨h, fun hall => iff_of_true hall trivial⟩
      · have hstopped : { hub with disposed := true }.Sound limits :=
          ⟨h.lifetimes, h.tracked, h.size, h.perCaller⟩
        have hclosed : ∀ id lifetime, lifetime.Sound →
            ((fun _ => Lifetime.close : ℕ → Lifetime → Lifetime) id lifetime).Sound :=
          fun _ _ => Lifetime.Sound.close
        obtain ⟨hsound, haccounted⟩ := hstopped.forEach hclosed (fun _ => Lifetime.quiet_close)
        exact ⟨hsound, fun hall => iff_of_true (haccounted hall) trivial⟩

/-! ### Control requests -/

/-- Who is the same caller field by field has the same key. -/
theorem ownerKey_of_sameCaller {connection : HubConnection} {caller : ExecutionContext}
    (h : sameCaller connection caller = true) :
    connection.ownerKey = observableCallerKey caller := by
  unfold sameCaller at h
  dsimp only at h
  split_ifs at h with htenant hauthenticated howner
  · have htenant : connection.context.tenantId = caller.tenantId := not_not.1 htenant
    have hauthenticated : connection.context.isAuthenticated = caller.isAuthenticated :=
      not_not.1 hauthenticated
    rw [Bool.and_eq_true, decide_eq_true_eq] at h
    simp only [HubConnection.ownerKey, observableCallerKey, hauthenticated.symm.trans howner,
      howner, htenant, h.2, if_true]
  · have htenant : connection.context.tenantId = caller.tenantId := not_not.1 htenant
    have hauthenticated : connection.context.isAuthenticated = caller.isAuthenticated :=
      not_not.1 hauthenticated
    have haddress : connection.context.remoteAddress = caller.remoteAddress := of_decide_eq_true h
    simp only [HubConnection.ownerKey, observableCallerKey, hauthenticated, htenant, haddress]
    rw [hauthenticated] at howner
    rw [if_neg howner, if_neg howner]

/-! ### The claims of a hub -/

/-- Every connection whose close or join has settled has called `onClose` once, and its slot is
free. -/
def SlotsFreed (hub : Hub) : Prop :=
  ∀ id lifetime, hub.lifetimes[id]? = some lifetime →
    lifetime.closeSettled ∨ lifetime.joinSettled →
    lifetime.closes = 1 ∧ hub.connections.get id = none

theorem slotsFreed_iff (h : hub.Sound limits) : SlotsFreed hub ↔ hub.Accounted := by
  constructor
  · intro hfreed lifetime hmem hsettled
    obtain ⟨id, hget⟩ := List.getElem?_of_mem hmem
    exact (hfreed id lifetime hget hsettled).1
  · intro hall id lifetime hget hsettled
    have hcloses := hall lifetime (List.mem_of_getElem? hget) hsettled
    refine ⟨hcloses, ?_⟩
    by_contra htracked
    obtain ⟨other, hother, hzero⟩ := (h.tracked id).1 htracked
    rw [hget] at hother
    cases hother
    omega

/-- In every run the table stays within the limits, no connection calls `onClose` twice, and a
control request acts only on an SSE connection of its caller; the slots of the connections whose
close has settled are free in every state exactly when no output has thrown in a close that no
shutdown coordinates. -/
theorem hub_admission {events : List HubEvent}
    (hrun : (machine limits).exec (machine limits).init events = some hub) :
    (hub.connections.size ≤ limits.hubConnections ∧
      (∀ key, (hub.ofCaller key).length ≤ limits.hubConnectionsPerCaller)) ∧
    (∀ lifetime ∈ hub.lifetimes, lifetime.closes ≤ 1) ∧
    (∀ connection lifetime authenticationFailed caller,
      controls connection lifetime authenticationFailed caller = true →
      connection.protocol = .sse ∧ connection.ownerKey = observableCallerKey caller) ∧
    ((machine limits).Always SlotsFreed (machine limits).init events ↔
      (machine limits).Within (fun _ => Clean) (machine limits).init events) := by
  have hstep : ∀ hub event hub', hub.Sound limits → (machine limits).step hub event = some hub' →
      hub'.Sound limits := fun hub event hub' h hmoved => (step_sound h hmoved).1
  have hsound : hub.Sound limits :=
    Machine.Reachable.invariant (machine limits) Hub.sound_init hstep ⟨events, hrun⟩
  refine ⟨⟨hsound.size, hsound.perCaller⟩,
    fun lifetime hmem => (hsound.lifetimes lifetime hmem).closes_le_one, ?_, ?_⟩
  · intro connection lifetime authenticationFailed caller hcontrols
    simp only [controls, Bool.and_eq_true, decide_eq_true_eq] at hcontrols
    exact ⟨hcontrols.1.1.1, ownerKey_of_sameCaller hcontrols.2⟩
  · refine (machine limits).always_iff (I := Hub.Sound limits) hstep ?_ Hub.sound_init ?_ hrun
    · intro hub event hub' h hfreed hmoved
      obtain ⟨h', haccounted⟩ := step_sound h hmoved
      rw [slotsFreed_iff h']
      exact haccounted ((slotsFreed_iff h).1 hfreed)
    · intro id lifetime hget
      simp [machine] at hget

/-! ### An output that throws -/

def OutputClose.throwing : OutputClose := ⟨true, false⟩

/-- One anonymous WebSocket is admitted and closed by its client. -/
def disconnected : List HubEvent := [.connect .webSocket false {}, .close 0]

theorem hub_admission_disconnected : (machine ⟨1, 1⟩).Always SlotsFreed (machine ⟨1, 1⟩).init
    (disconnected ++ [.closeBegins 0 ⟨false, false⟩, .closeEnds 0]) := by
  obtain ⟨hub, hrun⟩ : ∃ hub, (machine ⟨1, 1⟩).exec (machine ⟨1, 1⟩).init
      (disconnected ++ [.closeBegins 0 ⟨false, false⟩, .closeEnds 0]) = some hub := ⟨_, rfl⟩
  exact (hub_admission hrun).2.2.2.2 (by decide)

/-- The output throws while the only slot is closed: the close has settled, `onClose` never
runs, and the hub admits nobody any more. -/
theorem slot_lost : ∃ hub, (machine ⟨1, 1⟩).exec (machine ⟨1, 1⟩).init
      (disconnected ++ [.closeBegins 0 .throwing]) = some hub ∧
    ¬ SlotsFreed hub ∧ ∀ context, hub.canAdmit ⟨1, 1⟩ context = false := by
  refine ⟨_, rfl, fun hfreed => ?_, fun context => ?_⟩
  · have hcloses := (hfreed 0 _ rfl (.inl rfl)).1
    cases hcloses
  · rfl

end Arc.Observable.ObservableQueryHub
