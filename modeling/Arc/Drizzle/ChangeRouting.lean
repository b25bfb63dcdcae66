import Arc.Drizzle.StepMoves

/-!
# The routing table of an entry

A live entry routes a change to the leases that completed their validation and are not
released, each under its own key; a retired entry routes nothing. `Routing` says so of the
fields a move may change, and every move keeps it.
-/

namespace Arc.Drizzle.PostgreSQLObservation

namespace Entry

/-- The leases routed under a key. -/
def routed (routing : InsertionMap String (List ℕ)) (key : String) : List ℕ :=
  (routing.get key).getD []

@[simp] theorem routed_empty (key : String) : routed .empty key = [] := rfl

@[simp] theorem routed_set_self (routing : InsertionMap String (List ℕ)) (key : String)
    (bucket : List ℕ) : routed (routing.set key bucket) key = bucket := by
  simp [routed]

theorem routed_set_of_ne (routing : InsertionMap String (List ℕ)) {key key' : String}
    (bucket : List ℕ) (h : key' ≠ key) :
    routed (routing.set key bucket) key' = routed routing key' := by
  rw [routed, InsertionMap.get_set_of_ne routing bucket h, routed]

/-- Taking a lease out leaves the other leases of its key, and every other key. -/
theorem routed_unroute (routing : InsertionMap String (List ℕ)) (key key' : String) (i : ℕ) :
    routed (unroute routing key i) key' =
      if key' = key then (routed routing key').filter fun j => decide (j ≠ i)
      else routed routing key' := by
  rw [unroute]
  cases h : routing.get key with
  | none =>
      split_ifs with hkey
      · simp [hkey, routed, h]
      · rfl
  | some bucket =>
      dsimp only
      split_ifs with hempty hkey hkey
      · subst hkey
        rw [List.isEmpty_iff] at hempty
        rw [routed, InsertionMap.get_delete_self, routed, h]
        exact hempty.symm
      · rw [routed, InsertionMap.get_delete_of_ne routing hkey, routed]
      · subst hkey
        rw [routed_set_self, routed, h]
        rfl
      · exact routed_set_of_ne routing _ hkey

/-- What the routing table has to do with the leases. -/
structure Routing (dead : Bool) (leases : List Lease) (routing : InsertionMap String (List ℕ)) :
    Prop where
  mem_routed : dead = false → ∀ key i, i ∈ routed routing key ↔
    ∃ lease : Lease, leases[i]? = some lease ∧ lease.key = some key ∧ lease.released = false
  retired : dead = true → routing = .empty
  nodup : ∀ key, (routed routing key).Nodup
  fulfilled : ∀ (i : ℕ) (lease : Lease), leases[i]? = some lease →
    (lease.key.isSome = true ↔ lease.ready = .fulfilled)

namespace Routing

variable {dead : Bool} {leases : List Lease} {routing : InsertionMap String (List ℕ)}

theorem empty (h : Routing dead leases routing) : Routing true leases .empty where
  mem_routed hdead := by simp at hdead
  retired _ := rfl
  nodup key := List.nodup_nil
  fulfilled := h.fulfilled

/-- A new lease is routed nowhere. -/
theorem acquire (h : Routing dead leases routing) (table : Table) :
    Routing dead (leases ++ [⟨table, none, false, .starting⟩]) routing := by
  have hget : ∀ (i : ℕ) (lease : Lease),
      (leases ++ [(⟨table, none, false, .starting⟩ : Lease)])[i]? = some lease →
      leases[i]? = some lease ∨ lease = ⟨table, none, false, .starting⟩ := by
    intro i lease hi
    rcases Nat.lt_or_ge i leases.length with hlt | hge
    · rw [List.getElem?_append_left hlt] at hi
      exact Or.inl hi
    · rw [List.getElem?_append_right hge] at hi
      exact Or.inr (by simpa using List.mem_of_getElem? hi)
  refine ⟨fun hdead key i => ?_, h.retired, h.nodup, fun i lease hi => ?_⟩
  · rw [h.mem_routed hdead]
    constructor
    · rintro ⟨lease, hlease, hkey, hreleased⟩
      obtain ⟨hlt, -⟩ := List.getElem?_eq_some_iff.1 hlease
      exact ⟨lease, by rw [List.getElem?_append_left hlt]; exact hlease, hkey, hreleased⟩
    · rintro ⟨lease, hlease, hkey, hreleased⟩
      rcases hget i lease hlease with hold | rfl
      · exact ⟨lease, hold, hkey, hreleased⟩
      · simp at hkey
  · rcases hget i lease hi with hold | rfl
    · exact h.fulfilled i lease hold
    · simp

/-- A lease that is not validated changes its stage. -/
theorem setReady (h : Routing dead leases routing) {i : ℕ} {lease : Lease}
    (hi : leases[i]? = some lease) (hr : lease.ready ≠ .fulfilled) {ready : Ready}
    (hready : ready ≠ .fulfilled) :
    Routing dead (leases.modify i fun lease => { lease with ready := ready }) routing := by
  refine ⟨fun hdead key j => ?_, h.retired, h.nodup, fun j other hj => ?_⟩
  · rw [h.mem_routed hdead]
    rw [List.getElem?_modify]
    by_cases hij : i = j
    · subst hij
      simp [hi]
    · simp [hij]
  · rw [List.getElem?_modify] at hj
    by_cases hij : i = j
    · subst hij
      rw [hi] at hj
      obtain rfl : { lease with ready := ready } = other := by simpa using hj
      have hnone : ¬ lease.key.isSome = true := fun hkey => hr ((h.fulfilled i lease hi).1 hkey)
      exact iff_of_false hnone hready
    · exact h.fulfilled j other (by simpa [hij] using hj)

/-- A released lease leaves the set of its key. -/
theorem release (h : Routing dead leases routing) {i : ℕ} {lease : Lease}
    (hi : leases[i]? = some lease) :
    Routing dead (leases.set i { lease with released := true })
      (match lease.key with
        | none => routing
        | some key => unroute routing key i) := by
  obtain ⟨hlt, -⟩ := List.getElem?_eq_some_iff.1 hi
  have hother : ∀ {j}, j ≠ i → (leases.set i { lease with released := true })[j]? = leases[j]? :=
    fun hj => List.getElem?_set_ne (Ne.symm hj)
  have hself : (leases.set i { lease with released := true })[i]? =
      some { lease with released := true } := List.getElem?_set_self hlt
  have hleft : ∀ key j, j ∈ routed (match lease.key with
        | none => routing
        | some key => unroute routing key i) key ↔
      j ∈ routed routing key ∧ (lease.key = some key → j ≠ i) := by
    intro key j
    cases hkey : lease.key with
    | none => simp
    | some key' =>
        dsimp only
        rw [routed_unroute]
        split_ifs with hsame
        · subst hsame
          simp
        · simp [Ne.symm hsame]
  refine ⟨fun hdead key j => ?_, fun hdead => ?_, fun key => ?_, fun j other hj => ?_⟩
  · rw [hleft, h.mem_routed hdead]
    by_cases hj : j = i
    · subst hj
      rw [hself, hi]
      simp only [Option.some.injEq, exists_eq_left', ne_eq, not_true_eq_false, imp_false]
      constructor
      · rintro ⟨⟨hkey, -⟩, hnot⟩
        exact absurd hkey hnot
      · rintro ⟨-, hreleased⟩
        simp at hreleased
    · rw [hother hj]
      simp [hj]
  · rw [h.retired hdead]
    cases lease.key with
    | none => rfl
    | some key => rfl
  · cases hkey : lease.key with
    | none => exact h.nodup key
    | some key' =>
        dsimp only
        rw [routed_unroute]
        split_ifs
        · exact (h.nodup key).filter _
        · exact h.nodup key
  · by_cases hij : j = i
    · subst hij
      rw [hself] at hj
      obtain rfl := Option.some.inj hj
      exact h.fulfilled j lease hi
    · rw [hother hij] at hj
      exact h.fulfilled j other hj

/-- A lease that completes its validation is routed under its key. -/
theorem route (h : Routing dead leases routing) {i : ℕ} {lease : Lease}
    (hi : leases[i]? = some lease) (hr : lease.ready ≠ .fulfilled)
    (hreleased : lease.released = false) (hdead : dead = false) (key : String) :
    Routing dead
      (leases.modify i fun lease => { lease with key := some key, ready := .fulfilled })
      (routing.set key (if i ∈ routed routing key then routed routing key
        else routed routing key ++ [i])) := by
  have hnew : ∀ {k}, i ∉ routed routing k := by
    intro k hmem
    obtain ⟨other, hother, hkey, -⟩ := (h.mem_routed hdead k i).1 hmem
    rw [hi] at hother
    obtain rfl := Option.some.inj hother
    exact hr ((h.fulfilled i lease hi).1 (by rw [hkey]; rfl))
  rw [if_neg hnew]
  refine ⟨fun _ k j => ?_, fun hdead' => ?_, fun k => ?_, fun j other hj => ?_⟩
  · rw [List.getElem?_modify]
    have hset : j ∈ routed (routing.set key (routed routing key ++ [i])) k ↔
        j ∈ routed routing k ∨ (k = key ∧ j = i) := by
      by_cases hk : k = key
      · subst hk
        simp
      · rw [routed_set_of_ne routing _ hk]
        simp [hk]
    rw [hset]
    by_cases hij : i = j
    · subst hij
      constructor
      · rintro (hmem | ⟨rfl, -⟩)
        · exact absurd hmem hnew
        · exact ⟨{ lease with key := some k, ready := .fulfilled }, by simp [hi], rfl, hreleased⟩
      · rintro ⟨other, hother, hkey, -⟩
        obtain rfl : { lease with key := some key, ready := Ready.fulfilled } = other := by
          simpa [hi] using hother
        exact Or.inr ⟨(Option.some.inj hkey).symm, rfl⟩
    · rw [h.mem_routed hdead]
      simp [hij, Ne.symm hij]
  · rw [hdead] at hdead'
    simp at hdead'
  · by_cases hk : k = key
    · subst hk
      rw [routed_set_self]
      exact (h.nodup k).append (List.nodup_singleton i) (by simpa using hnew)
    · rw [routed_set_of_ne routing _ hk]
      exact h.nodup k
  · rw [List.getElem?_modify] at hj
    by_cases hij : i = j
    · subst hij
      rw [hi] at hj
      obtain rfl : { lease with key := some key, ready := Ready.fulfilled } = other := by
        simpa using hj
      simp
    · exact h.fulfilled j other (by simpa [hij] using hj)

end Routing

/-- The routing table of an entry. -/
def Routed (w : Entry) : Prop := Routing w.dead w.leases w.routing

variable {D : Defect → Prop} {w w' : Entry}

theorem Routed.new (tenant : String) (delays : List ℕ) : (Entry.new tenant delays).Routed where
  mem_routed _ key i := by simp [Entry.new]
  retired hdead := rfl
  nodup key := List.nodup_nil
  fulfilled i lease hi := by simp [Entry.new] at hi

theorem Routed.forget {table : Table} (h : w.Routed) : (w.forget table).Routed := by
  unfold Entry.forget
  split <;> exact h

theorem Routed.shutdown (h : w.Routed) (hdead : w.dead = false) : w.shutdown.Routed := by
  rw [shutdown_eq hdead]
  exact h.empty

theorem Routed.start (h : w.Routed) (previousClose : Bool) : (w.start previousClose).1.Routed := by
  cases previousClose <;> exact h

theorem Routed.setStart (h : w.Routed) (host : Host) (result : StartResult) :
    (w.setStart host result).Routed := by
  cases host <;> cases result <;> exact h

/-- Every move keeps the routing table exact. -/
theorem Routed.move (hw : w.Routed) (h : Move D w w') : w'.Routed := by
  cases h with
  | opened previousClose => exact hw.start previousClose
  | acquired table => exact hw.acquire table
  | unleased i lease h => exact (show (w.unlease i lease).Routed from hw.release h).forget
  | unleasedLast i lease h hr hdead =>
      refine Routed.shutdown (show (w.unlease i lease).Routed from hw.release h).forget ?_
      unfold Entry.forget
      split <;> exact hdead
  | disposed hdead =>
      rw [dispose_eq hdead]
      exact hw.empty
  | terminated failure hdead =>
      rw [terminate_eq failure hdead]
      exact hw.empty
  | exhausted r h hdead =>
      rw [terminate_eq _ (by exact hdead)]
      exact hw.empty
  | lostAvailable message =>
      rw [lose_eq]
      exact hw
  | lostRecovering message =>
      rw [lose_eq]
      exact hw
  | lostExpired o op failure message =>
      rw [lose_eq]
      exact hw
  | startThrew host | startReturned host => exact hw.setStart _ _
  | startRequested host | startRetired host | startRefused host | startAdopted host
  | startConnected host => exact Routed.setStart (by exact hw) _ _
  | readyFailed i lease failure h hr | readyWaiting i lease h hr | readyResolving i lease h hr =>
      exact Routing.setReady hw h hr (by simp)
  | readyChecking i lease g o identity h hr | readyValidating i lease g o identity h hr
  | readyValidated i lease g o identity h hr | readyInvalid i lease g o identity failure h hr =>
      exact Routing.setReady hw h (by simp [hr]) (by simp)
  | routed i lease g identity h hr hreleased hdead =>
      exact Routing.route hw h (by simp [hr]) hreleased hdead identity.key
  | becameReady =>
      unfold becomeReady
      split <;> exact hw
  | attempted r previousClose => exact Routed.start (w := { w with
      controller := w.controller + 1, fired := false }) hw previousClose
  | recovered r =>
      unfold Entry.recovered
      split <;> exact hw
  | sent o op =>
      unfold Entry.send
      split
      all_goals try exact hw
      all_goals split <;> exact hw
  | produced o op shape =>
      unfold produce
      dsimp only
      split <;> exact hw
  | closed stack =>
      rw [closeConnection_eq]
      exact hw
  | _ => exact hw

end Entry

end Arc.Drizzle.PostgreSQLObservation
