import Arc.Drizzle.ChangeRouting
import Arc.Foundation.History

/-!
# Calling the leases of a fan-out

A fan-out names the leases it has to call. Each of them is called once, or is released
before its turn; no other lease is called, and none after its release. `Fanouts` says so of
the calls made, the frames of the stack and the fan-outs; every move keeps it.
-/

namespace Arc.Drizzle.PostgreSQLObservation

/-- The effects on the callbacks of leases. -/
def Effect.isCall : Effect → Bool
  | .called _ _ | .released _ => true
  | _ => false

def Frame.fanout? : Frame → Option ℕ
  | .fan n _ => some n
  | _ => none

namespace Entry

def calls (w : Entry) : List Effect := w.log.filter Effect.isCall

def releasedFlags (w : Entry) : List Bool := w.leases.map Lease.released

/-- A lease is called once by a fan-out, and not after it was released. -/
def Callable (before : List Effect) : Effect → Prop
  | .called n i => .called n i ∉ before ∧ .released i ∉ before
  | _ => True

/-- What the calls have to do with the fan-outs and the frames of the stack. -/
structure Fanouts (flags : List Bool) (stack : List Frame) (fanouts : List Fanout)
    (calls : List Effect) : Prop where
  frame : ∀ n rest, .fan n rest ∈ stack → ∃ fan : Fanout, fanouts[n]? = some fan ∧
    rest ⊆ fan.targets ∧ rest.Nodup ∧ ∀ i ∈ rest, .called n i ∉ calls
  bound : ∀ n rest, .fan n rest ∈ stack → ∀ i ∈ rest, i < flags.length
  one : (stack.filterMap Frame.fanout?).Nodup
  called : ∀ n i, .called n i ∈ calls →
    ∃ fan : Fanout, fanouts[n]? = some fan ∧ i ∈ fan.targets
  served : ∀ (n : ℕ) (fan : Fanout) (i : ℕ), fanouts[n]? = some fan → i ∈ fan.targets →
    .called n i ∈ calls ∨ .released i ∈ calls ∨ ∃ rest, .fan n rest ∈ stack ∧ i ∈ rest
  released : ∀ i, .released i ∈ calls ↔ flags[i]? = some true
  ordered : History.Ordered Callable calls

namespace Fanouts

variable {flags : List Bool} {stack : List Frame} {fanouts : List Fanout} {calls : List Effect}

/-- A loop over callbacks starts. -/
theorem fanOut (h : Fanouts flags stack fanouts calls) (cause : Cause) {targets : List ℕ}
    (hnodup : targets.Nodup) (hbound : ∀ i ∈ targets, i < flags.length) :
    Fanouts flags (.fan fanouts.length targets :: stack) (fanouts ++ [⟨cause, targets⟩]) calls := by
  have hnew : (fanouts ++ [(⟨cause, targets⟩ : Fanout)])[fanouts.length]? =
      some ⟨cause, targets⟩ := by simp
  have hold : ∀ {n : ℕ} {fan : Fanout}, fanouts[n]? = some fan →
      (fanouts ++ [(⟨cause, targets⟩ : Fanout)])[n]? = some fan := by
    intro n fan hn
    obtain ⟨hlt, -⟩ := List.getElem?_eq_some_iff.1 hn
    rw [List.getElem?_append_left hlt]
    exact hn
  have huncalled : ∀ i, .called fanouts.length i ∉ calls := by
    intro i hi
    obtain ⟨fan, hfan, -⟩ := h.called _ _ hi
    simp at hfan
  refine ⟨fun n rest hmem => ?_, fun n rest hmem => ?_, ?_, fun n i hi => ?_,
    fun n fan i hn hi => ?_, h.released, h.ordered⟩
  · rcases List.mem_cons.1 hmem with heq | hmem
    · cases heq
      exact ⟨_, hnew, List.Subset.refl _, hnodup, fun i _ => huncalled i⟩
    · obtain ⟨fan, hfan, hrest⟩ := h.frame n rest hmem
      exact ⟨fan, hold hfan, hrest⟩
  · rcases List.mem_cons.1 hmem with heq | hmem
    · cases heq
      exact hbound
    · exact h.bound n rest hmem
  · rw [List.filterMap_cons, Frame.fanout?]
    refine List.nodup_cons.2 ⟨fun hmem => ?_, h.one⟩
    obtain ⟨frame, hframe, hn⟩ := List.mem_filterMap.1 hmem
    cases frame with
    | fan n rest =>
        obtain rfl : n = fanouts.length := by simpa [Frame.fanout?] using hn
        obtain ⟨fan, hfan, -⟩ := h.frame _ rest hframe
        simp at hfan
    | recovering r => simp [Frame.fanout?] at hn
    | closing => simp [Frame.fanout?] at hn
  · obtain ⟨fan, hfan, hmem⟩ := h.called n i hi
    exact ⟨fan, hold hfan, hmem⟩
  · rcases Nat.lt_trichotomy n fanouts.length with hlt | rfl | hgt
    · rw [List.getElem?_append_left hlt] at hn
      refine (h.served n fan i hn hi).imp_right (Or.imp_right ?_)
      rintro ⟨rest, hrest, hmem⟩
      exact ⟨rest, List.mem_cons_of_mem _ hrest, hmem⟩
    · rw [hnew] at hn
      cases hn
      exact Or.inr (Or.inr ⟨targets, List.mem_cons_self, hi⟩)
    · rw [List.getElem?_eq_none (by rw [List.length_append]; exact hgt)] at hn
      cases hn

/-- A frame that calls no lease is pushed. -/
theorem push (h : Fanouts flags stack fanouts calls) {frame : Frame}
    (hframe : frame.fanout? = none) : Fanouts flags (frame :: stack) fanouts calls := by
  have hne : ∀ {n rest}, .fan n rest ∈ frame :: stack ↔ .fan n rest ∈ stack := by
    intro n rest
    rw [List.mem_cons, or_iff_right]
    rintro rfl
    simp [Frame.fanout?] at hframe
  refine ⟨fun n rest hmem => h.frame n rest (hne.1 hmem),
    fun n rest hmem => h.bound n rest (hne.1 hmem), ?_, h.called, fun n fan i hn hi => ?_,
    h.released, h.ordered⟩
  · rw [List.filterMap_cons, hframe]
    exact h.one
  · refine (h.served n fan i hn hi).imp_right (Or.imp_right ?_)
    rintro ⟨rest, hrest, hmem⟩
    exact ⟨rest, hne.2 hrest, hmem⟩

/-- A frame with no lease left is popped. -/
theorem pop {frame : Frame} (h : Fanouts flags (frame :: stack) fanouts calls)
    (hframe : ∀ n i rest, frame ≠ .fan n (i :: rest)) : Fanouts flags stack fanouts calls := by
  refine ⟨fun n rest hmem => h.frame n rest (List.mem_cons_of_mem _ hmem),
    fun n rest hmem => h.bound n rest (List.mem_cons_of_mem _ hmem), ?_, h.called,
    fun n fan i hn hi => ?_, h.released, h.ordered⟩
  · refine List.Nodup.sublist ?_ h.one
    exact (List.sublist_cons_self frame stack).filterMap _
  · refine (h.served n fan i hn hi).imp_right (Or.imp_right ?_)
    rintro ⟨rest, hrest, hmem⟩
    rcases List.mem_cons.1 hrest with rfl | hrest
    · cases rest with
      | nil => simp at hmem
      | cons j rest => exact absurd rfl (hframe n j rest)
    · exact ⟨rest, hrest, hmem⟩

theorem bound_rest {n i : ℕ} {rest : List ℕ}
    (h : Fanouts flags (.fan n (i :: rest) :: stack) fanouts calls) {m : ℕ} {js : List ℕ}
    (hmem : .fan m js ∈ Frame.fan n rest :: stack) : ∀ j ∈ js, j < flags.length := by
  rcases List.mem_cons.1 hmem with heq | hmem
  · cases heq
    exact fun j hj => h.bound n (i :: rest) List.mem_cons_self j (List.mem_cons_of_mem i hj)
  · exact h.bound m js (List.mem_cons_of_mem _ hmem)

/-- The next lease of the innermost loop was released. -/
theorem skip {n i : ℕ} {rest : List ℕ}
    (h : Fanouts flags (.fan n (i :: rest) :: stack) fanouts calls)
    (hi : .released i ∈ calls) : Fanouts flags (.fan n rest :: stack) fanouts calls := by
  refine ⟨fun m js hmem => ?_, fun m js hmem => h.bound_rest hmem, ?_, h.called,
    fun m fan j hm hj => ?_, h.released, h.ordered⟩
  · rcases List.mem_cons.1 hmem with heq | hmem
    · cases heq
      obtain ⟨fan, hfan, hsubset, hnodup, huncalled⟩ := h.frame n (i :: rest) List.mem_cons_self
      exact ⟨fan, hfan, fun j hj => hsubset (List.mem_cons_of_mem i hj),
        (List.nodup_cons.1 hnodup).2, fun j hj => huncalled j (List.mem_cons_of_mem i hj)⟩
    · exact h.frame m js (List.mem_cons_of_mem _ hmem)
  · have hone := h.one
    rw [List.filterMap_cons, Frame.fanout?] at hone ⊢
    exact hone
  · rcases h.served m fan j hm hj with hcalled | hreleased | ⟨js, hjs, hmem⟩
    · exact Or.inl hcalled
    · exact Or.inr (Or.inl hreleased)
    · rcases List.mem_cons.1 hjs with heq | hjs
      · cases heq
        rcases List.mem_cons.1 hmem with rfl | hmem
        · exact Or.inr (Or.inl hi)
        · exact Or.inr (Or.inr ⟨rest, List.mem_cons_self, hmem⟩)
      · exact Or.inr (Or.inr ⟨js, List.mem_cons_of_mem _ hjs, hmem⟩)

/-- The next lease of the innermost loop is called. -/
theorem call {n i : ℕ} {rest : List ℕ}
    (h : Fanouts flags (.fan n (i :: rest) :: stack) fanouts calls)
    (hi : .released i ∉ calls) :
    Fanouts flags (.fan n rest :: stack) fanouts (calls ++ [.called n i]) := by
  obtain ⟨fan, hfan, hsubset, hnodup, huncalled⟩ := h.frame n (i :: rest) List.mem_cons_self
  have hone := h.one
  rw [List.filterMap_cons, Frame.fanout?, List.nodup_cons] at hone
  obtain ⟨hfresh, hone⟩ := hone
  refine ⟨fun m js hmem => ?_, fun m js hmem => h.bound_rest hmem, ?_, fun m j hmem => ?_,
    fun m fan' j hm hj => ?_, fun j => ?_, ?_⟩
  · rcases List.mem_cons.1 hmem with heq | htail
    · cases heq
      refine ⟨fan, hfan, fun j hj => hsubset (List.mem_cons_of_mem i hj),
        (List.nodup_cons.1 hnodup).2, fun j hj hcalled => ?_⟩
      rcases List.mem_append.1 hcalled with hcalled | hcalled
      · exact huncalled j (List.mem_cons_of_mem i hj) hcalled
      · obtain rfl : j = i := by simpa using hcalled
        exact (List.nodup_cons.1 hnodup).1 hj
    · have hother : m ≠ n := by
        rintro rfl
        exact hfresh (List.mem_filterMap.2 ⟨.fan m js, htail, rfl⟩)
      obtain ⟨fan', hfan', hsubset', hnodup', huncalled'⟩ :=
        h.frame m js (List.mem_cons_of_mem _ htail)
      refine ⟨fan', hfan', hsubset', hnodup', fun j hj hcalled => ?_⟩
      rcases List.mem_append.1 hcalled with hcalled | hcalled
      · exact huncalled' j hj hcalled
      · exact hother (by simpa using hcalled : m = n ∧ j = i).1
  · rw [List.filterMap_cons, Frame.fanout?]
    exact List.nodup_cons.2 ⟨hfresh, hone⟩
  · rcases List.mem_append.1 hmem with hmem | hmem
    · exact h.called m j hmem
    · obtain ⟨rfl, rfl⟩ : m = n ∧ j = i := by simpa using hmem
      exact ⟨fan, hfan, hsubset List.mem_cons_self⟩
  · rcases h.served m fan' j hm hj with hcalled | hreleased | ⟨js, hjs, hmem⟩
    · exact Or.inl (List.mem_append_left _ hcalled)
    · exact Or.inr (Or.inl (List.mem_append_left _ hreleased))
    · rcases List.mem_cons.1 hjs with heq | hjs
      · cases heq
        rcases List.mem_cons.1 hmem with rfl | hmem
        · exact Or.inl (List.mem_append_right _ (List.mem_singleton.2 rfl))
        · exact Or.inr (Or.inr ⟨rest, List.mem_cons_self, hmem⟩)
      · exact Or.inr (Or.inr ⟨js, List.mem_cons_of_mem _ hjs, hmem⟩)
  · rw [List.mem_append, h.released j]
    simp
  · exact History.ordered_concat.2 ⟨h.ordered, huncalled i List.mem_cons_self, hi⟩

/-- A lease is released. -/
theorem release (h : Fanouts flags stack fanouts calls) {i : ℕ} (hi : flags[i]? = some false) :
    Fanouts (flags.set i true) stack fanouts (calls ++ [.released i]) := by
  refine ⟨fun n rest hmem => ?_, fun n rest hmem j hj => ?_, h.one, fun n j hmem => ?_,
    fun n fan j hn hj => ?_, fun j => ?_, History.ordered_concat.2 ⟨h.ordered, trivial⟩⟩
  · obtain ⟨fan, hfan, hsubset, hnodup, huncalled⟩ := h.frame n rest hmem
    refine ⟨fan, hfan, hsubset, hnodup, fun j hj hcalled => huncalled j hj ?_⟩
    simpa using hcalled
  · rw [List.length_set]
    exact h.bound n rest hmem j hj
  · exact h.called n j (by simpa using hmem)
  · rcases h.served n fan j hn hj with hcalled | hreleased | hframe
    · exact Or.inl (List.mem_append_left _ hcalled)
    · exact Or.inr (Or.inl (List.mem_append_left _ hreleased))
    · exact Or.inr (Or.inr hframe)
  · obtain ⟨hlt, -⟩ := List.getElem?_eq_some_iff.1 hi
    rw [List.mem_append, h.released j, List.mem_singleton]
    by_cases hij : i = j
    · subst hij
      simp [hlt]
    · rw [List.getElem?_set_ne hij]
      simp [Ne.symm hij]

end Fanouts

/-- The fan-outs of an entry. -/
def Calls (w : Entry) : Prop := Fanouts w.releasedFlags w.stack w.fanouts w.calls

variable {D : Defect → Prop} {w w' : Entry}

/-- What `Calls` reads is the same. -/
theorem Calls.congr (h : w.Calls) (hflags : w'.releasedFlags = w.releasedFlags)
    (hstack : w'.stack = w.stack) (hfanouts : w'.fanouts = w.fanouts)
    (hcalls : w'.calls = w.calls) : w'.Calls := by
  rw [Calls, hflags, hstack, hfanouts, hcalls]
  exact h

theorem Calls.new (tenant : String) (delays : List ℕ) : (Entry.new tenant delays).Calls where
  frame n rest h := by simp [Entry.new] at h
  bound n rest h := by simp [Entry.new] at h
  one := List.nodup_nil
  called n i h := by simp [Entry.new, calls] at h
  served n fan i h := by simp [Entry.new] at h
  released i := by simp [Entry.new, calls, releasedFlags]
  ordered := History.ordered_nil

@[simp] theorem calls_closeConnection : w.closeConnection.calls = w.calls := by
  unfold closeConnection
  split
  · rfl
  · simp [calls, scheduleClose, record, Effect.isCall]

theorem closeConnection_calls : w.closeConnection.log.filter Effect.isCall = w.calls :=
  calls_closeConnection

theorem calls_record {effect : Effect} (h : effect.isCall = false) :
    (w.record effect).calls = w.calls := by
  simp [calls, record, h]

theorem releasedFlags_modify (f : Lease → Lease) (hf : ∀ lease, (f lease).released = lease.released)
    (i : ℕ) : (w.leases.modify i f).map Lease.released = w.releasedFlags := by
  apply List.ext_getElem?
  intro j
  rw [List.getElem?_map, List.getElem?_modify, releasedFlags, List.getElem?_map]
  cases w.leases[j]? with
  | none => rfl
  | some lease => by_cases hij : i = j <;> simp [hij, hf]

theorem released_mem_iff (h : w.Calls) {i : ℕ} :
    .released i ∈ w.calls ↔ ∃ lease, w.leases[i]? = some lease ∧ lease.released = true := by
  rw [h.released i, releasedFlags, List.getElem?_map, Option.map_eq_some_iff]

theorem Calls.setReady (h : w.Calls) (i : ℕ) (ready : Ready) : (w.setReady i ready).Calls :=
  h.congr (releasedFlags_modify (fun lease => { lease with ready := ready }) (fun _ => rfl) i)
    rfl rfl rfl

theorem Calls.setStart (h : w.Calls) (host : Host) (result : StartResult) :
    (w.setStart host result).Calls := by
  cases host <;> cases result <;> exact h

theorem Calls.start (h : w.Calls) (previousClose : Bool) : (w.start previousClose).1.Calls := by
  cases previousClose <;> exact h

theorem Calls.record (h : w.Calls) {effect : Effect} (heffect : effect.isCall = false) :
    (w.record effect).Calls := h.congr rfl rfl rfl (calls_record heffect)

theorem Calls.closeConnection (h : w.Calls) : w.closeConnection.Calls := by
  rw [closeConnection_eq]
  exact h.congr rfl rfl rfl closeConnection_calls

theorem Calls.lose (h : w.Calls) (message : String) : (w.lose message).Calls := by
  rw [lose_eq]
  exact h.congr rfl rfl rfl closeConnection_calls

theorem Calls.shutdown (h : w.Calls) (hdead : w.dead = false) : w.shutdown.Calls := by
  rw [shutdown_eq hdead]
  exact h.congr rfl rfl rfl closeConnection_calls

theorem live_bound {i : ℕ} (hi : i ∈ w.live) : i < w.releasedFlags.length := by
  rw [releasedFlags, List.length_map]
  exact List.mem_range.1 (List.mem_filter.1 hi).1

theorem Calls.terminate (h : w.Calls) (failure : Failure) (hdead : w.dead = false) :
    (w.terminate failure).Calls := by
  rw [terminate_eq failure hdead]
  have hretired : Fanouts w.releasedFlags w.stack w.fanouts
      (w.closeConnection.log.filter Effect.isCall) := by
    rw [closeConnection_calls]
    exact h
  exact hretired.fanOut _ nodup_live fun _ => live_bound

theorem Calls.release (h : w.Calls) {i : ℕ} {lease : Lease} (hi : w.leases[i]? = some lease)
    (hreleased : lease.released = false) : ((w.unlease i lease).forget lease.table).Calls := by
  have hunleased : (w.unlease i lease).Calls := by
    have hflags : (w.unlease i lease).releasedFlags = w.releasedFlags.set i true := by
      simp [unlease, Entry.record, releasedFlags, List.map_set]
    have hcalls : (w.unlease i lease).calls = w.calls ++ [.released i] := by
      simp [unlease, Entry.record, calls, Effect.isCall]
    have hflag : w.releasedFlags[i]? = some false := by
      rw [releasedFlags, List.getElem?_map, hi, Option.map_some, hreleased]
    rw [Calls, hflags, hcalls]
    exact Fanouts.release h hflag
  unfold Entry.forget
  split <;> exact hunleased

/-- Every move calls the leases of its fan-outs, once each. -/
theorem Calls.move (hrouted : w.Routed) (hw : w.Calls) (h : Move D w w') : w'.Calls := by
  cases h with
  | opened previousClose => exact hw.start previousClose
  | acquired table =>
      refine ⟨hw.frame, fun n rest hmem i hi => ?_, hw.one, hw.called, hw.served, fun i => ?_,
        hw.ordered⟩
      · have hlt := hw.bound n rest hmem i hi
        simp only [releasedFlags, acquire, List.length_map, List.length_append] at hlt ⊢
        omega
      · rw [show (w.acquire table).calls = w.calls from rfl, hw.released i]
        rw [releasedFlags, releasedFlags, acquire, List.map_append]
        rcases Nat.lt_trichotomy i (w.leases.map Lease.released).length with hlt | rfl | hgt
        · rw [List.getElem?_append_left hlt]
        · simp
        · rw [List.getElem?_eq_none (Nat.le_of_lt hgt), List.getElem?_eq_none]
          simpa [Nat.succ_le_iff] using hgt
  | unleased i lease h hr => exact hw.release h hr
  | unleasedLast i lease h hr hdead =>
      refine (hw.release h hr).shutdown ?_
      unfold Entry.forget
      split <;> exact hdead
  | disposed hdead =>
      rw [dispose_eq hdead]
      exact Fanouts.fanOut (Fanouts.push hw rfl) _ nodup_live fun _ => live_bound
  | terminated failure hdead => exact hw.terminate failure hdead
  | exhausted r h hdead => exact Calls.terminate (by exact hw) _ hdead
  | lostAvailable message => exact hw.lose message
  | lostRecovering message => exact hw.lose message
  | lostExpired o op failure message => exact Calls.lose (by exact hw) message
  | startThrew host | startReturned host => exact hw.setStart _ _
  | startRequested host | startAdopted host | startConnected host =>
      exact Calls.setStart (by exact hw) _ _
  | startRetired host | startRefused host => exact (hw.record rfl).setStart _ _
  | readyFailed i | readyWaiting i | readyValidated i | readyInvalid i => exact hw.setReady i _
  | readyResolving i | readyChecking i | readyValidating i =>
      exact Calls.setReady (by exact hw) i _
  | routed i lease g identity =>
      exact hw.congr (releasedFlags_modify
        (fun lease => { lease with key := some identity.key, ready := .fulfilled })
        (fun _ => rfl) i) rfl rfl rfl
  | becameReady =>
      unfold becomeReady
      split <;> exact hw
  | delayed r => exact Calls.record (w := { w with retries := w.retries + 1 }) hw rfl
  | attempted r previousClose => exact Calls.start (w := { w with
      controller := w.controller + 1, fired := false }) hw previousClose
  | failing r g i rest recovery failure h hr hfired hreleased =>
      refine Fanouts.fanOut (Fanouts.push hw rfl) _ (List.nodup_singleton i) fun j hj => ?_
      obtain rfl := List.mem_singleton.1 hj
      exact live_bound (mem_live.2 hreleased)
  | resumed r stack hstack =>
      have hcalls : Fanouts w.releasedFlags (.recovering r :: stack) w.fanouts w.calls :=
        hstack ▸ hw
      exact hcalls.pop (by simp)
  | recovered r =>
      rw [Entry.recovered]
      split_ifs
      · exact hw
      · exact Fanouts.fanOut hw _ (nodup_live.filter _)
          fun i hi => live_bound (List.mem_filter.1 hi).1
  | sent o op =>
      unfold Entry.send
      split
      all_goals try exact hw
      all_goals
        split
        · exact hw
        · exact Calls.record (by exact hw) rfl
  | produced o op shape =>
      unfold produce
      dsimp only
      split
      · exact Calls.record (by exact hw) rfl
      · exact hw
  | beaten h o => exact Calls.record (w := { w with retries := 0 }) hw rfl
  | notified c payload hc hdead =>
      refine Fanouts.fanOut hw _ (hrouted.nodup payload) fun i hi => ?_
      obtain ⟨lease, hlease, -⟩ := (hrouted.mem_routed hdead payload i).1 hi
      rw [releasedFlags, List.length_map]
      exact (List.getElem?_eq_some_iff.1 hlease).1
  | fanEnded n stack h =>
      have hcalls : Fanouts w.releasedFlags (.fan n [] :: stack) w.fanouts w.calls := h ▸ hw
      exact hcalls.pop (by simp)
  | fanSkipped n i rest stack h hr =>
      have hcalls : Fanouts w.releasedFlags (.fan n (i :: rest) :: stack) w.fanouts w.calls :=
        h ▸ hw
      have hlt : i < w.leases.length := by
        have hbound := hcalls.bound n (i :: rest) List.mem_cons_self i List.mem_cons_self
        rwa [releasedFlags, List.length_map] at hbound
      have hlease : w.leases[i]? = some w.leases[i] := List.getElem?_eq_getElem hlt
      refine hcalls.skip ((released_mem_iff hw).2 ⟨_, hlease, ?_⟩)
      rwa [released_eq hlease] at hr
  | fanCalled n i rest stack h hr =>
      have hcalls : Fanouts w.releasedFlags (.fan n (i :: rest) :: stack) w.fanouts w.calls :=
        h ▸ hw
      have hunreleased : .released i ∉ w.calls := by
        rw [released_mem_iff hw]
        rintro ⟨lease, hlease, hreleased⟩
        rw [released_eq hlease, hreleased] at hr
        simp at hr
      have hcalled : ({ w with stack := .fan n rest :: stack }.record (.called n i)).calls =
          w.calls ++ [.called n i] := by
        simp [calls, Entry.record, Effect.isCall]
      rw [Calls, hcalled]
      exact hcalls.call hunreleased
  | closed stack h =>
      have hcalls : Fanouts w.releasedFlags (.closing :: stack) w.fanouts w.calls := h ▸ hw
      have hpopped : ({ w with stack := stack } : Entry).Calls := hcalls.pop (by simp)
      exact hpopped.closeConnection
  | _ => exact hw

end Entry

namespace PostgreSQLObservationManager

variable {m m' : PostgreSQLObservationManager} {w : Entry} {delays : List ℕ}

theorem Reachable.routed (h : (machine delays).Reachable m) :
    ∀ w ∈ m.entries, w.Routed ∧ w.Calls :=
  Reachable.entries h (P := fun w => w.Routed ∧ w.Calls)
    (fun tenant => ⟨.new tenant delays, .new tenant delays⟩)
    fun _ _ hu hmove => ⟨hu.1.move hmove, hu.2.move hu.1 hmove⟩

/-- A notification is dropped, or starts the loop over the leases routed under its payload. -/
theorem step_notify {k c g : ℕ} {channel : String} {payload : Option String}
    (hk : m.entries[k]? = some w)
    (hg : (w.connections[c]?.bind Connection.registered) = some g)
    (hstep : m.step (.entry k (.notify c channel payload)) = some m') :
    m'.entries[k]? = some (w.notify c g channel payload) := by
  rw [step] at hstep
  split_ifs at hstep
  rw [hk, Option.bind_some] at hstep
  obtain ⟨w', hw', rfl⟩ := Option.map_eq_some_iff.1 hstep
  rw [Entry.step, if_pos (by simp [Event.synchronous]), Entry.perform, hg] at hw'
  obtain ⟨hlt, -⟩ := List.getElem?_eq_some_iff.1 hk
  rw [← Option.some.inj hw']
  exact List.getElem?_set_self hlt

/-- In every reachable state, the routing table of a live entry is exactly its validated and
unreleased leases, each under its own key. A notification starts the loop over the leases
routed under its payload when it comes from the connection of the current generation of a
live entry, and changes nothing otherwise. A fan-out calls only its leases, each at most
once; when its loop has ended each of them was called, or released before its turn. No
lease is called after its release. -/
theorem routing_exact (h : (machine delays).Reachable m) {k : ℕ} (hk : m.entries[k]? = some w) :
    (w.dead = false → ∀ key i, i ∈ Entry.routed w.routing key ↔
      ∃ lease, w.leases[i]? = some lease ∧ lease.ready = .fulfilled ∧
        lease.released = false ∧ lease.key = some key) ∧
    (∀ c g channel payload m', (w.connections[c]?.bind Connection.registered) = some g →
      m.step (.entry k (.notify c channel payload)) = some m' →
      ∃ w', m'.entries[k]? = some w' ∧ w'.log = w.log ∧
        (w.dead = true ∨ g ≠ w.generation → w' = w) ∧
        (w.dead = false → g = w.generation → ∀ key, key ≠ "" → channel = "arc_changes" →
          payload = some key →
          w'.fanouts = w.fanouts ++ [⟨.notification c key, Entry.routed w.routing key⟩] ∧
            w'.stack = .fan w.fanouts.length (Entry.routed w.routing key) :: w.stack)) ∧
    (∀ n fan, w.fanouts[n]? = some fan → ∀ i, w.log.count (.called n i) ≤ 1 ∧
      (.called n i ∈ w.log → i ∈ fan.targets) ∧
      ((∀ rest, .fan n rest ∉ w.stack) → i ∈ fan.targets →
        .called n i ∈ w.log ∨ .released i ∈ w.log)) ∧
    (∀ n i before after, w.log = before ++ .called n i :: after → .released i ∉ before) := by
  obtain ⟨hrouted, hcalls⟩ := Reachable.routed h w (List.mem_of_getElem? hk)
  have hmem : ∀ {effect : Effect}, effect.isCall = true → (effect ∈ w.calls ↔ effect ∈ w.log) :=
    fun hcall => by simp [Entry.calls, hcall]
  refine ⟨fun hdead key i => ?_, fun c g channel payload m' hg hstep => ?_, fun n fan hn i => ?_,
    fun n i before after hlog hreleased => ?_⟩
  · rw [hrouted.mem_routed hdead]
    constructor
    · rintro ⟨lease, hlease, hkey, hreleased⟩
      exact ⟨lease, hlease, (hrouted.fulfilled i lease hlease).1 (by rw [hkey]; rfl), hreleased,
        hkey⟩
    · rintro ⟨lease, hlease, -, hreleased, hkey⟩
      exact ⟨lease, hlease, hkey, hreleased⟩
  · refine ⟨_, step_notify hk hg hstep, ?_, fun hgone => ?_, fun hdead hcurrent key hkey hchannel
      hpayload => ?_⟩
    · cases payload with
      | none => rfl
      | some payload =>
          rw [Entry.notify]
          split <;> rfl
    · cases payload with
      | none => rfl
      | some payload =>
          rw [Entry.notify, if_pos]
          rcases hgone with hdead | hg'
          · simp [hdead]
          · simp [hg']
    · subst hpayload
      rw [Entry.notify, if_neg (by simp [hdead, hcurrent, hchannel, hkey])]
      exact ⟨rfl, rfl⟩
  · refine ⟨?_, fun hcalled => ?_, fun hended hi => ?_⟩
    · have hcount : w.log.count (.called n i) = w.calls.count (.called n i) :=
        (List.count_filter (by rfl)).symm
      rw [hcount]
      exact hcalls.ordered.count_le_one fun before hallowed => hallowed.1
    · obtain ⟨fan', hfan', hmem'⟩ := hcalls.called n i ((hmem rfl).2 hcalled)
      rw [hn] at hfan'
      cases hfan'
      exact hmem'
    · rcases hcalls.served n fan i hn hi with hcalled | hreleased | ⟨rest, hrest, -⟩
      · exact Or.inl ((hmem rfl).1 hcalled)
      · exact Or.inr ((hmem rfl).1 hreleased)
      · exact absurd hrest (hended rest)
  · have hsplit : w.calls = before.filter Effect.isCall ++ .called n i ::
        after.filter Effect.isCall := by
      rw [Entry.calls, hlog, List.filter_append, List.filter_cons_of_pos (by rfl)]
    exact (hcalls.ordered _ _ _ hsplit).2 (List.mem_filter.2 ⟨hreleased, rfl⟩)

def orders : PostgreSQLTableIdentity := ⟨"public.orders", "app", "1", "public", by decide⟩

/-- The row of a trigger made by `postgresqlChangeTrigger`. -/
def ordersTrigger : TriggerRow where
  tgtype := 60
  tgenabled := "O"
  noPredicate := true
  attributes := ""
  tgisinternal := false
  constraintOid := "0"
  tgnargs := 1
  arguments := "6172635f6368616e67657300"
  proname := "arc_notify_changes_v1"
  pronargs := 0
  returnsTrigger := true
  lanname := "plpgsql"
  functionSchema := "public"

/-- The first lease of a tenant is acquired and validated. -/
def validation : List ManagerEvent :=
  .acquire "tenant" ⟨0⟩ false :: [.send 0, .produce 0 .dedicated, .resumeStart .startup,
    .send 1, .answer 1 (.ok .done), .resumeStart .startup, .send 2, .answer 2 (.ok .done),
    .resumeStart .startup, .resumeReady 0, .send 3, .answer 3 (.ok (.identity orders)),
    .resumeReady 0, .send 4, .answer 4 (.ok (.database (some "app"))), .resumeReady 0,
    .send 5, .answer 5 (.ok (.trigger (some ordersTrigger))), .resumeReady 0,
    .resumeReady 0].map (.entry 0)

/-- A notification of the table, its call of `changed`, and one after the connection is lost. -/
def notification : List ManagerEvent :=
  validation ++ [.notify 0 "arc_changes" (some "public.orders"), .call, .call,
    .disconnect 0 true, .notify 0 "arc_changes" (some "public.orders")].map (.entry 0)

theorem routing_exact_notification :
    ∃ m w, (machine [500]).exec (new [500]) notification = some m ∧ m.entries[0]? = some w ∧
      0 ∈ Entry.routed w.routing "public.orders" ∧ w.log.count (.called 0 0) ≤ 1 := by
  have hreachable : ∀ m, (machine [500]).exec (new [500]) notification = some m →
      (machine [500]).Reachable m := fun m hm => ⟨notification, hm⟩
  have hexact := routing_exact (k := 0) (hreachable _ rfl) rfl
  exact ⟨_, _, rfl, rfl, (hexact.1 rfl _ 0).2 ⟨_, rfl, rfl, rfl, rfl⟩,
    (hexact.2.2.1 0 _ rfl 0).1⟩

end PostgreSQLObservationManager

end Arc.Drizzle.PostgreSQLObservation
