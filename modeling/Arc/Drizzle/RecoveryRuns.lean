import Arc.Drizzle.RecoveryBudget

/-!
# Runs of recovery

An entry that becomes available again starts, in the same step, the loop that tells every
routed lease so. Along a run a live entry that was ready once is recovering whenever it is
not available, exactly as long as no recovery was abandoned: as long as the connection is
not lost inside the `fail` callback of the last lease recovery revalidates.
-/

namespace Arc.Drizzle.PostgreSQLObservation

namespace Entry

/-- The leases an entry calls when it is available again. -/
def catchUp (w : Entry) : List ℕ := w.live.filter fun i => (w.key i).isSome

/-- If the step has made an entry that was ready once available, it has started the loop over
the routed leases. -/
def CaughtUp (w w' : Entry) : Prop :=
  w'.available = true → w.available = true ∨ w.wasReady = false ∨
    ∃ g stack, w'.fanouts = w.fanouts ++ [⟨.recovered g, w'.catchUp⟩] ∧
      w'.stack = .fan w.fanouts.length w'.catchUp :: stack

variable {w w' u : Entry}

theorem CaughtUp.of_available (h : w'.available = true → w.available = true) : CaughtUp w w' :=
  fun havailable => Or.inl (h havailable)

theorem CaughtUp.congr (h : CaughtUp u w') (havailable : u.available = w.available)
    (hready : u.wasReady = w.wasReady) (hfanouts : u.fanouts = w.fanouts) : CaughtUp w w' := by
  intro h'
  have hcaught := h h'
  rwa [havailable, hready, hfanouts] at hcaught

/-! ### Steps that leave an entry as available as it was -/

theorem closeConnection_available : w.closeConnection.available = w.available := by
  rw [closeConnection_eq]

theorem shutdown_available : w.shutdown.available = w.available := by
  unfold shutdown
  split
  · rfl
  · exact closeConnection_available

theorem terminate_available (failure : Failure) :
    (w.terminate failure).available = w.available := by
  unfold terminate
  split
  · rfl
  · exact shutdown_available

theorem loop_available (r : ℕ) : (w.loop r).available = w.available := by
  unfold loop
  split_ifs
  · rfl
  · split
    · exact terminate_available _
    · rfl

theorem lost_available (message : String) (h : (w.lost message).available = true) :
    w.available = true := by
  unfold lost at h
  split_ifs at h
  · exact h
  · rwa [terminate_available] at h
  · rw [lose_eq] at h
    cases h
  · rw [recover, loop_available] at h
    have hlost : (w.lose message).available = true := h
    rw [lose_eq] at hlost
    cases hlost

theorem release_available (i : ℕ) : (w.release i).available = w.available := by
  have hforget : ∀ lease : Lease,
      ((w.unlease i lease).forget lease.table).available = w.available := by
    intro lease
    exact congrArg Life.available (forget_life (w := w.unlease i lease) lease.table)
  unfold release
  split
  · rfl
  · dsimp only
    split_ifs
    · rfl
    · rw [shutdown_available, hforget]
    · exact hforget _

theorem failReady_available (i : ℕ) (failure : Failure) :
    (w.failReady i failure).available = w.available := release_available i

theorem readyLoop_available (i : ℕ) : (w.readyLoop i).available = w.available := by
  unfold readyLoop
  split_ifs
  · exact failReady_available i _
  · rfl
  · rfl

theorem readyCaught_available (i g : ℕ) (failure : Failure) :
    (w.readyCaught i g failure).available = w.available := by
  unfold readyCaught
  split_ifs
  · exact readyLoop_available i
  · exact failReady_available i failure

theorem validate_available (identity : PostgreSQLTableIdentity) (outcome : Outcome)
    (h : (w.validate identity outcome).1.available = true) : w.available = true := by
  cases outcome with
  | error failure =>
      rw [validate] at h
      dsimp only at h
      split_ifs at h
      · exact lost_available _ h
      · exact h
  | ok value => exact h

theorem setStart_available (host : Host) (result : StartResult) :
    (w.setStart host result).available = w.available := by
  cases host <;> cases result <;> rfl

theorem resumeStart_available {stage : StartStage} {result : Entry × StartResult}
    (h : w.resumeStart stage = some result) : result.1.available = w.available := by
  cases stage with
  | closing o =>
      rw [resumeStart] at h
      split at h <;> cases h
      · rfl
      · split_ifs <;> rfl
  | opening g o =>
      rw [resumeStart] at h
      split at h
      · cases h
        rfl
      · obtain ⟨connection, -, rfl⟩ := Option.map_eq_some_iff.1 h
        rw [opened]
        split_ifs
        · rfl
        · cases connection.shape <;> rfl
      · cases h
  | connecting g c o =>
      rw [resumeStart] at h
      split at h <;> cases h <;> rfl
  | listening g c o =>
      rw [resumeStart] at h
      split at h <;> cases h <;> rfl
  | retiring =>
      cases h
      rfl

/-- Only the first validated lease makes an entry available from its promise `ready`. -/
theorem resumeReady_caughtUp {i : ℕ} {lease : Lease} (h : w.resumeReady i lease = some w') :
    CaughtUp w w' := by
  have heq : ∀ {u : Entry}, u.available = w.available → CaughtUp w u :=
    fun heq => .of_available fun havailable => heq ▸ havailable
  unfold resumeReady at h
  split at h
  · split at h <;> cases h
    · exact heq (readyLoop_available i)
    · exact heq (failReady_available i _)
  · split at h <;> cases h
    · refine heq ?_
      split_ifs
      · exact failReady_available i _
      · rfl
    · exact heq (failReady_available i _)
  · split at h <;> cases h
    · exact heq (readyCaught_available i _ _)
    · refine heq ?_
      split_ifs
      · exact readyCaught_available i _ _
      · exact readyLoop_available i
      · rfl
  · split at h <;> cases h
    · exact heq (readyCaught_available i _ _)
    · refine heq ?_
      split_ifs
      · exact readyCaught_available i _ _
      · rfl
  · next g o identity _ =>
      obtain ⟨outcome, -, rfl⟩ := Option.map_eq_some_iff.1 h
      have hvalidate := validate_available (w := w) identity outcome
      refine .of_available fun havailable => ?_
      split at havailable
      · next hu =>
          rw [hu] at hvalidate
          exact hvalidate havailable
      · next hu =>
          rw [hu] at hvalidate
          exact hvalidate havailable
  · cases h
    rw [Entry.validated]
    split_ifs
    · exact heq (readyCaught_available i _ _)
    · exact heq (readyLoop_available i)
    · exact heq (readyCaught_available i _ _)
    · intro havailable
      rw [becomeReady] at havailable
      split_ifs at havailable with hready
      · exact Or.inl havailable
      · exact Or.inr (Or.inl (Bool.not_eq_true _ ▸ hready))
  · cases h
    exact heq (readyCaught_available i _ _)
  · cases h

/-! ### Recovery -/

theorem recovered_caughtUp (r g : ℕ) : CaughtUp w (w.recovered r g) := by
  intro havailable
  unfold Entry.recovered at havailable ⊢
  split_ifs at havailable ⊢
  · exact Or.inl havailable
  · exact Or.inr (Or.inr ⟨g, w.stack, rfl, rfl⟩)

theorem leaseLoop_caughtUp (r g : ℕ) (rest : List ℕ) : CaughtUp w (w.leaseLoop r g rest) := by
  induction rest with
  | nil => exact recovered_caughtUp r g
  | cons i rest ih =>
      rw [leaseLoop]
      split_ifs
      · exact ih
      · exact .of_available fun h => h

theorem caught_caughtUp (r : ℕ) (failure : Failure) : CaughtUp w (w.caught r failure) := by
  refine .of_available fun h => ?_
  unfold caught at h
  split_ifs at h
  · exact h
  · rwa [loop_available] at h
  all_goals
    rw [loop_available] at h
    exact lost_available _ h

theorem leaseCaught_caughtUp (r g i : ℕ) (rest : List ℕ) (failure : Failure) :
    CaughtUp w (w.leaseCaught r g i rest failure) := by
  unfold leaseCaught
  split_ifs
  · exact caught_caughtUp r failure
  · exact leaseLoop_caughtUp r g rest
  · exact .of_available fun h => h
  · exact caught_caughtUp r readerFailure

theorem resumeRecovery_caughtUp {r : ℕ} {recovery : Recovery}
    (h : w.resumeRecovery r recovery = some w') : CaughtUp w w' := by
  have heq : ∀ {u : Entry}, u.available = w.available → CaughtUp w u :=
    fun heq => .of_available fun havailable => heq ▸ havailable
  unfold resumeRecovery at h
  split at h
  · split_ifs at h
    cases h
    exact heq rfl
  · cases h
    exact caught_caughtUp r _
  · cases h
    exact leaseLoop_caughtUp r _ _
  · split at h <;> cases h
    · exact leaseCaught_caughtUp r _ _ _ _
    · split_ifs
      · exact leaseCaught_caughtUp r _ _ _ _
      · exact heq rfl
  · split at h <;> cases h
    · exact leaseCaught_caughtUp r _ _ _ _
    · split_ifs
      · exact leaseCaught_caughtUp r _ _ _ _
      · exact heq rfl
  · next g o identity i rest =>
      obtain ⟨outcome, -, rfl⟩ := Option.map_eq_some_iff.1 h
      have hvalidate := validate_available (w := w) identity outcome
      refine .of_available fun havailable => ?_
      split at havailable
      · next hu =>
          rw [hu] at hvalidate
          exact hvalidate havailable
      · next hu =>
          rw [hu] at hvalidate
          exact hvalidate havailable
  · cases h
    rw [Entry.revalidated]
    by_cases hfired : w.fired = true
    · rw [if_pos hfired]
      exact leaseCaught_caughtUp r _ _ _ _
    · rw [if_neg hfired]
      refine (leaseLoop_caughtUp r _ _).congr ?_ ?_ ?_
      all_goals
        split
        · split <;> rfl
        · rfl
  · cases h
    exact leaseCaught_caughtUp r _ _ _ _
  · cases h

/-- A step that makes an entry available again starts the loop over its routed leases. -/
theorem step_caughtUp {e : Event} (hstep : w.step e = some w') : CaughtUp w w' := by
  have heq : ∀ {u : Entry}, u.available = w.available → CaughtUp w u :=
    fun heq => .of_available fun havailable => heq ▸ havailable
  rw [step] at hstep
  split_ifs at hstep
  cases e with
  | «open» previousClose =>
      rw [perform] at hstep
      split_ifs at hstep
      cases hstep
      cases previousClose <;> exact heq rfl
  | acquire table =>
      rw [perform] at hstep
      split_ifs at hstep
      cases hstep
      exact heq rfl
  | release i =>
      cases hstep
      exact heq (release_available i)
  | dispose =>
      cases hstep
      refine heq ?_
      unfold dispose
      split <;> rfl
  | call =>
      rw [perform, call] at hstep
      split at hstep
      · cases hstep
      · cases hstep
        exact heq rfl
      · cases hstep
        refine heq ?_
        split_ifs <;> rfl
      · split at hstep
        · cases hstep
          exact (leaseLoop_caughtUp _ _ _).congr rfl rfl rfl
        · cases hstep
      · cases hstep
        exact heq closeConnection_available
  | send o =>
      rw [perform] at hstep
      split at hstep
      · split_ifs at hstep
        cases hstep
        refine heq ?_
        unfold Entry.send
        split
        all_goals first | rfl | (split <;> rfl)
      · cases hstep
  | answer o outcome =>
      rw [perform] at hstep
      split at hstep
      · split_ifs at hstep
        cases hstep
        refine .of_available fun h => ?_
        unfold answer at h
        split at h
        · exact h
        · split_ifs at h
          · exact lost_available _ h
          · exact h
        · exact h
      · cases hstep
  | produce o shape =>
      rw [perform] at hstep
      split at hstep
      · split_ifs at hstep
        cases hstep
        refine heq ?_
        unfold produce
        dsimp only
        split <;> rfl
      · cases hstep
  | timeout o =>
      rw [perform] at hstep
      split at hstep
      · split_ifs at hstep
        cases hstep
        refine .of_available fun h => ?_
        unfold timeout at h
        split_ifs at h
        · exact lost_available (w := w.settle o _) _ h
        · exact h
      · cases hstep
  | resumeStart host =>
      obtain ⟨stage, -, hstep⟩ := Option.bind_eq_some_iff.1 hstep
      obtain ⟨result, hresult, rfl⟩ := Option.map_eq_some_iff.1 hstep
      exact heq ((setStart_available host _).trans (resumeStart_available hresult))
  | rejectStartup =>
      rw [perform] at hstep
      split at hstep
      · cases hstep
        exact heq (terminate_available _)
      · cases hstep
  | resumeReady i =>
      obtain ⟨lease, -, hstep⟩ := Option.bind_eq_some_iff.1 hstep
      exact resumeReady_caughtUp hstep
  | resumeRecovery r =>
      obtain ⟨recovery, -, hstep⟩ := Option.bind_eq_some_iff.1 hstep
      exact resumeRecovery_caughtUp hstep
  | attempt r previousClose =>
      rw [perform] at hstep
      split_ifs at hstep
      cases hstep
      cases previousClose <;> exact heq rfl
  | beat =>
      rw [perform] at hstep
      split_ifs at hstep
      obtain ⟨g, -, rfl⟩ := Option.map_eq_some_iff.1 hstep
      refine heq ?_
      unfold beat
      dsimp only
      split_ifs <;> rfl
  | resumeHeartbeat h =>
      obtain ⟨heartbeat, -, hstep⟩ := Option.bind_eq_some_iff.1 hstep
      refine .of_available fun havailable => ?_
      unfold resumeHeartbeat at hstep
      split at hstep
      · split at hstep
        · cases hstep
        · cases hstep
          split_ifs at havailable <;> exact havailable
        · cases hstep
          split_ifs at havailable
          · exact lost_available _ havailable
          · exact havailable
      · cases hstep
  | disconnect c error =>
      obtain ⟨g, -, rfl⟩ := Option.map_eq_some_iff.1 hstep
      refine .of_available fun h => ?_
      unfold disconnect at h
      by_cases hcurrent : (!w.dead && decide (g = w.generation)) = true
      · rw [if_pos hcurrent] at h
        exact lost_available _ h
      · rwa [if_neg hcurrent] at h
  | notify c channel payload =>
      obtain ⟨g, -, rfl⟩ := Option.map_eq_some_iff.1 hstep
      refine heq ?_
      unfold notify
      split
      · rfl
      · split_ifs <;> rfl

/-! ### States of a run -/

/-- What recovery owes: one run at a time, a run while a live entry is not available, no more
delays than configured, and every lease called by a fan-out that has ended. -/
structure Recovers (w : Entry) : Prop where
  one : ∀ (r s : ℕ) (a b : Recovery), w.recoveries[r]? = some a → w.recoveries[s]? = some b →
    a.active = true → b.active = true → r = s
  running : w.dead = false → w.wasReady = true → w.live ≠ [] → w.available = false →
    ∃ recovery ∈ w.recoveries, recovery.active = true
  delays : delaysSince w.log ≤ w.delays.length
  exhausted : w.delays.length < w.retries → w.dead = true ∧ ∃ (n : ℕ) (fan : Fanout),
    w.fanouts[n]? = some fan ∧ (∃ failure, fan.cause = .terminated failure) ∧
      ∀ i ∈ w.live, i ∈ fan.targets
  called : ∀ (n : ℕ) (fan : Fanout), w.fanouts[n]? = some fan →
    (∀ rest, .fan n rest ∉ w.stack) → ∀ i ∈ fan.targets,
      .called n i ∈ w.log ∨ .released i ∈ w.log

/-- What every reachable state has. -/
structure Recoverable (w : Entry) : Prop where
  routed : w.Routed
  calls : w.Calls
  spent : w.Spent
  lifecycle : Lifecycle (fun _ => True) w.life

theorem Recoverable.new (tenant : String) (delays : List ℕ) :
    (Entry.new tenant delays).Recoverable :=
  ⟨.new tenant delays, .new tenant delays, .new tenant delays, .new tenant delays⟩

theorem Recoverable.move (h : w.Recoverable) (hmove : Move (fun _ => True) w w') :
    w'.Recoverable :=
  ⟨h.routed.move hmove, h.calls.move h.routed hmove, h.spent.move hmove, h.lifecycle.move hmove⟩

theorem mem_calls {effect : Effect} (h : effect.isCall = true) :
    effect ∈ w.calls ↔ effect ∈ w.log := by
  simp [calls, h]

/-- An entry is recovering exactly when a run is active while it is not available. -/
theorem Recoverable.recovers (h : w.Recoverable)
    (hrunning : w.dead = false → w.wasReady = true → w.available = false →
      ∃ recovery ∈ w.recoveries, recovery.active = true) : w.Recovers := by
  refine ⟨fun r s a b hr hs ha hb => ?_, fun hdead hready _ => hrunning hdead hready,
    h.spent.bound, fun hspent => ?_, fun n fan hn hended i hi => ?_⟩
  · have hr' := h.lifecycle.last r a hr ha
    have hs' := h.lifecycle.last s b hs hb
    omega
  · obtain ⟨hdead, n, fan, hfan, hcause, hall⟩ := h.spent.exhausted hspent
    refine ⟨hdead, n, fan, hfan, hcause, fun i hi => hall i ?_⟩
    obtain ⟨lease, hlease, hreleased⟩ := released_eq_false_iff.1 (mem_live.1 hi)
    rw [releasedFlags, List.getElem?_map, hlease, Option.map_some, hreleased]
  · rcases h.calls.served n fan i hn hi with hcalled | hreleased | ⟨rest, hrest, -⟩
    · exact Or.inl ((mem_calls rfl).1 hcalled)
    · exact Or.inr ((mem_calls rfl).1 hreleased)
    · exact absurd hrest (hended rest)

theorem live_ne_nil (h : w.Recoverable) (hdead : w.dead = false) (hready : w.wasReady = true) :
    w.live ≠ [] := by
  obtain ⟨lease, hlease, hreleased⟩ := h.lifecycle.leased hdead (h.lifecycle.ready hready).2
  exact live_of_exists hlease hreleased

/-- While a run is active, the lifecycle holds as if no recovery was ever abandoned. -/
theorem Recoverable.sound (h : w.Recoverable) (hw : w.Recovers) :
    Lifecycle (fun d => d ≠ .abandoned) w.life :=
  ⟨h.lifecycle.ready, h.lifecycle.fresh, h.lifecycle.started, h.lifecycle.leased,
    h.lifecycle.last, h.lifecycle.idle, h.lifecycle.stage, h.lifecycle.retired,
    fun _ hdead hready havailable =>
      hw.running hdead hready (live_ne_nil h hdead hready) havailable⟩

theorem leaseLoop_of_skips {r g : ℕ} {rest : List ℕ} (h : rest.all w.skips = true) :
    w.leaseLoop r g rest = w.recovered r g := by
  induction rest with
  | nil => rfl
  | cons i rest ih =>
      rw [List.all_cons, Bool.and_eq_true] at h
      have hskips : (w.released i || (w.key i).isNone) = true := h.1
      rw [leaseLoop, if_pos hskips]
      exact ih h.2

/-- Which events abandon a recovery. -/
theorem abandons_eq_true_iff {e : Event} :
    w.abandons e = true ↔ e = .call ∧ ∃ r stack g rest, w.stack = .recovering r :: stack ∧
      w.recoveries[r]? = some (.failing g rest) ∧ w.dead = false ∧ g ≠ w.generation ∧
      rest.all w.skips = true := by
  constructor
  · intro h
    cases e with
    | call =>
        unfold abandons at h
        dsimp only at h
        split at h
        · next r stack hstack =>
            split at h
            · next g rest hr =>
                rw [Bool.and_eq_true, Bool.and_eq_true, Bool.not_eq_true', decide_eq_true_iff] at h
                exact ⟨rfl, r, stack, g, rest, hstack, hr, h.1.1, h.1.2, h.2⟩
            · cases h
        · cases h
    | _ => cases h
  · rintro ⟨rfl, r, stack, g, rest, hstack, hr, hdead, hg, hrest⟩
    unfold abandons
    dsimp only
    rw [hstack]
    dsimp only
    rw [hr]
    simp [hdead, hg, hrest]

/-- A recovery that is abandoned leaves a live entry that no run recovers. -/
theorem not_recovers_of_abandons (h : w.Recoverable) {e : Event} (habandons : w.abandons e = true)
    (hstep : w.step e = some w') : ¬ w'.Recovers := by
  obtain ⟨rfl, r, stack, g, rest, hstack, hr, hdead, hg, hrest⟩ :=
    abandons_eq_true_iff.1 habandons
  have hskips : rest.all ({ w with stack := stack } : Entry).skips = true := hrest
  have hloop : ({ w with stack := stack } : Entry).leaseLoop r g rest =
      ({ w with stack := stack } : Entry).setRecovery r .ended := by
    rw [leaseLoop_of_skips hskips, Entry.recovered, if_pos (by simp [hg])]
  rw [step, if_pos (by simp [Event.synchronous]), perform, call, hstack] at hstep
  dsimp only at hstep
  rw [hr] at hstep
  dsimp only at hstep
  rw [hloop] at hstep
  cases hstep
  obtain ⟨hready, havailable⟩ := h.lifecycle.recovering hr (by simp)
  have hlive : w.live ≠ [] := live_ne_nil h hdead hready
  intro hw
  obtain ⟨recovery, hmem, hactive⟩ := hw.running hdead hready hlive havailable
  obtain ⟨s, hs⟩ := List.getElem?_of_mem hmem
  have hended : recovery = .ended := by
    by_cases hsr : s = r
    · subst hsr
      obtain ⟨hlt, -⟩ := List.getElem?_eq_some_iff.1 hr
      rw [show (({ w with stack := stack } : Entry).setRecovery s .ended).recoveries =
        w.recoveries.set s .ended from rfl, List.getElem?_set_self hlt] at hs
      exact (Option.some.inj hs).symm
    · rw [show (({ w with stack := stack } : Entry).setRecovery r .ended).recoveries =
        w.recoveries.set r .ended from rfl, List.getElem?_set_ne (Ne.symm hsr)] at hs
      exact h.lifecycle.others_ended hr (by simp) hs hsr
  rw [hended] at hactive
  cases hactive

end Entry

namespace PostgreSQLObservationManager

variable {m m' : PostgreSQLObservationManager} {w w' : Entry} {delays : List ℕ}

/-- An entry changes only by a step of its own. -/
theorem step_entry {e : ManagerEvent} {k : ℕ} (hstep : m.step e = some m')
    (hk : m.entries[k]? = some w) (hk' : m'.entries[k]? = some w') :
    w' = w ∨ ∃ e', w.step e' = some w' := by
  have hupdate : ∀ {j u u'} (_ : m.entries[j]? = some u) (e' : Event) (_ : u.step e' = some u')
      (_ : (m.update j u').entries[k]? = some w'), w' = w ∨ ∃ e', w.step e' = some w' := by
    intro j u u' hj e' hu hget
    have hget' : (m.entries.set j u')[k]? = some w' := hget
    by_cases hjk : j = k
    · subst hjk
      obtain ⟨hlt, -⟩ := List.getElem?_eq_some_iff.1 hj
      rw [List.getElem?_set_self hlt] at hget'
      rw [hk] at hj
      cases hj
      exact Or.inr ⟨e', by rw [hu, ← hget']⟩
    · rw [List.getElem?_set_ne hjk, hk] at hget'
      exact Or.inl (Option.some.inj hget').symm
  cases e with
  | acquire tenant table previousClose =>
      rw [step] at hstep
      split_ifs at hstep
      split at hstep
      · obtain ⟨u, hu, hstep⟩ := Option.bind_eq_some_iff.1 hstep
        obtain ⟨u', hu', rfl⟩ := Option.map_eq_some_iff.1 hstep
        exact hupdate hu _ hu' hk'
      · obtain ⟨u, -, hstep⟩ := Option.bind_eq_some_iff.1 hstep
        obtain ⟨u', -, rfl⟩ := Option.map_eq_some_iff.1 hstep
        obtain ⟨hlt, -⟩ := List.getElem?_eq_some_iff.1 hk
        have hget : (m.entries ++ [u'])[k]? = some w' := hk'
        rw [List.getElem?_append_left hlt, hk] at hget
        exact Or.inl (Option.some.inj hget).symm
  | entry j e =>
      rw [step] at hstep
      split_ifs at hstep
      obtain ⟨u, hu, hstep⟩ := Option.bind_eq_some_iff.1 hstep
      obtain ⟨u', hu', rfl⟩ := Option.map_eq_some_iff.1 hstep
      exact hupdate hu _ hu' hk'
  | dispose =>
      rw [step] at hstep
      split_ifs at hstep <;> cases hstep <;> (rw [hk] at hk'; exact Or.inl (Option.some.inj hk').symm)
  | shutdownNext =>
      rw [step] at hstep
      split at hstep
      · cases hstep
      · obtain ⟨u, hu, hstep⟩ := Option.bind_eq_some_iff.1 hstep
        obtain ⟨u', hu', rfl⟩ := Option.map_eq_some_iff.1 hstep
        exact hupdate hu _ hu' hk'

theorem recoverable_step {e : ManagerEvent} (hm : m.delays = delays ∧ ∀ w ∈ m.entries, w.Recoverable)
    (hstep : m.step e = some m') : m'.delays = delays ∧ ∀ w ∈ m'.entries, w.Recoverable :=
  ⟨(step_delays hstep).trans hm.1, step_entries hstep (fun tenant => .new tenant _)
    (fun _ _ _ hw hw' _ => Entry.Moves.preserves (D := fun _ => True)
      (fun _ _ hu hmove => hu.move hmove) hw (Entry.step_moves hw' fun _ _ => trivial)) hm.2⟩

/-- A step keeps every entry recovering exactly when it abandons no recovery. -/
theorem recovers_step_iff {e : ManagerEvent}
    (hm : m.delays = delays ∧ ∀ w ∈ m.entries, w.Recoverable)
    (hrecovers : ∀ w ∈ m.entries, w.Recovers) (hstep : m.step e = some m') :
    (∀ w ∈ m'.entries, w.Recovers) ↔ m.commits e .abandoned = false := by
  constructor
  · intro hrecovers'
    by_contra habandons
    rw [Bool.not_eq_false] at habandons
    cases e with
    | entry k e =>
        rw [commits, Option.any_eq_true] at habandons
        obtain ⟨w, hk, habandons⟩ := habandons
        rw [step] at hstep
        split_ifs at hstep
        rw [hk, Option.bind_some] at hstep
        obtain ⟨w', hw', rfl⟩ := Option.map_eq_some_iff.1 hstep
        have hmem : w' ∈ (m.update k w').entries := by
          obtain ⟨hlt, -⟩ := List.getElem?_eq_some_iff.1 hk
          exact List.mem_of_getElem? (i := k) (List.getElem?_set_self hlt)
        exact Entry.not_recovers_of_abandons (hm.2 w (List.mem_of_getElem? hk)) habandons hw'
          (hrecovers' w' hmem)
    | _ => cases habandons
  · intro habandons w' hw'
    have hsound : ∀ w ∈ m'.entries, Entry.Lifecycle (fun d => d ≠ .abandoned) w.life := by
      refine step_entries hstep (fun tenant => .new tenant _) (fun w e' w' hw hstep' hcommits => ?_)
        fun w hw => (hm.2 w hw).sound (hrecovers w hw)
      refine Entry.Moves.preserves (D := fun d => d ≠ .abandoned)
        (P := fun u => Entry.Lifecycle (fun d => d ≠ .abandoned) u.life)
        (fun _ _ hu hmove => hu.move hmove) hw (Entry.step_moves hstep' fun d hd heq => ?_)
      subst heq
      rw [hcommits _ hd] at habandons
      cases habandons
    have hreach := (recoverable_step hm hstep).2 w' hw'
    exact hreach.recovers ((hsound w' hw').running (fun h => h rfl))

/-- Along a run every entry recovers exactly when no step of the run abandons a recovery. A
step that makes an entry available again starts the loop over all its routed leases, and
nothing awaited resumes before that loop has ended. -/
theorem recovery_loses_no_update {es : List ManagerEvent}
    (hrun : (machine delays).exec (new delays) es = some m) :
    ((machine delays).Always (fun m => ∀ w ∈ m.entries, w.Recovers) (new delays) es ↔
      (machine delays).Within (fun m e => m.commits e .abandoned = false) (new delays) es) ∧
    (∀ (e : ManagerEvent) (m' : PostgreSQLObservationManager) (k : ℕ) (w w' : Entry),
      m.step e = some m' → m.entries[k]? = some w → m'.entries[k]? = some w' → w.wasReady = true →
      w.available = false → w'.available = true →
      ∃ g stack, w'.fanouts = w.fanouts ++ [⟨.recovered g, w'.catchUp⟩] ∧
        w'.stack = .fan w.fanouts.length w'.catchUp :: stack ∧
        ∀ key, ∀ i ∈ Entry.routed w'.routing key, i ∈ w'.catchUp) ∧
    (∀ (k : ℕ) (w : Entry) (e : Event), m.entries[k]? = some w → w.stack ≠ [] →
      e.synchronous = false → m.step (.entry k e) = none) := by
  refine ⟨?_, fun e m' k w w' hstep hk hk' hready hlost havailable => ?_,
    fun k w e hk hstack hasync => ?_⟩
  · exact (machine delays).always_iff
      (I := fun m => m.delays = delays ∧ ∀ w ∈ m.entries, w.Recoverable)
      (fun m e m' hm hstep => recoverable_step hm hstep)
      (fun m e m' hm hrecovers hstep => recovers_step_iff hm hrecovers hstep)
      ⟨rfl, by simp [new]⟩ (by simp [new]) hrun
  · have hreachable : (machine delays).Reachable m' :=
      ⟨es ++ [e], (machine delays).exec_concat hrun hstep⟩
    have hrouted := (Reachable.routed hreachable w' (List.mem_of_getElem? hk')).1
    rcases step_entry hstep hk hk' with rfl | ⟨e', hw'⟩
    · rw [hlost] at havailable
      cases havailable
    · rcases Entry.step_caughtUp hw' havailable with hwas | hfresh | ⟨g, stack, hfanouts, hstack⟩
      · rw [hlost] at hwas
        cases hwas
      · rw [hready] at hfresh
        cases hfresh
      · refine ⟨g, stack, hfanouts, hstack, fun key i hi => ?_⟩
        have hdead : w'.dead = false := by
          by_contra hdead
          rw [hrouted.retired (Bool.not_eq_false _ ▸ hdead)] at hi
          cases hi
        obtain ⟨lease, hlease, hkey, hreleased⟩ := (hrouted.mem_routed hdead key i).1 hi
        refine List.mem_filter.2 ⟨Entry.mem_live.2 ?_, ?_⟩
        · rw [Entry.released_eq hlease, hreleased]
        · rw [Entry.key, hlease, Option.bind_some, hkey]
          rfl
  · rw [step]
    split_ifs with hguard
    · rw [hasync, Bool.false_or, Bool.and_eq_true] at hguard
      rw [idle, Bool.and_eq_true, List.all_eq_true] at hguard
      have hempty := hguard.2.2 w (List.mem_of_getElem? hk)
      rw [List.isEmpty_iff] at hempty
      exact absurd hempty hstack
    · rfl

/-- The connection is lost, a second lease is acquired, and the recovery reads the trigger of
the first lease again on a new connection. -/
def revalidation (row : Option TriggerRow) : List ManagerEvent :=
  validation ++ .entry 0 (.disconnect 0 true) :: .acquire "tenant" ⟨0⟩ false ::
    [.resumeReady 1, .attempt 0 false, .send 6, .produce 6 .dedicated,
      .resumeStart (.recovery 0), .send 7, .answer 7 (.ok .done), .resumeStart (.recovery 0),
      .send 8, .answer 8 (.ok .done), .resumeStart (.recovery 0), .resumeRecovery 0, .send 9,
      .answer 9 (.ok (.identity orders)), .resumeRecovery 0, .send 10,
      .answer 10 (.ok (.database (some "app"))), .resumeRecovery 0, .send 11,
      .answer 11 (.ok (.trigger row)), .resumeRecovery 0, .resumeRecovery 0].map (.entry 0)

theorem recovery_loses_no_update_revalidation :
    ∃ m w, (machine [500]).exec (new [500]) (revalidation (some ordersTrigger)) = some m ∧
      m.entries[0]? = some w ∧ w.available = true ∧ w.stack = [.fan 0 [0]] ∧
      (machine [500]).Always (fun m => ∀ w ∈ m.entries, w.Recovers) (new [500])
        (revalidation (some ordersTrigger)) :=
  ⟨_, _, rfl, rfl, rfl, rfl, (recovery_loses_no_update rfl).1.2 (by decide)⟩

/-- The trigger of the first lease is gone; the new connection is lost while the lease is told
so, and the second lease is still waiting. -/
def abandonment : List ManagerEvent :=
  revalidation none ++ [.call, .disconnect 1 true, .call, .call].map (.entry 0)

theorem abandonment_abandoned :
    ∃ m w, (machine [500]).exec (new [500]) abandonment = some m ∧ m.entries[0]? = some w ∧
      w.dead = false ∧ w.wasReady = true ∧ w.live = [0, 1] ∧ w.available = false ∧
      ∀ recovery ∈ w.recoveries, recovery.active = false :=
  ⟨_, _, rfl, rfl, rfl, rfl, rfl, rfl, by decide⟩

end PostgreSQLObservationManager

end Arc.Drizzle.PostgreSQLObservation
