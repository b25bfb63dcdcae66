import Arc.Drizzle.StepMoves

/-!
# The life of an entry

An entry is opened, made ready by its first validated lease, lost and recovered, and retired.
`Lifecycle` says what its flags and its runs of `recover` have to do with one another: only
the last run can be active, none is while the entry is available, and one is while a live
entry that was ready once is not available. Every move keeps it.
-/

namespace Arc.Drizzle.PostgreSQLObservation

namespace Entry

/-- What the lifecycle reads of an entry. -/
structure Life where
  startup : Startup
  leases : List Lease
  wasReady : Bool
  available : Bool
  dead : Bool
  fired : Bool
  generation : ℕ
  recoveries : List Recovery
  heartbeats : List Heartbeat
  timer : Option ℕ

def life (w : Entry) : Life :=
  ⟨w.startup, w.leases, w.wasReady, w.available, w.dead, w.fired, w.generation, w.recoveries,
    w.heartbeats, w.timer⟩

/-- Between two attempts the signal has fired. A recovery at a lease has the current
generation until the signal fires. -/
def Life.stage (l : Life) : Recovery → Prop
  | .looping | .delayed => l.dead = true ∨ l.fired = true
  | .resolving g _ _ _ | .checking g _ _ _ _ | .validating g _ _ _ _ | .validated g _ _ _
  | .invalid g _ _ _ | .failing g _ => l.dead = true ∨ l.fired = true ∨ g = l.generation
  | .starting _ | .threw _ | .started | .ended => True

structure Lifecycle (D : Defect → Prop) (l : Life) : Prop where
  ready : l.wasReady = true → l.startup = .fulfilled ∧ l.leases ≠ []
  fresh : l.wasReady = false →
    l.recoveries = [] ∧ l.available = false ∧ l.heartbeats = [] ∧ l.timer = none
  started : ∀ lease ∈ l.leases, lease.ready = .starting ∨ (∃ f, lease.ready = .rejected f) ∨
    l.startup = .fulfilled
  leased : l.dead = false → l.leases ≠ [] → ∃ lease ∈ l.leases, lease.released = false
  last : ∀ (r : ℕ) (recovery : Recovery), l.recoveries[r]? = some recovery →
    recovery.active = true → r + 1 = l.recoveries.length
  idle : l.available = true → ∀ recovery ∈ l.recoveries, recovery = .ended
  stage : ∀ recovery ∈ l.recoveries, l.stage recovery
  retired : l.dead = true → l.fired = true
  running : ¬ D .abandoned → l.dead = false → l.wasReady = true → l.available = false →
    ∃ recovery ∈ l.recoveries, recovery.active = true

namespace Lifecycle

variable {D : Defect → Prop} {l : Life}

theorem active_of_ne_ended {recovery : Recovery} (h : recovery ≠ .ended) :
    recovery.active = true := by
  cases recovery <;> simp_all [Recovery.active]

/-- While one run is active every other has ended. -/
theorem others_ended (h : Lifecycle D l) {r s : ℕ} {recovery other : Recovery}
    (hr : l.recoveries[r]? = some recovery) (hactive : recovery ≠ .ended)
    (hs : l.recoveries[s]? = some other) (hne : s ≠ r) : other = .ended := by
  by_contra hother
  have hr' := h.last r recovery hr (active_of_ne_ended hactive)
  have hs' := h.last s other hs (active_of_ne_ended hother)
  omega

/-- An entry with an active run was ready and is not available. -/
theorem recovering (h : Lifecycle D l) {r : ℕ} {recovery : Recovery}
    (hr : l.recoveries[r]? = some recovery) (hactive : recovery ≠ .ended) :
    l.wasReady = true ∧ l.available = false := by
  have hmem := List.mem_of_getElem? hr
  constructor
  · by_contra hnot
    rw [(h.fresh (Bool.not_eq_true _ ▸ hnot)).1] at hmem
    cases hmem
  · by_contra hnot
    exact hactive (h.idle (Bool.not_eq_false _ ▸ hnot) recovery hmem)

/-- The active run goes to its next stage; the generation may grow and the signal be
replaced. -/
theorem restage (h : Lifecycle D l) (generation : ℕ) (fired : Bool) {r : ℕ} {old new : Recovery}
    (hr : l.recoveries[r]? = some old) (hold : old ≠ .ended)
    (hretired : l.dead = true → fired = true)
    (hnew : ({ l with fired := fired, generation := generation } : Life).stage new)
    (hrunning : new = .ended → D .abandoned ∨ l.dead = true) :
    Lifecycle D { l with
      fired := fired, generation := generation, recoveries := l.recoveries.set r new } := by
  obtain ⟨hready, havailable⟩ := h.recovering hr hold
  obtain ⟨hlt, -⟩ := List.getElem?_eq_some_iff.1 hr
  have hget : ∀ {s other}, (l.recoveries.set r new)[s]? = some other →
      (s = r ∧ other = new) ∨ (s ≠ r ∧ other = .ended) := by
    intro s other hs
    by_cases hsr : s = r
    · subst hsr
      rw [List.getElem?_set_self hlt] at hs
      exact Or.inl ⟨rfl, (Option.some.inj hs).symm⟩
    · rw [List.getElem?_set_ne (Ne.symm hsr)] at hs
      exact Or.inr ⟨hsr, h.others_ended hr hold hs hsr⟩
  refine ⟨h.ready, fun hfresh => ?_, h.started, h.leased, fun s other hs hactive => ?_,
    fun hidle => ?_, fun other hother => ?_, hretired, fun hD hdead _ _ => ?_⟩
  · rw [show l.wasReady = false from hfresh] at hready
    cases hready
  · rw [List.length_set]
    rcases hget hs with ⟨rfl, -⟩ | ⟨-, rfl⟩
    · exact h.last s old hr (active_of_ne_ended hold)
    · cases hactive
  · rw [show l.available = true from hidle] at havailable
    cases havailable
  · obtain ⟨s, hs⟩ := List.getElem?_of_mem hother
    rcases hget hs with ⟨-, rfl⟩ | ⟨-, rfl⟩
    · exact hnew
    · exact trivial
  · refine ⟨new, List.mem_of_getElem? (List.getElem?_set_self hlt), active_of_ne_ended fun hend => ?_⟩
    rcases hrunning hend with hD' | hdead'
    · exact hD hD'
    · rw [show l.dead = false from hdead] at hdead'
      cases hdead'

/-- The startup goes to its next stage. -/
theorem restart (h : Lifecycle D l) (startup : Startup) (generation : ℕ)
    (hstartup : l.startup ≠ .fulfilled) :
    Lifecycle D { l with startup := startup, generation := generation } := by
  have hready : l.wasReady = false := by
    by_contra hnot
    exact hstartup (h.ready (Bool.not_eq_false _ ▸ hnot)).1
  have hnone := (h.fresh hready).1
  refine ⟨fun hready' => ?_, h.fresh, fun lease hlease => ?_, h.leased, h.last, h.idle,
    fun recovery hmem => ?_, h.retired, fun _ _ hready' => ?_⟩
  · rw [show l.wasReady = true from hready'] at hready
    cases hready
  · rcases h.started lease hlease with hstarting | hrejected | hfulfilled
    · exact Or.inl hstarting
    · exact Or.inr (Or.inl hrejected)
    · exact absurd hfulfilled hstartup
  · rw [show l.recoveries = [] from hnone] at hmem
    cases hmem
  · rw [show l.wasReady = true from hready'] at hready
    cases hready

/-- The connection is lost, or the entry is retired: the signal fires. -/
theorem fire (h : Lifecycle D l) {dead : Bool} (hdead : l.dead = true → dead = true) :
    Lifecycle D { l with
      dead := dead, fired := true, generation := l.generation + 1, timer := none } := by
  refine ⟨h.ready, fun hfresh => ?_, h.started, fun hlive => ?_, h.last, h.idle,
    fun recovery hmem => ?_, fun _ => rfl, fun hD hlive => ?_⟩
  · obtain ⟨hnone, havailable, hheartbeats, -⟩ := h.fresh hfresh
    exact ⟨hnone, havailable, hheartbeats, rfl⟩
  · refine h.leased ?_
    by_contra hnot
    rw [hdead (Bool.not_eq_false _ ▸ hnot)] at hlive
    cases hlive
  · cases recovery
    all_goals first | exact trivial | exact Or.inr rfl | exact Or.inr (Or.inl rfl)
  · refine h.running hD ?_
    by_contra hnot
    rw [hdead (Bool.not_eq_false _ ▸ hnot)] at hlive
    cases hlive

/-- An available entry is lost: a run of `recover` starts. -/
theorem lose (h : Lifecycle D l) (havailable : l.available = true) :
    Lifecycle D { l with
      available := false
      fired := true
      generation := l.generation + 1
      timer := none
      recoveries := l.recoveries ++ [.looping] } := by
  have hready : l.wasReady = true := by
    by_contra hnot
    rw [(h.fresh (Bool.not_eq_true _ ▸ hnot)).2.1] at havailable
    cases havailable
  have hmem : ∀ {recovery}, recovery ∈ l.recoveries ++ [Recovery.looping] →
      recovery = .ended ∨ recovery = .looping := by
    intro recovery hmem
    rcases List.mem_append.1 hmem with hmem | hmem
    · exact Or.inl (h.idle havailable recovery hmem)
    · exact Or.inr (List.mem_singleton.1 hmem)
  refine ⟨h.ready, fun hfresh => ?_, h.started, h.leased, fun r recovery hr hactive => ?_,
    fun hidle => ?_, fun recovery hrecovery => ?_, fun _ => rfl, fun _ _ _ _ => ?_⟩
  · rw [show l.wasReady = false from hfresh] at hready
    cases hready
  · rcases Nat.lt_or_ge r l.recoveries.length with hlt | hge
    · rw [List.getElem?_append_left hlt] at hr
      rw [h.idle havailable recovery (List.mem_of_getElem? hr)] at hactive
      cases hactive
    · obtain ⟨hlt, -⟩ := List.getElem?_eq_some_iff.1 hr
      rw [List.length_append, List.length_singleton] at hlt ⊢
      omega
  · cases hidle
  · rcases hmem hrecovery with rfl | rfl
    · exact trivial
    · exact Or.inr rfl
  · exact ⟨.looping, List.mem_append_right _ (List.mem_singleton.2 rfl), rfl⟩

/-- The leases change, and the startup has been fulfilled for every lease under way. -/
theorem release (h : Lifecycle D l) (leases : List Lease) (hnil : leases ≠ [])
    (hstarted : ∀ lease ∈ leases, lease.ready = .starting ∨ (∃ f, lease.ready = .rejected f) ∨
      l.startup = .fulfilled)
    (hleased : l.dead = false → ∃ lease ∈ leases, lease.released = false) :
    Lifecycle D { l with leases := leases } :=
  ⟨fun hready => ⟨(h.ready hready).1, hnil⟩, h.fresh, hstarted, fun hdead _ => hleased hdead,
    h.last, h.idle, h.stage, h.retired, h.running⟩

/-- A lease is released; another one is left while the entry lives. -/
theorem unlease (h : Lifecycle D l) {i : ℕ} {lease : Lease} (hi : l.leases[i]? = some lease)
    (hleft : l.dead = false →
      ∃ other ∈ l.leases.set i { lease with released := true }, other.released = false) :
    Lifecycle D { l with leases := l.leases.set i { lease with released := true } } := by
  refine h.release _ ?_ (fun other hother => ?_) hleft
  · rw [← List.length_pos_iff_ne_nil, List.length_set]
    exact List.length_pos_iff_ne_nil.2 (List.ne_nil_of_mem (List.mem_of_getElem? hi))
  · rcases List.mem_or_eq_of_mem_set hother with hother | rfl
    · exact h.started other hother
    · exact h.started lease (List.mem_of_getElem? hi)

/-- The heartbeat of an entry that was ready. -/
theorem beat (h : Lifecycle D l) (heartbeats : List Heartbeat) (timer : Option ℕ)
    (hready : l.wasReady = false → heartbeats = [] ∧ timer = none) :
    Lifecycle D { l with heartbeats := heartbeats, timer := timer } :=
  ⟨h.ready, fun hfresh => ⟨(h.fresh hfresh).1, (h.fresh hfresh).2.1, hready hfresh⟩, h.started,
    h.leased, h.last, h.idle, h.stage, h.retired, h.running⟩

/-- The active run has made the entry available, or the first lease has. -/
theorem available (h : Lifecycle D l) (recoveries : List Recovery) (timer : Option ℕ)
    (hready : l.startup = .fulfilled ∧ l.leases ≠ [])
    (hended : ∀ recovery ∈ recoveries, recovery = .ended) :
    Lifecycle D { l with
      wasReady := true, available := true, recoveries := recoveries, timer := timer } := by
  refine ⟨fun _ => hready, fun hfresh => ?_, h.started, h.leased, fun r recovery hr hactive => ?_,
    fun _ => hended, fun recovery hmem => ?_, h.retired, fun _ _ _ havailable => ?_⟩
  · cases hfresh
  · rw [hended recovery (List.mem_of_getElem? hr)] at hactive
    cases hactive
  · rw [hended recovery hmem]
    exact trivial
  · cases havailable

/-- A lease changes; whether it is released does not. -/
theorem modify (h : Lifecycle D l) {i : ℕ} {lease : Lease} (hi : l.leases[i]? = some lease)
    (f : Lease → Lease) (hf : ∀ lease, (f lease).released = lease.released)
    (hready : (f lease).ready = .starting ∨ (∃ e, (f lease).ready = .rejected e) ∨
      l.startup = .fulfilled) : Lifecycle D { l with leases := l.leases.modify i f } := by
  have hmem : ∀ {other}, other ∈ l.leases.modify i f → other = f lease ∨ other ∈ l.leases := by
    intro other hother
    obtain ⟨j, hj⟩ := List.getElem?_of_mem hother
    rw [List.getElem?_modify] at hj
    by_cases hij : i = j
    · subst hij
      rw [hi] at hj
      exact Or.inl (by simpa using hj.symm)
    · exact Or.inr (List.mem_of_getElem? (by simpa [hij] using hj))
  have hnil : l.leases ≠ [] := List.ne_nil_of_mem (List.mem_of_getElem? hi)
  have hnil' : l.leases.modify i f ≠ [] := by
    rw [← List.length_pos_iff_ne_nil, List.length_modify]
    exact List.length_pos_iff_ne_nil.2 hnil
  refine h.release _ hnil' (fun other hother => ?_) fun hdead => ?_
  · rcases hmem hother with rfl | hother
    · exact hready
    · exact h.started other hother
  · obtain ⟨other, hother, hreleased⟩ := h.leased hdead hnil
    obtain ⟨j, hj⟩ := List.getElem?_of_mem hother
    by_cases hij : i = j
    · subst hij
      refine ⟨f other, List.mem_of_getElem? (i := i) ?_, (hf other).trans hreleased⟩
      rw [List.getElem?_modify, hj]
      simp
    · refine ⟨other, List.mem_of_getElem? (i := j) ?_, hreleased⟩
      rw [List.getElem?_modify, hj]
      simp [hij]

end Lifecycle

variable {D : Defect → Prop} {w w' : Entry}

/-- Quiet time does not come while a recovery of a retired entry waits for its delay. -/
theorem not_dead_of_quiet {r : ℕ} (hquiet : w.quiet = true)
    (h : w.recoveries[r]? = some .delayed) : w.dead = false := by
  simp only [quiet, Bool.and_eq_true, List.all_eq_true] at hquiet
  simpa [recoveryReady] using hquiet.1.2 _ (List.mem_of_getElem? h)

theorem exists_of_live (h : w.live ≠ []) : ∃ lease ∈ w.leases, lease.released = false := by
  obtain ⟨i, hi⟩ := List.exists_mem_of_ne_nil _ h
  obtain ⟨lease, hlease, hreleased⟩ := released_eq_false_iff.1 (mem_live.1 hi)
  exact ⟨lease, List.mem_of_getElem? hlease, hreleased⟩

theorem live_of_exists {lease : Lease} (h : lease ∈ w.leases) (hr : lease.released = false) :
    w.live ≠ [] := by
  obtain ⟨i, hi⟩ := List.getElem?_of_mem h
  exact List.ne_nil_of_mem (mem_live.2 (released_eq_false_iff.2 ⟨lease, hi, hr⟩))

theorem forget_life (table : Table) : (w.forget table).life = w.life := by
  unfold forget
  split <;> rfl

theorem stage_startup {stage : StartStage} (h : w.stage .startup = some stage) :
    w.startup = .running stage := by
  rw [Entry.stage] at h
  split at h
  · next hstartup =>
      cases h
      exact hstartup
  · cases h

theorem stage_recovery {r : ℕ} {stage : StartStage} (h : w.stage (.recovery r) = some stage) :
    w.recoveries[r]? = some (.starting stage) := by
  rw [Entry.stage] at h
  split at h
  · next hrecovery =>
      cases h
      exact hrecovery
  · cases h

namespace Lifecycle

theorem new (tenant : String) (delays : List ℕ) : Lifecycle D (Entry.new tenant delays).life where
  ready h := by simp [life, Entry.new] at h
  fresh _ := ⟨rfl, rfl, rfl, rfl⟩
  started lease h := by simp [life, Entry.new] at h
  leased _ h := absurd rfl h
  last r recovery h := by simp [life, Entry.new] at h
  idle h := by simp [life, Entry.new] at h
  stage recovery h := by simp [life, Entry.new] at h
  retired h := by simp [life, Entry.new] at h
  running _ _ h := by simp [life, Entry.new] at h

/-- The caller of `start` goes to its next stage. -/
theorem setStart (h : Lifecycle D w.life) {u : Entry} {host : Host} {stage : StartStage}
    (hstage : w.stage host = some stage)
    (hu : u.life = { w.life with generation := u.generation }) (result : StartResult) :
    Lifecycle D (u.setStart host result).life := by
  cases host with
  | startup =>
      have hstartup : w.life.startup ≠ .fulfilled := by
        rw [show w.life.startup = w.startup from rfl, stage_startup hstage]
        simp
      have hset : ∀ startup : Startup, Lifecycle D { u.life with startup := startup } := by
        intro startup
        rw [hu]
        exact h.restart startup _ hstartup
      cases result <;> exact hset _
  | recovery r =>
      have hset : ∀ new : Recovery, u.life.stage new → new ≠ .ended →
          Lifecycle D { u.life with recoveries := u.life.recoveries.set r new } := by
        intro new hnew hended
        rw [hu] at hnew ⊢
        exact h.restage _ w.fired (stage_recovery hstage) (by simp) h.retired hnew
          fun hend => absurd hend hended
      cases result <;> exact hset _ trivial (by simp)

/-- A run of `recover` goes to its next stage. -/
theorem setRecovery (h : Lifecycle D w.life) {r : ℕ} {old new : Recovery}
    (hr : w.recoveries[r]? = some old) (hold : old ≠ .ended) (hnew : w.life.stage new)
    (hended : new ≠ .ended) : Lifecycle D (w.setRecovery r new).life :=
  h.restage _ w.fired hr hold h.retired hnew fun hend => absurd hend hended

theorem stage_at (h : Lifecycle D w.life) {r : ℕ} {recovery : Recovery}
    (hr : w.recoveries[r]? = some recovery) : w.life.stage recovery :=
  h.stage recovery (List.mem_of_getElem? hr)

/-- The generation of the loop over leases is the current one until the signal fires. -/
theorem source (h : Lifecycle D w.life) {r g : ℕ} {recovery : Recovery}
    (hr : w.recoveries[r]? = some recovery) (hsource : w.LeaseSource recovery g) :
    recovery ≠ .ended ∧ (w.dead = true ∨ w.fired = true ∨ g = w.generation) := by
  have hstage := h.stage_at hr
  cases hsource with
  | started => exact ⟨by simp, Or.inr (Or.inr rfl)⟩
  | revalidating _ _ hg =>
      cases recovery <;> simp_all [Recovery.revalidating, Life.stage, life]
  | failing g rest => exact ⟨by simp, hstage⟩

theorem setReady (h : Lifecycle D w.life) {i : ℕ} {lease : Lease} (hi : w.leases[i]? = some lease)
    {ready : Ready} (hready : (∃ e, ready = .rejected e) ∨ w.startup = .fulfilled) :
    Lifecycle D (w.setReady i ready).life :=
  h.modify hi (fun lease => { lease with ready := ready }) (fun _ => rfl) (Or.inr hready)

/-- The startup is fulfilled when a lease is under way. -/
theorem startup_fulfilled (h : Lifecycle D w.life) {i : ℕ} {lease : Lease}
    (hi : w.leases[i]? = some lease)
    (hready : lease.ready.underway = true ∨ lease.ready = .fulfilled) : w.startup = .fulfilled := by
  rcases h.started lease (List.mem_of_getElem? hi) with hstarting | ⟨e, hrejected⟩ | hfulfilled
  · rw [hstarting] at hready
    rcases hready with hready | hready <;> cases hready
  · rw [hrejected] at hready
    rcases hready with hready | hready <;> cases hready
  · exact hfulfilled

theorem retire (h : Lifecycle D w.life) : Lifecycle D { w.life with
    dead := true, fired := true, generation := w.generation + 1, timer := none } :=
  h.fire fun _ => rfl

/-- A loss during a recovery. -/
theorem lost (h : Lifecycle D w.life) (havailable : w.available = false) :
    Lifecycle D { w.life with
      available := false, fired := true, generation := w.generation + 1, timer := none } := by
  have hfired := h.fire (fun hdead => hdead)
  rwa [show w.life.available = false from havailable] at hfired

/-- Every move keeps the lifecycle. -/
theorem move (hw : Lifecycle D w.life) (h : Move D w w') : Lifecycle D w'.life := by
  cases h with
  | opened previousClose h =>
      have hstartup : w.life.startup ≠ .fulfilled := by
        rw [show w.life.startup = w.startup from rfl, h]
        simp
      cases previousClose <;> exact hw.restart _ _ hstartup
  | acquired table =>
      refine hw.release (w.leases ++ [⟨table, none, false, .starting⟩]) (by simp)
        (fun lease hlease => ?_) fun _ => ⟨_, List.mem_append_right _ (List.mem_singleton.2 rfl), rfl⟩
      rcases List.mem_append.1 hlease with hlease | hlease
      · exact hw.started lease hlease
      · exact Or.inl (by rw [List.mem_singleton.1 hlease])
  | unleased i lease h hr hlive =>
      have hlife := forget_life (w := w.unlease i lease) lease.table
      rw [hlife]
      refine Lifecycle.unlease hw h fun hdead => ?_
      have hleases : ((w.unlease i lease).forget lease.table).leases =
          w.leases.set i { lease with released := true } := congrArg Life.leases hlife
      have hleft := exists_of_live (hlive.resolve_left (by rw [show w.dead = false from hdead]; simp))
      rwa [hleases] at hleft
  | unleasedLast i lease h hr hdead =>
      have hlife : ((w.unlease i lease).forget lease.table).shutdown.life =
          { w.life with
            dead := true, fired := true, generation := w.generation + 1, timer := none
            leases := w.leases.set i { lease with released := true } } := by
        unfold forget
        split <;> (rw [shutdown_eq (by exact hdead)]; rfl)
      rw [hlife]
      exact Lifecycle.unlease hw.retire h fun hlive => by simp at hlive
  | disposed hdead =>
      rw [dispose_eq hdead]
      exact hw.retire
  | terminated failure hdead =>
      rw [terminate_eq failure hdead]
      exact hw.retire
  | exhausted r h hdead =>
      rw [terminate_eq _ (by exact hdead)]
      exact hw.retire.restage _ true h (by simp) (fun _ => rfl) trivial fun _ => Or.inr rfl
  | lostAvailable message hdead hfired hready havailable =>
      rw [lose_eq]
      exact hw.lose havailable
  | lostRecovering message hdead hfired hready havailable =>
      rw [lose_eq]
      exact hw.lost havailable
  | lostExpired o op failure message hdead hfired hready havailable =>
      rw [lose_eq]
      exact hw.lost havailable
  | startThrew host stage failure h => exact hw.setStart h rfl _
  | startReturned host c o h => exact hw.setStart h rfl _
  | startRequested host o h => exact hw.setStart (u := w.request) h rfl _
  | startRetired host g o c h => exact hw.setStart (u := w.scheduleClose c) h rfl _
  | startRefused host g o c h => exact hw.setStart (u := w.scheduleClose c) h rfl _
  | startAdopted host g o c connection h =>
      exact hw.setStart (u := (w.adopt g c).bounded (.connect c)) h rfl _
  | startConnected host g c o h => exact hw.setStart (u := w.bounded (.listen c)) h rfl _
  | startupRejected failure thrown h =>
      refine hw.restart _ w.generation ?_
      rw [show w.life.startup = w.startup from rfl, h]
      simp
  | readyFailed i lease failure h => exact hw.setReady h (Or.inl ⟨_, rfl⟩)
  | readyWaiting i lease h hr hstarted =>
      exact hw.setReady h (Or.inr (hstarted.elim id fun hu => hw.startup_fulfilled h (Or.inl hu)))
  | readyResolving i lease h hr hreleased hstarted =>
      exact setReady (by exact hw) h
        (Or.inr (hstarted.elim id fun hu => hw.startup_fulfilled h (Or.inl hu)))
  | readyChecking i lease g o identity h hr | readyValidating i lease g o identity h hr
  | readyValidated i lease g o identity h hr | readyInvalid i lease g o identity failure h hr =>
      exact setReady (by exact hw) h
        (Or.inr (hw.startup_fulfilled h (Or.inl (by rw [hr]; rfl))))
  | routed i lease g identity h hr =>
      exact hw.modify h (fun lease => { lease with key := some identity.key, ready := .fulfilled })
        (fun _ => rfl) (Or.inr (Or.inr (hw.startup_fulfilled h (Or.inl (by rw [hr]; rfl)))))
  | becameReady i lease h hr hdead hready =>
      rw [becomeReady, if_neg (by simp [hready])]
      have hnone : w.recoveries = [] := (hw.fresh hready).1
      exact hw.available w.recoveries _
        ⟨hw.startup_fulfilled h (Or.inr hr), List.ne_nil_of_mem (List.mem_of_getElem? h)⟩
        (by simp [hnone])
  | looped r recovery h hr hdead hfired =>
      refine hw.setRecovery h ?_ (Or.inr hfired) (by simp)
      rintro rfl
      simp [Recovery.attempting] at hr
  | delayed r delay h hdead =>
      have hstage : w.life.stage .delayed := (hw.stage_at h : w.life.stage .looping)
      exact setRecovery (w := { w with retries := w.retries + 1 }.record .delay) (by exact hw) h
        (by simp) hstage (by simp)
  | ended r recovery h hactive hhost hgone =>
      have hrecovery : recovery ≠ .ended := by
        rintro rfl
        cases hactive
      refine hw.restage _ w.fired h hrecovery hw.retired trivial fun _ => Or.inr ?_
      by_contra hdead
      have hnil : w.live = [] := hgone.resolve_left hdead
      obtain ⟨lease, hlease, hreleased⟩ := hw.leased (Bool.not_eq_true _ ▸ hdead)
        (hw.ready (hw.recovering h hrecovery).1).2
      exact live_of_exists hlease hreleased hnil
  | attempted r previousClose h hquiet =>
      have hdead := not_dead_of_quiet hquiet h
      have hfired : w.dead = true → false = true := by simp [hdead]
      cases previousClose
      · exact hw.restage (w.generation + 1) false h (by simp) hfired trivial (by simp)
      · exact hw.restage w.generation false h (by simp) hfired trivial (by simp)
  | resolving r g i rest source h hsource =>
      obtain ⟨hended, hg⟩ := hw.source h hsource
      exact setRecovery (w := w.bounded (.resolve i)) (by exact hw) h hended hg (by simp)
  | checking r g o i rest identity h | validating r g o i rest identity h =>
      have hg : w.dead = true ∨ w.fired = true ∨ g = w.generation := hw.stage_at h
      exact setRecovery (by exact hw) h (by simp) hg (by simp)
  | validated r g o i rest identity h | invalid r g o i rest identity failure h =>
      have hg : w.dead = true ∨ w.fired = true ∨ g = w.generation := hw.stage_at h
      exact hw.setRecovery h (by simp) hg (by simp)
  | failing r g i rest recovery failure h hr hfired =>
      obtain ⟨hended, hg⟩ := hw.source h (.revalidating recovery g hr hfired)
      exact setRecovery (w := { w with stack := .recovering r :: w.stack }) (by exact hw) h hended
        hg (by simp)
  | recovered r source h hsource hdead hlive =>
      obtain ⟨hended, -⟩ := hw.source h hsource
      rw [Entry.recovered, if_neg (by simpa [hdead] using hlive)]
      obtain ⟨hready, -⟩ := hw.recovering h hended
      have hall : ∀ other ∈ w.recoveries.set r .ended, other = .ended := by
        intro other hother
        obtain ⟨s, hs⟩ := List.getElem?_of_mem hother
        by_cases hsr : s = r
        · subst hsr
          obtain ⟨hlt, -⟩ := List.getElem?_eq_some_iff.1 h
          rw [List.getElem?_set_self hlt] at hs
          exact (Option.some.inj hs).symm
        · rw [List.getElem?_set_ne (Ne.symm hsr)] at hs
          exact hw.others_ended h hended hs hsr
      have hrecovered : Lifecycle D { w.life with
          wasReady := w.wasReady, available := true, timer := some w.generation
          recoveries := w.recoveries.set r .ended } := by
        rw [show w.wasReady = true from hready]
        exact hw.available _ _ (hw.ready hready) hall
      exact hrecovered
  | abandoned r g source h hsource hg hdead habandoned =>
      obtain ⟨hended, hcurrent⟩ := hw.source h hsource
      refine hw.restage _ w.fired h hended hw.retired trivial fun _ => Or.inl ?_
      cases hsource with
      | started => exact absurd rfl hg
      | revalidating _ _ _ hfired =>
          rcases hcurrent with hdead' | hfired' | hg'
          · rw [hdead] at hdead'
            cases hdead'
          · rw [hfired] at hfired'
            cases hfired'
          · exact absurd hg' hg
      | failing _ rest => exact habandoned ⟨rest, rfl⟩
  | sent o op =>
      unfold Entry.send
      split
      all_goals try exact hw
      all_goals split <;> exact hw
  | produced o op shape =>
      unfold produce
      dsimp only
      split <;> exact hw
  | disarmed => exact hw.beat w.heartbeats none fun hfresh => ⟨(hw.fresh hfresh).2.2.1, rfl⟩
  | beating hdead htimer =>
      refine hw.beat (w.heartbeats ++ [.awaiting w.generation w.operations.length]) none
        fun hfresh => ?_
      rw [show w.timer = none from (hw.fresh hfresh).2.2.2] at htimer
      cases htimer
  | beatEnded h =>
      refine hw.beat (w.heartbeats.set h .ended) w.timer fun hfresh => ⟨?_, (hw.fresh hfresh).2.2.2⟩
      rw [show w.heartbeats = [] from (hw.fresh hfresh).2.2.1]
      rfl
  | beaten h o hh =>
      refine hw.beat (w.heartbeats.set h .ended) (some w.generation) fun hfresh => ?_
      rw [show w.heartbeats = [] from (hw.fresh hfresh).2.2.1] at hh
      cases hh
  | closed stack =>
      rw [closeConnection_eq]
      exact hw
  | _ => exact hw

end Lifecycle

end Entry

end Arc.Drizzle.PostgreSQLObservation
