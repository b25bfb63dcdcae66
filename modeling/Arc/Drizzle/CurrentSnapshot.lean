import Arc.Drizzle.LatestSnapshot

/-!
# What a call of `current()` returns

A call of `current()` that finds the session behind waits for a gate: the end of the read in
flight, or of the read that catches up. What it then returns is the snapshot of that read or of
a later one, and a later read is never older. So a call returns a snapshot as recent as the
notifications it had seen, unless the read whose end it waits for had started before one of
them. `Observed` adds to a session what each call had seen.
-/

namespace Arc.Drizzle.DrizzleObservationSession

variable {T : Type*}

/-! ### Gates -/

/-- An unresolved gate is the one of the read in flight or the one of catching up. -/
structure Opened (g : Gates) : Prop where
  catchup : g.catchup = true → g.catchupFinished.isSome = true
  opened : ∀ gate, g.resolved[gate]? = some false ↔
    g.readFinished = some gate ∨ g.catchupFinished = some gate
  distinct : ∀ gate, g.readFinished = some gate → g.catchupFinished ≠ some gate

namespace Opened

variable {g : Gates}

theorem new : Opened Gates.new :=
  ⟨by simp [Gates.new], by simp [Gates.new], by simp [Gates.new]⟩

theorem lt (h : Opened g) {gate : ℕ}
    (hgate : g.readFinished = some gate ∨ g.catchupFinished = some gate) :
    gate < g.resolved.length :=
  (List.getElem?_eq_some_iff.1 ((h.opened gate).2 hgate)).1

/-- A new gate is unresolved, and nothing else changes. -/
theorem getElem?_append (resolved : List Bool) (gate : ℕ) :
    (resolved ++ [false])[gate]? = some false ↔
      resolved[gate]? = some false ∨ gate = resolved.length := by
  rcases Nat.lt_trichotomy gate resolved.length with hlt | rfl | hgt
  · rw [List.getElem?_append_left hlt]
    simp [Nat.ne_of_lt hlt]
  · simp
  · rw [List.getElem?_eq_none (by simp; omega), List.getElem?_eq_none (by omega)]
    simp [Nat.ne_of_gt hgt]

/-- Resolving a gate leaves the others as they were. -/
theorem getElem?_set (resolved : List Bool) (gate other : ℕ) :
    (resolved.set gate true)[other]? = some false ↔
      resolved[other]? = some false ∧ other ≠ gate := by
  by_cases h : gate = other
  · subst h
    by_cases hlt : gate < resolved.length
    · simp [List.getElem?_set_self hlt]
    · rw [List.getElem?_eq_none (by simp; omega)]
      simp
  · rw [List.getElem?_set_ne h]
    simp [Ne.symm h]

theorem openCatchup (h : Opened g) : Opened g.openCatchup := by
  obtain ⟨catchup, catchupFinished, readFinished, resolved⟩ := g
  cases catchupFinished with
  | some gate => exact ⟨fun _ => rfl, h.opened, h.distinct⟩
  | none =>
      refine ⟨fun _ => rfl, fun gate => ?_, fun gate hread heq => ?_⟩
      · have hgate := h.opened gate
        dsimp only [Gates.openCatchup] at hgate ⊢
        rw [getElem?_append, hgate]
        simp [eq_comm]
      · have hlt := h.lt (Or.inl hread)
        obtain rfl := Option.some.inj heq
        exact absurd hlt (Nat.lt_irrefl _)

theorem settleCatchup (h : Opened g) : Opened g.settleCatchup := by
  unfold Gates.settleCatchup
  refine ⟨by simp, fun gate => ?_, by simp⟩
  dsimp only
  cases hgate : g.catchupFinished with
  | none => simpa [Gates.resolve, hgate] using h.opened gate
  | some settled =>
      rw [Gates.resolve, getElem?_set, h.opened, hgate]
      have hdistinct := h.distinct settled
      constructor
      · rintro ⟨hread | hcatchup, hne⟩
        · exact Or.inl hread
        · exact absurd (Option.some.inj hcatchup).symm hne
      · rintro (hread | hnone)
        · refine ⟨Or.inl hread, ?_⟩
          rintro rfl
          exact hdistinct hread hgate
        · cases hnone

theorem openRead (h : Opened g) (hnone : g.readFinished = none) : Opened g.openRead := by
  unfold Gates.openRead
  refine ⟨h.catchup, fun gate => ?_, fun gate hread heq => ?_⟩
  · dsimp only
    rw [getElem?_append, h.opened, hnone]
    simp [eq_comm, or_comm]
  · have hlt := h.lt (Or.inr heq)
    rw [← Option.some.inj hread] at hlt
    exact absurd hlt (Nat.lt_irrefl _)

theorem finishRead (h : Opened g) : Opened g.finishRead := by
  unfold Gates.finishRead
  refine ⟨h.catchup, fun gate => ?_, by simp⟩
  dsimp only
  cases hgate : g.readFinished with
  | none => simpa [Gates.resolve, hgate] using h.opened gate
  | some finished =>
      rw [Gates.resolve, getElem?_set, h.opened, hgate]
      constructor
      · rintro ⟨hread | hcatchup, hne⟩
        · exact absurd (Option.some.inj hread).symm hne
        · exact Or.inr hcatchup
      · rintro (hnone | hcatchup)
        · cases hnone
        · refine ⟨Or.inr hcatchup, ?_⟩
          rintro rfl
          exact h.distinct gate hgate hcatchup

end Opened

/-- A gate that is still unresolved, and the gate of nothing else than before. -/
structure Keeps (gate : ℕ) (g g' : Gates) : Prop where
  unresolved : g'.resolved[gate]? = some false
  read : g'.readFinished = some gate → g.readFinished = some gate
  catchup : g'.catchupFinished = some gate → g.catchupFinished = some gate

namespace Keeps

variable {gate : ℕ} {g g' g'' : Gates}

theorem refl (h : g.resolved[gate]? = some false) : Keeps gate g g := ⟨h, id, id⟩

theorem trans (h : Keeps gate g g') (h' : Keeps gate g' g'') : Keeps gate g g'' :=
  ⟨h'.unresolved, fun hr => h.read (h'.read hr), fun hc => h.catchup (h'.catchup hc)⟩

theorem openRead (h : g.resolved[gate]? = some false) : Keeps gate g g.openRead := by
  refine ⟨(Opened.getElem?_append _ _).2 (Or.inl h), fun hread => ?_, id⟩
  obtain rfl := Option.some.inj hread
  rw [List.getElem?_eq_none (Nat.le_refl _)] at h
  cases h

theorem finishRead (h : g.resolved[gate]? = some false) :
    Keeps gate g g.finishRead ∨ g.readFinished = some gate := by
  by_cases hread : g.readFinished = some gate
  · exact Or.inr hread
  · refine Or.inl ⟨?_, (fun hnone => by cases hnone), id⟩
    unfold Gates.finishRead
    cases hgate : g.readFinished with
    | none => exact h
    | some finished =>
        refine (Opened.getElem?_set _ _ _).2 ⟨h, ?_⟩
        rintro rfl
        exact hread hgate

theorem settleCatchup (h : g.resolved[gate]? = some false) :
    Keeps gate g g.settleCatchup ∨ g.catchupFinished = some gate := by
  by_cases hcatchup : g.catchupFinished = some gate
  · exact Or.inr hcatchup
  · refine Or.inl ⟨?_, id, (fun hnone => by cases hnone)⟩
    unfold Gates.settleCatchup
    cases hgate : g.catchupFinished with
    | none => exact h
    | some settled =>
        refine (Opened.getElem?_set _ _ _).2 ⟨h, ?_⟩
        rintro rfl
        exact hcatchup hgate

end Keeps

/-! ### What a call relies on -/

/-- The fields of a session that decide what a call returns. -/
structure Core (T : Type*) where
  closed : Bool
  hasValue : Bool
  gates : Gates
  snapshot : Option (Reading T)
  pumps : List (Pump T)
  pumpPromise : Option ℕ
  notifications : ℕ

def core (s : DrizzleObservationSession T) : Core T :=
  ⟨s.closed, s.hasValue, s.gates, s.snapshot, s.pumps, s.pumpPromise, s.notifications⟩

def ReadFloor (n : ℕ) : SnapshotRead → Prop
  | .waiting => True
  | .reading _ since => n ≤ since

/-- What a run of `pump` reads, or has stored, is as recent as `n` notifications. -/
def PumpFloor (n : ℕ) (snapshot : Option (Reading T)) : Pump T → Prop
  | .reading _ read => ReadFloor n read
  | .read _ reading => n ≤ reading.since
  | .delivered => ∀ reading ∈ snapshot, n ≤ reading.since
  | _ => True

/-- Whether the end of the read is the end of catching up. -/
def catchesUp : Pump T → Bool
  | .reading catchingUp _ => catchingUp
  | .read catchingUp _ => catchingUp
  | _ => false

/-- The snapshot is as recent as `n` notifications, and stays so. -/
structure Settled (n : ℕ) (c : Core T) : Prop where
  snapshot : ∀ reading ∈ c.snapshot, n ≤ reading.since
  pumps : ∀ pump ∈ c.pumps, PumpFloor n c.snapshot pump

/-- When the gate is resolved the snapshot is as recent as `n` notifications. -/
structure Awaiting (n gate : ℕ) (c : Core T) : Prop where
  unresolved : c.gates.resolved[gate]? = some false
  read : c.gates.readFinished = some gate →
    ∀ pump ∈ c.pumps, PumpFloor n c.snapshot pump
  caughtUp : c.gates.catchupFinished = some gate →
    ∀ pump ∈ c.pumps, catchesUp pump = true → PumpFloor n c.snapshot pump

/-- A call that had seen `n` notifications returns a reading that started after them. -/
def CallFresh (n : ℕ) (c : Core T) : CurrentCall T → Prop
  | .awaitingInitial => n ≤ c.notifications
  | .awaitingReady => n ≤ c.notifications ∧ c.hasValue = true
  | .awaitingGate gate => n ≤ c.notifications ∧ c.hasValue = true ∧
      (c.closed = false → (∃ opened, gate = some opened ∧ Awaiting n opened c) ∨ Settled n c)
  | .returned snapshot => ∃ reading, snapshot = some reading ∧ n ≤ reading.since
  | .rejected _ => True

/-- A run of `pump` is active exactly while the gate of its read is open. -/
structure Gated (c : Core T) : Prop where
  opened : Opened c.gates
  reading : c.pumpPromise.isSome = c.gates.readFinished.isSome

/-- What every call relied on it may still rely on. -/
def Carries (c d : Core T) : Prop := ∀ n call, CallFresh n c call → CallFresh n d call

theorem Carries.refl (c : Core T) : Carries c c := fun _ _ h => h

theorem Carries.trans {c d e : Core T} (h : Carries c d) (h' : Carries d e) : Carries c e :=
  fun n call hfresh => h' n call (h n call hfresh)

theorem Carries.intro {c d : Core T} (hnotified : c.notifications ≤ d.notifications)
    (hvalue : c.hasValue = true → d.hasValue = true)
    (hopen : d.closed = false → c.closed = false)
    (hsettled : ∀ n, d.closed = false → n ≤ c.notifications → c.hasValue = true →
      Settled n c → Settled n d)
    (hawaiting : ∀ n gate, d.closed = false → n ≤ c.notifications → c.hasValue = true →
      Awaiting n gate c → Awaiting n gate d ∨ Settled n d) : Carries c d := by
  intro n call h
  cases call with
  | awaitingInitial => exact Nat.le_trans h hnotified
  | awaitingReady => exact ⟨Nat.le_trans h.1 hnotified, hvalue h.2⟩
  | awaitingGate gate =>
      obtain ⟨hn, hv, hgate⟩ := h
      refine ⟨Nat.le_trans hn hnotified, hvalue hv, fun hd => ?_⟩
      rcases hgate (hopen hd) with ⟨opened, rfl, hawait⟩ | hsettle
      · rcases hawaiting n opened hd hn hv hawait with hawait' | hsettle
        · exact Or.inl ⟨opened, rfl, hawait'⟩
        · exact Or.inr hsettle
      · exact Or.inr (hsettled n hd hn hv hsettle)
  | returned snapshot => exact h
  | rejected message => trivial

/-- Closing the session leaves its calls nothing to rely on. -/
theorem Carries.closed {c d : Core T} (hnotified : c.notifications = d.notifications)
    (hvalue : c.hasValue = d.hasValue) (hclosed : d.closed = true) : Carries c d := by
  have hnever : d.closed ≠ false := by simp [hclosed]
  exact Carries.intro (Nat.le_of_eq hnotified) (fun h => hvalue ▸ h) (fun h => absurd h hnever)
    (fun _ h => absurd h hnever) fun _ _ h => absurd h hnever

/-! ### Steps of the session -/

/-- What a step that is no step of a call keeps. -/
structure Onward (s t : DrizzleObservationSession T) : Prop where
  constructed : t.constructed = s.constructed
  mode : t.mode = s.mode
  calls : t.calls = s.calls
  listening : t.listening = true → s.listening = true
  gated : Gated t.core
  carries : Carries s.core t.core

namespace Onward

variable {s t u : DrizzleObservationSession T}

theorem trans (h : Onward s t) (h' : Onward t u) : Onward s u :=
  ⟨h'.constructed.trans h.constructed, h'.mode.trans h.mode, h'.calls.trans h.calls,
    fun hl => h.listening (h'.listening hl), h'.gated, h.carries.trans h'.carries⟩

/-- A step that leaves the fields of a call alone. -/
theorem same (hg : Gated s.core) (hconstructed : t.constructed = s.constructed)
    (hmode : t.mode = s.mode) (hcalls : t.calls = s.calls)
    (hlistening : t.listening = true → s.listening = true) (hcore : t.core = s.core) :
    Onward s t :=
  ⟨hconstructed, hmode, hcalls, hlistening, hcore ▸ hg, hcore ▸ Carries.refl _⟩

theorem refl (hg : Gated s.core) : Onward s s := same hg rfl rfl rfl id rfl

theorem schedule (hg : Gated s.core) : Onward s s.schedule := by
  rw [Sound.schedule_eq]
  exact same hg rfl rfl rfl id rfl

theorem shut (hg : Gated s.core) (hconstructed : t.constructed = s.constructed)
    (hmode : t.mode = s.mode) (hcalls : t.calls = s.calls)
    (hlistening : t.listening = true → s.listening = true)
    (hcore : t.core = { s.core with closed := true, gates := s.gates.settleCatchup }) :
    Onward s t := by
  refine ⟨hconstructed, hmode, hcalls, hlistening, ?_, ?_⟩ <;> rw [hcore]
  · exact ⟨hg.opened.settleCatchup, hg.reading⟩
  · exact Carries.closed rfl rfl rfl

theorem fail (hg : Gated s.core) (message : String) : Onward s (s.fail message) := by
  rw [DrizzleObservationSession.fail]
  split_ifs with hclosed hsubscribed
  · exact refl hg
  · exact shut hg rfl rfl rfl id rfl
  · exact shut hg rfl rfl rfl id rfl

theorem close (hg : Gated s.core) : Onward s s.close := by
  rw [DrizzleObservationSession.close]
  split_ifs with hclosed hsubscribed
  · exact refl hg
  · exact shut hg rfl rfl rfl id rfl
  · exact shut hg rfl rfl rfl id rfl

/-- A notification opens at most the gate of catching up. -/
theorem carries_notified (hg : Gated s.core) {t : DrizzleObservationSession T} (catchup : Bool)
    (hcore : t.core = { s.core with
      notifications := s.notifications + 1
      gates := if catchup then s.gates.openCatchup else s.gates }) :
    Gated t.core ∧ Carries s.core t.core := by
  rw [hcore]
  have hread : ∀ catchup : Bool,
      (if catchup then s.gates.openCatchup else s.gates).readFinished = s.gates.readFinished := by
    intro catchup
    cases catchup with
    | false => rfl
    | true =>
        rw [if_pos rfl, Gates.openCatchup]
        cases s.gates.catchupFinished <;> rfl
  refine ⟨⟨?_, (hread catchup).symm ▸ hg.reading⟩, ?_⟩
  · cases catchup with
    | false => exact hg.opened
    | true => exact hg.opened.openCatchup
  · refine Carries.intro (Nat.le_succ _) id id (fun n _ _ _ h => ⟨h.snapshot, h.pumps⟩) ?_
    intro n gate _ _ _ h
    left
    cases catchup with
    | false => exact ⟨h.unresolved, h.read, h.caughtUp⟩
    | true =>
        have hunresolved := h.unresolved
        refine ⟨?_, fun hgate => h.read ((hread true).symm.trans hgate), fun hgate => ?_⟩
        · change (s.gates.openCatchup).resolved[gate]? = some false
          unfold Gates.openCatchup
          cases s.gates.catchupFinished with
          | some other => exact hunresolved
          | none => exact (Opened.getElem?_append _ _).2 (Or.inl hunresolved)
        · have hcatchup : s.gates.openCatchup.catchupFinished = some gate := hgate
          unfold Gates.openCatchup at hcatchup
          cases hother : s.gates.catchupFinished with
          | some other =>
              rw [hother] at hcatchup
              exact h.caughtUp (hother.trans hcatchup)
          | none =>
              rw [hother] at hcatchup
              obtain rfl := Option.some.inj hcatchup
              change s.gates.resolved[s.gates.resolved.length]? = some false at hunresolved
              rw [List.getElem?_eq_none (Nat.le_refl _)] at hunresolved
              cases hunresolved

theorem changed (hg : Gated s.core) (catchup : Bool) : Onward s (s.changed catchup) := by
  rw [DrizzleObservationSession.changed]
  by_cases hclosed : s.closed = true
  · rw [if_pos hclosed]
    exact refl hg
  rw [if_neg hclosed]
  have hnotified : ∀ scheduled, Onward s { s with
      dirty := true, notifications := s.notifications + 1
      gates := if catchup then s.gates.openCatchup else s.gates, scheduled := scheduled } := by
    intro scheduled
    obtain ⟨hgated, hcarries⟩ := carries_notified hg (t := { s with
      dirty := true, notifications := s.notifications + 1
      gates := if catchup then s.gates.openCatchup else s.gates, scheduled := scheduled })
      catchup rfl
    exact ⟨rfl, rfl, rfl, id, hgated, hcarries⟩
  dsimp only
  by_cases hwanted : (s.subscribed || catchup) = true
  · rw [if_pos hwanted, Sound.schedule_eq]
    exact hnotified _
  · rw [if_neg hwanted]
    exact hnotified _

/-! ### Runs of `pump` -/

/-- The read of a run goes on: what it reads is no older than it was. -/
theorem setPump (hg : Gated s.core) {p : ℕ} {pump : Pump T}
    (hfloor : ∀ n, n ≤ s.notifications → (∀ other, s.pumps[p]? = some other →
      PumpFloor n s.snapshot other) → PumpFloor n s.snapshot pump)
    (hcatches : ∀ other, s.pumps[p]? = some other → catchesUp pump = true →
      catchesUp other = true) (hp : ∃ other, s.pumps[p]? = some other) :
    Onward s (s.setPump p pump) := by
  refine ⟨rfl, rfl, rfl, id, ⟨hg.opened, hg.reading⟩, ?_⟩
  have hpumps : ∀ n, n ≤ s.notifications →
      (∀ other ∈ s.pumps, PumpFloor n s.snapshot other) →
      ∀ other ∈ s.pumps.set p pump, PumpFloor n s.snapshot other := by
    intro n hn h other hother
    rcases List.mem_or_eq_of_mem_set hother with hmem | rfl
    · exact h other hmem
    · exact hfloor n hn fun other hget => h other (List.mem_of_getElem? hget)
  refine Carries.intro (Nat.le_refl _) id id
    (fun n _ hn _ h => ⟨h.snapshot, hpumps n hn h.pumps⟩) ?_
  intro n gate _ hn _ h
  refine Or.inl ⟨h.unresolved, fun hgate => hpumps n hn (h.read hgate), fun hgate => ?_⟩
  intro other hother hcatch
  rcases List.mem_or_eq_of_mem_set hother with hmem | rfl
  · exact h.caughtUp hgate other hmem hcatch
  · obtain ⟨before, hbefore⟩ := hp
    refine hfloor n hn fun again hget => ?_
    obtain rfl := Option.some.inj (hbefore.symm.trans hget)
    exact h.caughtUp hgate before (List.mem_of_getElem? hbefore) (hcatches before hbefore hcatch)

/-- A run of `pump` that has read nothing yet, or has ended. -/
def blank : Pump T → Bool
  | .reading _ .waiting => true
  | .done => true
  | _ => false

theorem floor_of_blank {pump : Pump T} (h : blank pump = true) (n : ℕ)
    (snapshot : Option (Reading T)) : PumpFloor n snapshot pump := by
  cases pump with
  | reading catchingUp read =>
      cases read with
      | waiting => trivial
      | reading generation since => cases h
  | done => trivial
  | _ => cases h

theorem floor_of_inactive {pump : Pump T} (h : pump.active = false) (n : ℕ)
    (snapshot : Option (Reading T)) : PumpFloor n snapshot pump ∧ catchesUp pump = false := by
  cases pump with
  | done => exact ⟨trivial, rfl⟩
  | _ => cases h

/-- A run of `pump` stores what it has read, or goes on after it was delivered; the gates it
resolves are those of its read. -/
theorem stored (h : Sound s) {p : ℕ} (hp : s.pumpPromise = some p)
    {before after : Pump T} (hbefore : s.pumps[p]? = some before)
    {snapshot : Option (Reading T)} {gates : Gates} {promise : Option ℕ}
    (hconstructed : t.constructed = s.constructed) (hmode : t.mode = s.mode)
    (hcalls : t.calls = s.calls) (hlistening : t.listening = true → s.listening = true)
    (hcore : t.core = { s.core with
      snapshot := snapshot, gates := gates, pumps := s.pumps.set p after
      pumpPromise := promise })
    (hgated : Opened gates ∧ promise.isSome = gates.readFinished.isSome)
    (hsnapshot : ∀ n, PumpFloor n s.snapshot before → ∀ reading ∈ snapshot, n ≤ reading.since)
    (hafter : blank after = true ∨ after = .delivered)
    (hgates : ∀ gate, s.gates.resolved[gate]? = some false → Keeps gate s.gates gates ∨
      s.gates.readFinished = some gate ∨
      s.gates.catchupFinished = some gate ∧ catchesUp before = true) : Onward s t := by
  refine ⟨hconstructed, hmode, hcalls, hlistening, ?_, ?_⟩ <;> rw [hcore]
  · exact ⟨hgated.1, hgated.2⟩
  have hmem : before ∈ s.pumps := List.mem_of_getElem? hbefore
  -- every other run has ended, so only the stored snapshot matters
  have hother : ∀ other ∈ s.pumps.set p after, other = after ∨ other.active = false := by
    intro other hset
    obtain ⟨q, hq⟩ := List.mem_iff_getElem?.1 hset
    by_cases hqp : q = p
    · subst hqp
      rw [List.getElem?_set_self (h.pumping.lt hp)] at hq
      exact Or.inl (Option.some.inj hq).symm
    · rw [List.getElem?_set_ne (Ne.symm hqp)] at hq
      exact Or.inr (h.pumping.done_of_ne hp hq hqp)
  have hfloors : ∀ n, (∀ reading ∈ snapshot, n ≤ reading.since) →
      ∀ other ∈ s.pumps.set p after, PumpFloor n snapshot other := by
    intro n hfloor other hset
    rcases hother other hset with rfl | hinactive
    · rcases hafter with hblank | rfl
      · exact floor_of_blank hblank n snapshot
      · exact hfloor
    · exact (floor_of_inactive hinactive n snapshot).1
  have hsettles : ∀ n, PumpFloor n s.snapshot before →
      Settled n { s.core with
        snapshot := snapshot, gates := gates, pumps := s.pumps.set p after
        pumpPromise := promise } :=
    fun n hfloor => ⟨hsnapshot n hfloor, hfloors n (hsnapshot n hfloor)⟩
  refine Carries.intro (Nat.le_refl _) id id
    (fun n _ _ _ hsettled => hsettles n (hsettled.pumps before hmem)) ?_
  intro n gate _ _ _ hawait
  rcases hgates gate hawait.unresolved with hkeeps | hread | ⟨hcatchup, hcatches⟩
  · refine Or.inl ⟨hkeeps.unresolved, fun hgate => ?_, fun _ other hset hcatch => ?_⟩
    · exact hfloors n (hsnapshot n (hawait.read (hkeeps.read hgate) before hmem))
    · rcases hother other hset with rfl | hinactive
      · rcases hafter with hblank | rfl
        · exact floor_of_blank hblank n snapshot
        · cases hcatch
      · rw [(floor_of_inactive hinactive n snapshot).2] at hcatch
        cases hcatch
  · exact Or.inr (hsettles n (hawait.read hread before hmem))
  · exact Or.inr (hsettles n (hawait.caughtUp hcatchup before hmem hcatches))

/-- The loop of a run after the gate of its read is resolved. -/
theorem finishLoop (h : Sound s) {p : ℕ} (hp : s.pumpPromise = some p)
    {before : Pump T} (hbefore : s.pumps[p]? = some before) {snapshot : Option (Reading T)}
    {gates : Gates} (hopened : Opened gates)
    (hsnapshot : ∀ n, PumpFloor n s.snapshot before → ∀ reading ∈ snapshot, n ≤ reading.since)
    (hgates : ∀ gate, s.gates.resolved[gate]? = some false → Keeps gate s.gates gates ∨
      s.gates.readFinished = some gate ∨
      s.gates.catchupFinished = some gate ∧ catchesUp before = true)
    (hread : gates.readFinished = s.gates.readFinished) :
    Onward s (({ s with snapshot := snapshot, gates := gates }.finishRead).loop p) := by
  have hfinished : ∀ gate, s.gates.resolved[gate]? = some false →
      Keeps gate s.gates gates.finishRead ∨ s.gates.readFinished = some gate ∨
        s.gates.catchupFinished = some gate ∧ catchesUp before = true := by
    intro gate hgate
    rcases hgates gate hgate with hkeeps | hresolved
    · rcases Keeps.finishRead hkeeps.unresolved with hkeeps' | hread'
      · exact Or.inl (hkeeps.trans hkeeps')
      · exact Or.inr (Or.inl (hread ▸ hread'))
    · exact Or.inr hresolved
  rw [DrizzleObservationSession.loop]
  split_ifs with hagain
  · refine stored h hp hbefore rfl rfl rfl id (by rfl)
      ⟨hopened.finishRead.openRead rfl, by rw [hp]; rfl⟩ hsnapshot (Or.inl rfl) ?_
    intro gate hgate
    rcases hfinished gate hgate with hkeeps | hresolved
    · exact Or.inl (hkeeps.trans (Keeps.openRead hkeeps.unresolved))
    · exact Or.inr hresolved
  · exact stored h hp hbefore rfl rfl rfl id (by rfl) ⟨hopened.finishRead, rfl⟩ hsnapshot
      (Or.inl rfl) hfinished

theorem pumped (h : Sound s) (hg : Gated s.core) {p : ℕ} {catchingUp : Bool}
    {reading : Reading T} (hbefore : s.pumps[p]? = some (.read catchingUp reading)) :
    Onward s (s.pumped p catchingUp reading) := by
  have hp := h.pumping.single p _ hbefore rfl
  rw [DrizzleObservationSession.pumped]
  by_cases hclosed : s.closed = true
  · rw [if_pos hclosed]
    refine ⟨rfl, rfl, rfl, id, ⟨hg.opened.finishRead, rfl⟩, Carries.closed rfl rfl hclosed⟩
  rw [if_neg hclosed]
  have hopened : Opened (if catchingUp then s.gates.settleCatchup else s.gates) := by
    cases catchingUp with
    | false => exact hg.opened
    | true => exact hg.opened.settleCatchup
  have hread : (if catchingUp then s.gates.settleCatchup else s.gates).readFinished =
      s.gates.readFinished := by
    cases catchingUp <;> rfl
  have hgates : ∀ gate, s.gates.resolved[gate]? = some false →
      Keeps gate s.gates (if catchingUp then s.gates.settleCatchup else s.gates) ∨
        s.gates.readFinished = some gate ∨
        s.gates.catchupFinished = some gate ∧ catchesUp (.read catchingUp reading) = true := by
    intro gate hgate
    cases catchingUp with
    | false => exact Or.inl (Keeps.refl hgate)
    | true =>
        rcases Keeps.settleCatchup hgate with hkeeps | hcatchup
        · exact Or.inl hkeeps
        · exact Or.inr (Or.inr ⟨hcatchup, rfl⟩)
  have hsnapshot : ∀ n, PumpFloor n s.snapshot (.read catchingUp reading) →
      ∀ stored ∈ some reading, n ≤ stored.since := by
    intro n hfloor stored hstored
    obtain rfl := Option.some.inj hstored
    exact hfloor
  by_cases hemitted : s.emitted = true
  · rw [if_pos (show _ = true from hemitted)]
    exact stored h hp hbefore rfl rfl rfl id (by rfl)
      ⟨hopened, (hg.reading.trans (congrArg Option.isSome hread.symm))⟩ hsnapshot (Or.inr rfl)
      hgates
  · rw [if_neg (show ¬ _ = true from hemitted)]
    exact finishLoop h hp hbefore hopened hsnapshot hgates hread

theorem resumePump (h : Sound s) (hg : Gated s.core) {p : ℕ}
    (ht : s.resumePump p = some t) : Onward s t := by
  rw [DrizzleObservationSession.resumePump] at ht
  split at ht
  · next catchingUp reading hpump =>
      obtain rfl := Option.some.inj ht
      exact pumped h hg hpump
  · next hpump =>
      obtain rfl := Option.some.inj ht
      exact finishLoop h (h.pumping.single p _ hpump rfl) hpump hg.opened
        (fun n hfloor => hfloor) (fun gate hgate => Or.inl (Keeps.refl hgate)) rfl
  · next message hpump =>
      obtain rfl := Option.some.inj ht
      have hshut : (s.finishRead.fail message).closed = true := by
        rw [DrizzleObservationSession.fail]
        split_ifs with hclosed hsubscribed
        · exact hclosed
        · rfl
        · rfl
      have hframe : ((s.finishRead.fail message).endPump p).constructed = s.constructed ∧
          ((s.finishRead.fail message).endPump p).mode = s.mode ∧
          ((s.finishRead.fail message).endPump p).calls = s.calls ∧
          ((s.finishRead.fail message).endPump p).listening = s.listening ∧
          ((s.finishRead.fail message).endPump p).hasValue = s.hasValue ∧
          ((s.finishRead.fail message).endPump p).notifications = s.notifications ∧
          Opened ((s.finishRead.fail message).endPump p).gates ∧
          ((s.finishRead.fail message).endPump p).gates.readFinished = none := by
        rw [DrizzleObservationSession.fail]
        split_ifs
        · exact ⟨rfl, rfl, rfl, rfl, rfl, rfl, hg.opened.finishRead, rfl⟩
        · exact ⟨rfl, rfl, rfl, rfl, rfl, rfl, hg.opened.finishRead.settleCatchup, rfl⟩
        · exact ⟨rfl, rfl, rfl, rfl, rfl, rfl, hg.opened.finishRead.settleCatchup, rfl⟩
      obtain ⟨hconstructed, hmode, hcalls, hlistening, hvalue, hnotified, hopened, hread⟩ := hframe
      refine ⟨hconstructed, hmode, hcalls, fun hl => hlistening ▸ hl, ⟨hopened, ?_⟩,
        Carries.closed hnotified.symm hvalue.symm hshut⟩
      exact (congrArg Option.isSome hread).symm
  · cases ht

/-- Resuming the read of a run makes it no older. -/
theorem resumePumpRead (hg : Gated s.core) {p : ℕ} {answer : Answer T}
    (ht : s.resumePumpRead p answer = some t) : Onward s t := by
  rw [DrizzleObservationSession.resumePumpRead] at ht
  split at ht
  · next catchingUp read hpump =>
      obtain ⟨r, hr, rfl⟩ := Option.map_eq_some_iff.1 ht
      refine setPump hg ?_ ?_ ⟨_, hpump⟩
      · intro n hn hbefore
        have hfloor : ReadFloor n read := hbefore _ hpump
        unfold DrizzleObservationSession.resumeRead at hr
        split at hr
        · split_ifs at hr <;> obtain rfl := Option.some.inj hr <;> first | trivial | exact hn
        · split_ifs at hr
          obtain rfl := Option.some.inj hr
          trivial
        · split_ifs at hr <;> obtain rfl := Option.some.inj hr <;> first | trivial | exact hfloor
        · split_ifs at hr <;> obtain rfl := Option.some.inj hr <;> trivial
        · cases hr
      · intro other hother hcatch
        obtain rfl := Option.some.inj (hpump.symm.trans hother)
        cases r with
        | suspended next => exact hcatch
        | returned reading => exact hcatch
        | thrown message => cases hcatch
  · cases ht

/-- Starting a run of `pump`, if there is anything to read. -/
theorem pump (hg : Gated s.core) : Onward s s.pump := by
  rw [DrizzleObservationSession.pump]
  split_ifs with hpromise hidle
  · exact refl hg
  · exact refl hg
  have hnone : s.gates.readFinished = none := by
    have hreading := hg.reading
    change s.pumpPromise.isSome = s.gates.readFinished.isSome at hreading
    rw [Bool.not_eq_true] at hpromise
    rw [hpromise, eq_comm, Option.isSome_eq_false_iff, Option.isNone_iff_eq_none] at hreading
    exact hreading
  refine ⟨rfl, rfl, rfl, id, ⟨hg.opened.openRead hnone, rfl⟩, ?_⟩
  have hfloors : ∀ n, (∀ pump ∈ s.pumps, PumpFloor n s.snapshot pump) →
      ∀ pump ∈ (s.pumps ++ [Pump.done]).set s.pumps.length (.reading s.gates.catchup .waiting),
        PumpFloor n s.snapshot pump := by
    intro n h pump hset
    rcases List.mem_or_eq_of_mem_set hset with hmem | rfl
    · rcases List.mem_append.1 hmem with hmem | hmem
      · exact h pump hmem
      · rw [List.mem_singleton.1 hmem]
        trivial
    · trivial
  refine Carries.intro (Nat.le_refl _) id id
    (fun n _ _ _ h => ⟨h.snapshot, hfloors n h.pumps⟩) ?_
  intro n gate _ _ _ h
  have hkeeps := Keeps.openRead (g := s.gates) h.unresolved
  refine Or.inl ⟨hkeeps.unresolved, fun hgate => hfloors n (h.read (hkeeps.read hgate)), ?_⟩
  intro hgate pump hset hcatch
  rcases List.mem_or_eq_of_mem_set hset with hmem | rfl
  · rcases List.mem_append.1 hmem with hmem | hmem
    · exact h.caughtUp hgate pump hmem hcatch
    · rw [List.mem_singleton.1 hmem]
      trivial
  · trivial

/-! ### The other steps -/

theorem listenThrew (hg : Gated s.core) (message : String) :
    Onward s { s with closed := true, initial := .rejected message } :=
  ⟨rfl, rfl, rfl, (fun hl => by cases hl), ⟨hg.opened, hg.reading⟩, Carries.closed rfl rfl rfl⟩

theorem resumeInitial (hg : Gated s.core) {answer : Answer T}
    (ht : s.resumeInitial answer = some t) : Onward s t := by
  unfold DrizzleObservationSession.resumeInitial at ht
  split at ht
  · obtain rfl := Option.some.inj ht
    refine same hg rfl rfl rfl (fun hl => ?_) rfl
    rw [DrizzleObservationSession.listening] at hl
    split_ifs at hl
  · obtain rfl := Option.some.inj ht
    exact same hg rfl rfl rfl (fun hl => by cases hl) rfl
  · obtain rfl := Option.some.inj ht
    exact same hg rfl rfl rfl (fun hl => by cases hl) rfl
  · obtain rfl := Option.some.inj ht
    exact same hg rfl rfl rfl (fun hl => by cases hl) rfl
  · obtain ⟨r, -, rfl⟩ := Option.map_eq_some_iff.1 ht
    refine same hg rfl rfl rfl (fun hl => ?_) rfl
    cases r <;> cases hl
  · cases ht

/-- No call relies on a snapshot before there is one. -/
theorem primed (h : Sound s) (hg : Gated s.core) {reading : Reading T}
    (hi : s.initial = .read reading) : Onward s (s.primed reading) := by
  have hunvalued : s.hasValue ≠ true := by
    intro hvalue
    have hfulfilled := (h.valued.value hvalue).2
    rw [hi] at hfulfilled
    cases hfulfilled
  rw [DrizzleObservationSession.primed]
  by_cases hclosed : s.closed = true
  · rw [if_pos hclosed]
    exact same hg rfl rfl rfl (fun hl => by cases hl) rfl
  rw [if_neg hclosed]
  have hstored : Onward s
      { s with hasValue := true, snapshot := some reading, initial := .fulfilled } := by
    refine ⟨rfl, rfl, rfl, (fun hl => by cases hl), ⟨hg.opened, hg.reading⟩, ?_⟩
    exact Carries.intro (Nat.le_refl _) (fun _ => rfl) id
      (fun _ _ _ hv => absurd hv hunvalued) fun _ _ _ _ hv => absurd hv hunvalued
  dsimp only
  by_cases hdue : (s.dirty && (s.subscribed || s.gates.catchup)) = true
  · rw [if_pos hdue]
    exact hstored.trans (schedule hstored.gated)
  · rw [if_neg hdue]
    exact hstored

theorem settleInitial (h : Sound s) (hg : Gated s.core) (ht : s.settleInitial = some t) :
    Onward s t := by
  unfold DrizzleObservationSession.settleInitial at ht
  split at ht
  · next reading hi =>
      obtain rfl := Option.some.inj ht
      exact primed h hg hi
  · next message hi =>
      obtain rfl := Option.some.inj ht
      have hfailed := fail hg message
      exact hfailed.trans (same hfailed.gated rfl rfl rfl (fun hl => by cases hl) rfl)
  · cases ht

theorem deliverFirst (hg : Gated s.core) : Onward s s.deliverFirst := by
  have hdone : Onward s { s with adoption := .done } := same hg rfl rfl rfl id rfl
  rw [DrizzleObservationSession.deliverFirst]
  dsimp only
  by_cases hshut : (s.closed || s.outlet.closed) = true
  · rw [if_pos hshut]
    exact hdone
  rw [if_neg hshut]
  split
  · exact hdone
  · next reading _ =>
      have hsent : Onward s { s with
          adoption := .done, emitted := true, outlet := s.outlet.send (.next reading) } :=
        same hg rfl rfl rfl id rfl
      by_cases hdirty : s.dirty = true
      · rw [if_pos hdirty]
        exact hsent.trans (schedule hsent.gated)
      · rw [if_neg hdirty]
        exact hsent

theorem adoptReady (hg : Gated s.core) : Onward s s.adoptReady := by
  rw [DrizzleObservationSession.adoptReady]
  split_ifs with hbehind
  · have hpump := pump hg
    exact hpump.trans (same hpump.gated rfl rfl rfl id rfl)
  · exact deliverFirst hg

theorem adopt (hg : Gated s.core) : Onward s s.adopt := by
  rw [DrizzleObservationSession.adopt]
  split
  · exact same hg rfl rfl rfl id rfl
  · split_ifs with hclosed
    · exact same hg rfl rfl rfl id rfl
    · exact same hg rfl rfl rfl id rfl

theorem resumeAdoption (hg : Gated s.core) {answer : Answer T}
    (ht : s.resumeAdoption answer = some t) : Onward s t := by
  unfold DrizzleObservationSession.resumeAdoption at ht
  split at ht
  · obtain rfl := Option.some.inj ht
    split_ifs with hfenced
    · exact same hg rfl rfl rfl id rfl
    · exact adoptReady hg
  · obtain rfl := Option.some.inj ht
    exact same hg rfl rfl rfl id rfl
  · obtain rfl := Option.some.inj ht
    exact adoptReady hg
  · obtain rfl := Option.some.inj ht
    exact same hg rfl rfl rfl id rfl
  · split_ifs at ht
    obtain rfl := Option.some.inj ht
    exact deliverFirst hg
  · next message _ =>
      obtain rfl := Option.some.inj ht
      have hsent : Onward s { s with
          adoption := .done
          outlet := s.outlet.send (.error (s.error.getD message)) } :=
        same hg rfl rfl rfl id rfl
      exact hsent.trans (close hsent.gated)
  · cases ht

end Onward

/-! ### Calls of `current()` -/

/-- Whether the run of `pump` reads, or has read, less than `n` notifications. -/
def older (n : ℕ) (snapshot : Option (Reading T)) : Pump T → Bool
  | .reading _ (.reading _ since) => decide (since < n)
  | .read _ reading => decide (reading.since < n)
  | .delivered => snapshot.any fun reading => decide (reading.since < n)
  | _ => false

/-- Whether a call that had seen `n` notifications would wait for the end of a read that had
started before one of them. -/
def joinsOlder (s : DrizzleObservationSession T) (n : ℕ) : Bool :=
  s.pumps.any fun pump =>
    older n s.snapshot pump && (s.gates.catchupFinished.isNone || catchesUp pump)

theorem floor_iff (n : ℕ) (snapshot : Option (Reading T)) (pump : Pump T) :
    PumpFloor n snapshot pump ↔ older n snapshot pump = false := by
  cases pump with
  | reading catchingUp read => cases read <;> simp [PumpFloor, ReadFloor, older]
  | read catchingUp reading => simp [PumpFloor, older]
  | delivered => cases snapshot <;> simp [PumpFloor, older]
  | _ => simp [PumpFloor, older]

theorem floor_of_joins {s : DrizzleObservationSession T} {n : ℕ} (h : s.joinsOlder n = false)
    {pump : Pump T} (hmem : pump ∈ s.pumps)
    (hgate : s.gates.catchupFinished = none ∨ catchesUp pump = true) :
    PumpFloor n s.snapshot pump := by
  rw [joinsOlder, List.any_eq_false] at h
  have hpump := h pump hmem
  rw [floor_iff]
  rcases hgate with hnone | hcatch
  · simpa [hnone] using hpump
  · simpa [hcatch] using hpump

theorem mem_pump {s : DrizzleObservationSession T} {pump : Pump T} (h : pump ∈ s.pump.pumps) :
    pump ∈ s.pumps ∨ Onward.blank pump = true := by
  rw [DrizzleObservationSession.pump] at h
  split_ifs at h with hpromise hidle
  · exact Or.inl h
  · exact Or.inl h
  · rcases List.mem_or_eq_of_mem_set h with hmem | rfl
    · rcases List.mem_append.1 hmem with hmem | hmem
      · exact Or.inl hmem
      · rw [List.mem_singleton.1 hmem]
        exact Or.inr rfl
    · exact Or.inr rfl

theorem pump_frame (s : DrizzleObservationSession T) :
    s.pump.snapshot = s.snapshot ∧ s.pump.hasValue = s.hasValue ∧
      s.pump.notifications = s.notifications ∧ s.pump.closed = s.closed ∧
      s.pump.gates.catchupFinished = s.gates.catchupFinished := by
  rw [DrizzleObservationSession.pump]
  split_ifs <;> exact ⟨rfl, rfl, rfl, rfl, rfl⟩

/-- After `pump` there is a read in flight, where one is due. -/
theorem pump_reads {s : DrizzleObservationSession T} (h : Sound s) (hopen : s.closed = false)
    (hvalue : s.hasValue = true) (hdue : (s.running || s.dirty) = true) :
    s.pump.pumpPromise.isSome = true := by
  rw [DrizzleObservationSession.pump]
  split_ifs with hpromise hidle
  · exact hpromise
  · have hrunning : s.running = false := by
      rw [h.pumping.running]
      simpa using hpromise
    have hdirty : s.dirty = true := by simpa [hrunning] using hdue
    simp [hopen, hvalue, hdirty] at hidle
  · rfl

/-- A call past `whenReady` returns the snapshot, which is the last, or waits for a read that
is recent enough. -/
theorem currentReady_fresh {s : DrizzleObservationSession T} (h : Sound s) (hg : Gated s.core)
    (i : ℕ) :
    ∃ u call, Sound u ∧ Onward s u ∧ s.currentReady i = u.setCall i call ∧
      (s.fenced = true → s.hasValue = true → ∀ n, n ≤ s.notifications →
        s.joinsOlder n = false → CallFresh n u.core call) := by
  rw [DrizzleObservationSession.currentReady]
  split_ifs with hbehind
  · have hpump := Onward.pump hg
    obtain ⟨hsnapshot, hvalue', hnotified, hclosed, hcatchup⟩ := pump_frame s
    refine ⟨s.pump, .awaitingGate s.pump.awaited, h.pump, hpump, rfl, ?_⟩
    intro hfenced hvalue n hn hjoins
    refine ⟨?_, ?_, fun hopen => Or.inl ?_⟩
    · exact Nat.le_trans hn (Nat.le_of_eq hnotified.symm)
    · exact hvalue'.trans hvalue
    have hfloors : ∀ pump ∈ s.pump.pumps,
        (s.gates.catchupFinished = none ∨ catchesUp pump = true) →
        PumpFloor n s.pump.snapshot pump := by
      intro pump hmem hgate
      rcases mem_pump hmem with hmem | hblank
      · rw [hsnapshot]
        exact floor_of_joins hjoins hmem hgate
      · exact Onward.floor_of_blank hblank n _
    have hunresolved := hpump.gated.opened.opened
    cases hgate : s.gates.catchupFinished with
    | some gate =>
        have hgate' : s.pump.gates.catchupFinished = some gate := hcatchup.trans hgate
        refine ⟨gate, by rw [awaited, hgate']; rfl, (hunresolved gate).2 (Or.inr hgate'), ?_, ?_⟩
        · exact fun hread => absurd hgate' (hpump.gated.opened.distinct gate hread)
        · exact fun _ pump hmem hcatch => hfloors pump hmem (Or.inr hcatch)
    | none =>
        have hgate' : s.pump.gates.catchupFinished = none := hcatchup.trans hgate
        have hdue : (s.running || s.dirty) = true := by
          have hcaught : s.gates.catchup = false := by
            cases hcatch : s.gates.catchup with
            | false => rfl
            | true =>
                have hsome := hg.opened.catchup hcatch
                change s.gates.catchupFinished.isSome = true at hsome
                rw [hgate] at hsome
                cases hsome
          simpa [behind, hcaught, hfenced] using hbehind
        have hreads := pump_reads h (hclosed.symm.trans hopen) hvalue hdue
        have hreading := hpump.gated.reading
        change s.pump.pumpPromise.isSome = s.pump.gates.readFinished.isSome at hreading
        rw [hreads] at hreading
        obtain ⟨gate, hread⟩ := Option.isSome_iff_exists.1 hreading.symm
        refine ⟨gate, by rw [awaited, hgate', hread]; rfl, (hunresolved gate).2 (Or.inl hread),
          ?_, ?_⟩
        · exact fun _ pump hmem => hfloors pump hmem (Or.inl hgate)
        · intro hcatch
          rw [show s.pump.core.gates.catchupFinished = none from hgate'] at hcatch
          cases hcatch
  · refine ⟨s, _, h, Onward.refl hg, rfl, ?_⟩
    intro hfenced hvalue n hn _
    split_ifs with hclosed
    · trivial
    rw [Bool.not_eq_true] at hclosed
    simp only [behind, hfenced, Bool.true_and, Bool.or_eq_true, not_or, Bool.not_eq_true]
      at hbehind
    obtain ⟨-, hrunning, hdirty⟩ := hbehind
    have hnone : s.pumpPromise = none := by
      have hpromise := h.pumping.running
      rw [hrunning, eq_comm, Option.isSome_eq_false_iff, Option.isNone_iff_eq_none] at hpromise
      exact hpromise
    obtain ⟨reading, hreading⟩ := (h.valued.value hvalue).1
    refine ⟨reading, hreading, ?_⟩
    rw [(h.fresh hclosed).snapshot hdirty hnone reading hreading]
    exact hn

/-! ### What each call had seen -/

/-- A session with the number of notifications it had been given at each call of `current()`. -/
structure Observed (T : Type*) where
  session : DrizzleObservationSession T
  seen : List ℕ := []

/-- The machine of the session, with a record of its calls of `current()`. -/
def observed (T : Type*) (aborted : Bool) : Machine (Observed T) (SessionEvent T) where
  init := ⟨new T aborted, []⟩
  step := fun o e => (o.session.step e).map fun session =>
    { session := session
      seen := match e with
        | .current => o.seen ++ [o.session.notifications]
        | _ => o.seen }

/-- No call gets past `whenReady` while the read whose end it would wait for is older than it. -/
def Unovertaken (o : Observed T) : SessionEvent T → Prop
  | .resumeCurrent i (.ready _) =>
      match o.session.calls[i]?, o.seen[i]? with
      | some .awaitingReady, some n => o.session.joinsOlder n = false
      | _, _ => True
  | _ => True

instance (o : Observed T) (e : SessionEvent T) : Decidable (Unovertaken o e) := by
  unfold Unovertaken
  split
  · split <;> infer_instance
  · infer_instance

/-- Each call has seen something, and relies on no less. -/
structure Attended (o : Observed T) : Prop where
  sound : Sound o.session
  gated : Gated o.session.core
  seen : o.seen.length = o.session.calls.length
  unlistened : o.session.listening = true →
    o.session.constructed = false ∧ o.session.calls = []
  fresh : o.session.fenced = true → ∀ (i : ℕ) (call : CurrentCall T) (n : ℕ), o.session.calls[i]? = some call →
    o.seen[i]? = some n → CallFresh n o.session.core call

namespace Attended

variable {o : Observed T} {t : DrizzleObservationSession T}

/-- Steps that are no step of a call. -/
theorem onward (h : Attended o) (hsound : Sound t) (hstep : Onward o.session t) :
    Attended ⟨t, o.seen⟩ := by
  refine ⟨hsound, hstep.gated, ?_, ?_, ?_⟩
  · rw [hstep.calls]
    exact h.seen
  · intro hl
    have hbefore := h.unlistened (hstep.listening hl)
    rw [hstep.constructed, hstep.calls]
    exact hbefore
  · intro hfenced i call n hcall hseen
    rw [hstep.calls] at hcall
    have hfenced' : o.session.fenced = true := by
      rw [DrizzleObservationSession.fenced] at hfenced ⊢
      rw [← hstep.mode]
      exact hfenced
    exact hstep.carries n call (h.fresh hfenced' i call n hcall hseen)

/-- A call moves on. -/
theorem setCall (h : Attended o) (i : ℕ) (call : CurrentCall T)
    (hfresh : o.session.fenced = true → ∀ n, o.seen[i]? = some n →
      CallFresh n o.session.core call) : Attended ⟨o.session.setCall i call, o.seen⟩ := by
  refine ⟨h.sound.setCall i call, h.gated, ?_, ?_, ?_⟩
  · exact h.seen.trans (List.length_set).symm
  · intro hl
    obtain ⟨hconstructed, hcalls⟩ := h.unlistened hl
    refine ⟨hconstructed, ?_⟩
    change o.session.calls.set i call = []
    rw [hcalls]
    rfl
  · intro hfenced j other n hother hseen
    change (o.session.calls.set i call)[j]? = some other at hother
    by_cases hij : i = j
    · subst hij
      have hlt := (List.getElem?_eq_some_iff.1 hother).1
      rw [List.length_set] at hlt
      rw [List.getElem?_set_self hlt] at hother
      obtain rfl := Option.some.inj hother
      exact hfresh hfenced n hseen
    · rw [List.getElem?_set_ne hij] at hother
      exact h.fresh hfenced j other n hother hseen

theorem currentReady (h : Attended o) (i : ℕ)
    (hfresh : o.session.fenced = true → o.session.hasValue = true ∧
      ∀ n, o.seen[i]? = some n → n ≤ o.session.notifications ∧ o.session.joinsOlder n = false) :
    Attended ⟨o.session.currentReady i, o.seen⟩ := by
  obtain ⟨u, call, hsound, hu, heq, hcall⟩ := currentReady_fresh h.sound h.gated i
  have hattended : Attended ⟨u, o.seen⟩ := h.onward hsound hu
  rw [heq]
  refine hattended.setCall i call fun hfenced n hseen => ?_
  have hfenced' : o.session.fenced = true := by
    rw [DrizzleObservationSession.fenced] at hfenced ⊢
    rw [← hu.mode]
    exact hfenced
  obtain ⟨hvalue, hall⟩ := hfresh hfenced'
  exact hcall hfenced' hvalue n (hall n hseen).1 (hall n hseen).2

theorem resumeCurrent (h : Attended o) {i : ℕ} {answer : Answer T}
    (hunovertaken : Unovertaken o (.resumeCurrent i answer))
    (ht : o.session.resumeCurrent i answer = some t) : Attended ⟨t, o.seen⟩ := by
  unfold DrizzleObservationSession.resumeCurrent at ht
  split at ht
  · next hcall hinitial =>
      obtain rfl := Option.some.inj ht
      split_ifs with hfenced
      · refine h.setCall i _ fun _ n hseen => ?_
        exact ⟨h.fresh hfenced i _ n hcall hseen, h.sound.valued.fulfilled hinitial⟩
      · exact h.currentReady i fun hfenced' => absurd hfenced' hfenced
  · obtain rfl := Option.some.inj ht
    exact h.setCall i _ fun _ _ _ => trivial
  · next hcall =>
      obtain rfl := Option.some.inj ht
      refine h.currentReady i fun hfenced => ?_
      have hready := fun n hseen => h.fresh hfenced i _ n hcall hseen
      have hlt : i < o.seen.length := by
        rw [h.seen]
        exact (List.getElem?_eq_some_iff.1 hcall).1
      refine ⟨(hready _ (List.getElem?_eq_getElem hlt)).2, fun n hseen => ?_⟩
      unfold Unovertaken at hunovertaken
      dsimp only at hunovertaken
      rw [hcall, hseen] at hunovertaken
      exact ⟨(hready n hseen).1, hunovertaken⟩
  · obtain rfl := Option.some.inj ht
    exact h.setCall i _ fun _ _ _ => trivial
  · next gate hcall =>
      split_ifs at ht with hpasses
      obtain rfl := Option.some.inj ht
      refine h.setCall i _ fun hfenced n hseen => ?_
      obtain ⟨-, hvalue, hgate⟩ := h.fresh hfenced i _ n hcall hseen
      split_ifs with hclosed
      · trivial
      rw [Bool.not_eq_true] at hclosed
      have hsettled : Settled n o.session.core := by
        rcases hgate hclosed with ⟨opened, rfl, hawait⟩ | hsettled
        · have hunresolved := hawait.unresolved
          change o.session.gates.resolved[opened]? = some false at hunresolved
          rw [Gates.passes, hunresolved] at hpasses
          cases hpasses
        · exact hsettled
      obtain ⟨reading, hreading⟩ := (h.sound.valued.value hvalue).1
      exact ⟨reading, hreading, hsettled.snapshot reading hreading⟩
  · cases ht

theorem cancelCurrent (h : Attended o) {i : ℕ} (ht : o.session.cancelCurrent i = some t) :
    Attended ⟨t, o.seen⟩ := by
  unfold DrizzleObservationSession.cancelCurrent at ht
  split at ht
  all_goals first
    | obtain rfl := Option.some.inj ht
      exact h.setCall i _ fun _ _ _ => trivial
    | cases ht

theorem listened (h : Attended o) (hl : o.session.listening = true) (mode : ListenMode) :
    Attended ⟨o.session.listened mode, o.seen⟩ := by
  obtain ⟨-, hcalls⟩ := h.unlistened hl
  refine ⟨h.sound.listened hl mode, ⟨h.gated.opened, h.gated.reading⟩, h.seen, ?_, ?_⟩
  · intro hl'
    cases mode <;> cases hl'
  · intro _ i call n hcall
    rw [show (o.session.listened mode).calls = [] from hcalls] at hcall
    cases hcall

/-- A new call has seen every notification there was. -/
theorem current (h : Attended o) (hconstructed : o.session.constructed = true) :
    Attended ⟨o.session.current, o.seen ++ [o.session.notifications]⟩ := by
  refine ⟨h.sound.setCalls _, h.gated, ?_, ?_, ?_⟩
  · simp [DrizzleObservationSession.current, h.seen]
  · intro hl
    have hunlistened := (h.unlistened hl).1
    rw [hconstructed] at hunlistened
    cases hunlistened
  · intro hfenced i call n hcall hseen
    by_cases hi : i < o.session.calls.length
    · have hcall' : o.session.calls[i]? = some call := by
        rw [← hcall]
        exact (List.getElem?_append_left hi).symm
      rw [List.getElem?_append_left (by rw [h.seen]; exact hi)] at hseen
      exact h.fresh hfenced i call n hcall' hseen
    · have hlast : i = o.session.calls.length := by
        have hlt := (List.getElem?_eq_some_iff.1 hseen).1
        rw [List.length_append, h.seen, List.length_singleton] at hlt
        omega
      subst hlast
      rw [← h.seen, List.getElem?_concat_length] at hseen
      obtain rfl := Option.some.inj hseen
      have hcall' := hcall
      change (o.session.calls ++ _)[o.session.calls.length]? = some call at hcall'
      rw [List.getElem?_concat_length] at hcall'
      obtain rfl := Option.some.inj hcall'
      split_ifs
      · trivial
      · exact Nat.le_refl _

theorem initially (T : Type*) (aborted : Bool) : Attended (⟨new T aborted, []⟩ : Observed T) := by
  refine ⟨Sound.initially T aborted, ⟨Opened.new, rfl⟩, rfl, ?_, ?_⟩
  · intro hl
    cases aborted with
    | false => exact ⟨rfl, rfl⟩
    | true => cases hl
  · intro _ i call n hcall
    cases hcall

theorem step {aborted : Bool} {e : SessionEvent T} {u : Observed T} (h : Attended o)
    (hunovertaken : Unovertaken o e) (hu : (observed T aborted).step o e = some u) :
    Attended u := by
  obtain ⟨t, ht, rfl⟩ := Option.map_eq_some_iff.1 hu
  have hsound := h.sound.step ht
  cases e with
  | listened mode =>
      simp only [DrizzleObservationSession.step] at ht
      split_ifs at ht with hl
      obtain rfl := Option.some.inj ht
      exact h.listened hl mode
  | listenThrew =>
      simp only [DrizzleObservationSession.step] at ht
      split_ifs at ht with hl
      obtain rfl := Option.some.inj ht
      exact h.onward hsound (Onward.listenThrew h.gated _)
  | changed catchup =>
      obtain rfl := Option.some.inj ht
      exact h.onward hsound (Onward.changed h.gated catchup)
  | fail message =>
      obtain rfl := Option.some.inj ht
      exact h.onward hsound (Onward.fail h.gated message)
  | close =>
      obtain rfl := Option.some.inj ht
      exact h.onward hsound (Onward.close h.gated)
  | adopt =>
      simp only [DrizzleObservationSession.step] at ht
      split_ifs at ht
      obtain rfl := Option.some.inj ht
      exact h.onward hsound (Onward.adopt h.gated)
  | unsubscribe =>
      simp only [DrizzleObservationSession.step] at ht
      split at ht
      · cases ht
      · obtain rfl := Option.some.inj ht
        have hdetached : Onward o.session
            { o.session with outlet := { o.session.outlet with closed := true } } :=
          Onward.same h.gated rfl rfl rfl id rfl
        exact h.onward hsound (hdetached.trans (Onward.close hdetached.gated))
  | current =>
      simp only [DrizzleObservationSession.step] at ht
      split_ifs at ht with hconstructed
      obtain rfl := Option.some.inj ht
      exact h.current hconstructed
  | immediate =>
      simp only [DrizzleObservationSession.step] at ht
      split_ifs at ht
      obtain rfl := Option.some.inj ht
      have hunscheduled : Onward o.session { o.session with scheduled := false } :=
        Onward.same h.gated rfl rfl rfl id rfl
      exact h.onward hsound (hunscheduled.trans (Onward.pump hunscheduled.gated))
  | resumeInitial answer => exact h.onward hsound (Onward.resumeInitial h.gated ht)
  | settleInitial => exact h.onward hsound (Onward.settleInitial h.sound h.gated ht)
  | resumeAdoption answer => exact h.onward hsound (Onward.resumeAdoption h.gated ht)
  | resumeCurrent call answer => exact h.resumeCurrent hunovertaken ht
  | cancelCurrent call => exact h.cancelCurrent ht
  | resumePumpRead p answer => exact h.onward hsound (Onward.resumePumpRead h.gated ht)
  | resumePump p => exact h.onward hsound (Onward.resumePump h.sound h.gated ht)

end Attended

/-- In a run in which no call gets past `whenReady` while the read it would wait for is older
than the call, every call of a session with a fenced lease returns a reading that started
after every notification the session was given before the call. -/
theorem current_fresh {aborted : Bool} {events : List (SessionEvent T)} {o : Observed T}
    (hrun : (observed T aborted).exec ⟨new T aborted, []⟩ events = some o)
    (hunovertaken : (observed T aborted).Within Unovertaken ⟨new T aborted, []⟩ events)
    (hfenced : o.session.fenced = true) {i : ℕ} {snapshot : Option (Reading T)}
    (hreturned : o.session.calls[i]? = some (.returned snapshot)) :
    ∃ n reading, o.seen[i]? = some n ∧ snapshot = some reading ∧ n ≤ reading.since := by
  have h : Attended o := Machine.exec_preserves (observed T aborted) (P := Attended)
    (fun _ _ _ h hC hu => h.step hC hu) (Attended.initially T aborted) hunovertaken hrun
  have hlt : i < o.seen.length := by
    rw [h.seen]
    exact (List.getElem?_eq_some_iff.1 hreturned).1
  obtain ⟨reading, hsnapshot, hn⟩ :=
    h.fresh hfenced i _ _ hreturned (List.getElem?_eq_getElem hlt)
  exact ⟨_, reading, List.getElem?_eq_getElem hlt, hsnapshot, hn⟩

/-- The first snapshot, a notification, and a call during the re-read. -/
def awaitedRead : List (SessionEvent ℕ) :=
  [.listened (.lease true), .resumeInitial (.ready none), .resumeInitial (.ready (some 0)),
    .resumeInitial (.value 1 true), .settleInitial, .changed false, .current,
    .resumeCurrent 0 (.ready none), .resumeCurrent 0 (.ready (some 0)),
    .resumePumpRead 0 (.ready (some 0)), .resumePumpRead 0 (.value 2 true), .resumePump 0,
    .resumeCurrent 0 (.ready none)]

/-- The same, and one more notification before a second call, while the first one's read is
still in flight. -/
def overtakenRead : List (SessionEvent ℕ) :=
  [.listened (.lease true), .resumeInitial (.ready none), .resumeInitial (.ready (some 0)),
    .resumeInitial (.value 1 true), .settleInitial, .changed false, .current,
    .resumeCurrent 0 (.ready none), .resumeCurrent 0 (.ready (some 0)),
    .resumePumpRead 0 (.ready (some 0)), .changed false, .current,
    .resumeCurrent 1 (.ready none), .resumeCurrent 1 (.ready (some 0)),
    .resumePumpRead 0 (.value 2 true), .resumePump 0, .resumeCurrent 1 (.ready none)]

theorem current_fresh_awaited :
    ∃ o, (observed ℕ false).exec ⟨new ℕ false, []⟩ awaitedRead = some o ∧
      o.session.calls[0]? = some (.returned (some ⟨2, 1⟩)) ∧
      ∃ n reading, o.seen[0]? = some n ∧ some (⟨2, 1⟩ : Reading ℕ) = some reading ∧
        n ≤ reading.since :=
  ⟨_, rfl, rfl, @current_fresh ℕ false awaitedRead _ rfl (by decide) rfl 0 _ rfl⟩

/-- A call after the second notification returns the reading of the first. -/
theorem overtaken_current :
    ∃ o, (observed ℕ false).exec ⟨new ℕ false, []⟩ overtakenRead = some o ∧
      o.session.fenced = true ∧ o.seen[1]? = some 2 ∧
      o.session.calls[1]? = some (.returned (some ⟨2, 1⟩)) :=
  ⟨_, rfl, rfl, rfl, rfl⟩

end Arc.Drizzle.DrizzleObservationSession
