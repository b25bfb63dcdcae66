import Arc.ProxyGenerator.WatchScans

/-!
# What a source watch does not miss

A notification is answered by a read that begins after it: by the first one of a new check, or
by one more round of the check that is running. The second needs the check to be in its loop;
between the end of the loop and the `finally` that clears `pending` a notification is only
written down. The other promises of the monitor do not depend on that: a scan that was asked
for begins, a change that was stored is announced, and no observation replaces a later one.
-/

namespace Arc.ProxyGenerator.SourceWatchMonitor

open History

variable {w : Watch} {s t u : SourceWatchMonitor}

/-! ### One more fact -/

theorem Served.append (h : Served w s) (later : List WatchFact)
    (hlater : ∀ f ∈ later, ∀ path, w.watches path = true → f ≠ .notified path) :
    Served w { s with facts := s.facts ++ later } where
  running := h.running
  pending_iff := h.pending_iff
  dirty := h.dirty
  reread := fun path hpath => (h.reread path hpath).imp_right fun hanswered =>
    hanswered.append fun f hf => hlater f hf path hpath

theorem Timed.append (h : Timed s) (later : List WatchFact)
    (hlater : ∀ f ∈ later, ∀ path previous current, f = .stored path previous current →
      previous.began ≤ current.ended) :
    Timed { s with facts := s.facts ++ later } where
  entries := h.entries
  stored := h.stored
  check := h.check
  scan := h.scan
  fresh := by
    intro path previous current hmem
    rcases List.mem_append.1 hmem with hmem | hmem
    · exact h.fresh path previous current hmem
    · exact hlater _ hmem path previous current rfl

theorem Rescanned.append (h : Rescanned s) (later : List WatchFact)
    (hlater : ∀ f ∈ later, ∀ path, f ≠ .moved path) (hrequested : t.scanRequested = s.scanRequested)
    (hfacts : t.facts = s.facts ++ later) : Rescanned t := by
  unfold Rescanned
  rw [hrequested, hfacts]
  refine h.imp_right fun hanswered => hanswered.append ?_
  rintro f hf ⟨path, hmoved⟩
  exact hlater f hf path hmoved

theorem Announced.append (h : Announced s) (later : List WatchFact)
    (hlater : ∀ f ∈ later, ¬ Differing f) (hfacts : t.facts = s.facts ++ later) :
    Announced t := by
  unfold Announced
  rw [hfacts]
  exact Answered.append h hlater

/-! ### Checks -/

theorem setCheck_checks (s : SourceWatchMonitor) (path : Path) (check : Option Check)
    (other : Path) : (s.setCheck path check).checks other =
      if other = path then check else s.checks other := by
  by_cases h : other = path
  · subst h
    simp [setCheck]
  · simp [setCheck, h]

theorem Served.setCheck (h : Served w s) {path : Path} (source : Bool) (stage : CheckStage)
    (hsome : (s.checks path).isSome) (hstage : stage = .ended → path ∉ s.dirty) :
    Served w (s.setCheck path (some ⟨source, stage⟩)) where
  running := h.running
  pending_iff := by
    intro other
    rw [setCheck_checks]
    by_cases hother : other = path
    · subst hother
      rw [if_pos rfl]
      exact iff_of_true ((h.pending_iff other).2 hsome) rfl
    · rw [if_neg hother]
      exact h.pending_iff other
  dirty := by
    intro other hother
    rw [setCheck_checks]
    by_cases heq : other = path
    · subst heq
      exact ⟨source, stage, by simp, fun hended => hstage hended hother⟩
    · rw [if_neg heq]
      exact h.dirty other hother
  reread := h.reread

theorem Timed.setCheck (h : Timed s) (path : Path) (source : Bool) (stage : CheckStage)
    (hstage : CheckTimed s.clock (s.checkpoint path) stage) :
    Timed (s.setCheck path (some ⟨source, stage⟩)) where
  entries := h.entries
  stored := h.stored
  check := by
    intro other source' stage' hcheck
    rw [setCheck_checks] at hcheck
    by_cases hother : other = path
    · subst hother
      rw [if_pos rfl] at hcheck
      cases hcheck
      exact hstage
    · rw [if_neg hother] at hcheck
      exact h.check other source' stage' hcheck
  scan := h.scan
  fresh := h.fresh

theorem Waiting.setCheck (h : Waiting s []) (path : Path) (source : Bool) {stage : CheckStage}
    {extra : List Requester} (hstage : stage = .reconciling → some path ∈ extra) :
    Waiting (s.setCheck path (some ⟨source, stage⟩)) extra := by
  intro other source' hcheck
  rw [setCheck_checks] at hcheck
  by_cases hother : other = path
  · subst hother
    rw [if_pos rfl] at hcheck
    cases hcheck
    exact Or.inl (hstage rfl)
  · rw [if_neg hother] at hcheck
    exact (h other source' hcheck).elim (fun hmem => by simp at hmem) Or.inr

/-- A round begins: what was notified before it is read after it. -/
theorem Served.round (h : Served w s) {path : Path} {source : Bool} {stage : CheckStage}
    {later : List WatchFact} (hstopped : t.stopped = s.stopped)
    (hdirty : t.dirty = s.dirty.filter (· ≠ path))
    (hchecks : ∀ other, t.checks other =
      if other = path then some ⟨source, stage⟩ else s.checks other)
    (hpending : ∀ other, other ∈ t.pending ↔ other ∈ s.pending ∨ other = path)
    (hfacts : t.facts = s.facts ++ later ++ [.readBegan path])
    (hlater : ∀ f ∈ later, f = .notified path) : Served w t where
  running := hstopped.trans h.running
  pending_iff := by
    intro other
    rw [hpending, hchecks]
    by_cases hother : other = path
    · simp [hother]
    · simp [hother, h.pending_iff other]
  dirty := by
    intro other hmem
    rw [hdirty, List.mem_filter] at hmem
    have hother : other ≠ path := by simpa using hmem.2
    rw [hchecks, if_neg hother]
    exact h.dirty other hmem.1
  reread := by
    intro other hwatched
    rw [hdirty, hfacts]
    by_cases hother : other = path
    · subst hother
      exact Or.inr (answered_of_answer rfl (by simp))
    · refine (h.reread other hwatched).imp (fun hmem => by simp [hmem, hother]) fun hanswered => ?_
      refine (hanswered.append fun f hf heq => ?_).concat (by simp)
      rw [hlater f hf] at heq
      exact hother (WatchFact.notified.inj heq).symm

/-- What a round of a check begins with. -/
def firstStage (s : SourceWatchMonitor) (path : Path) (source : Bool) : CheckStage :=
  if source then .reading s.clock (((s.entries.get path).bind SourceWatchEntry.hash).isSome)
  else .statting

theorem firstStage_timed (s : SourceWatchMonitor) (path : Path) (source : Bool)
    (stored : Observation) : CheckTimed s.clock stored (s.firstStage path source) := by
  unfold firstStage
  split
  · exact Nat.le_refl _
  · trivial

theorem firstStage_ne (s : SourceWatchMonitor) (path : Path) (source : Bool) :
    s.firstStage path source ≠ .ended ∧ s.firstStage path source ≠ .reconciling := by
  unfold firstStage
  split
  · simp
  · simp

/-! ### The invariant -/

/-- The invariant between the storing of observations and their announcement. -/
structure Steady (w : Watch) (s : SourceWatchMonitor) : Prop where
  served : Served w s
  timed : Timed s
  waiting : Waiting s []
  asked : Asked s
  rescanned : Rescanned s

/-- The invariant between two steps. -/
structure Sound (w : Watch) (s : SourceWatchMonitor) : Prop extends Steady w s where
  announced : Announced s

theorem Sound.tick (h : Sound w s) : Sound w s.tick where
  served := ⟨h.served.running, h.served.pending_iff, h.served.dirty, h.served.reread⟩
  timed := h.timed.tick
  waiting := h.waiting
  asked := h.asked
  rescanned := h.rescanned
  announced := h.announced

theorem sound_started (w : Watch) (entries : InsertionMap Path SourceWatchEntry) :
    Sound w (started w entries) where
  served := ⟨rfl, by simp [started], by simp [started], fun _ _ => Or.inr answered_nil⟩
  timed :=
    { entries := fun _ => rfl
      stored := fun _ => ⟨Nat.le_refl _, Nat.le_refl _⟩
      check := by simp [started]
      scan := by simp [started]
      fresh := by simp [started] }
  waiting := by
    intro path source hcheck
    cases hcheck
  asked := by
    intro hrequested
    cases hrequested
  rescanned := Or.inr answered_nil
  announced := answered_nil

/-- What leaves the checks to themselves, and requests no scan. -/
theorem Sound.setCheck (h : Sound w s) {path : Path} (source : Bool) {stage : CheckStage}
    (hsome : (s.checks path).isSome) (hdirty : stage = .ended → path ∉ s.dirty)
    (htimed : CheckTimed s.clock (s.checkpoint path) stage) (hwait : stage ≠ .reconciling) :
    Sound w (s.setCheck path (some ⟨source, stage⟩)) where
  served := h.served.setCheck source stage hsome hdirty
  timed := h.timed.setCheck path source stage htimed
  waiting := h.waiting.setCheck path source fun heq => absurd heq hwait
  asked := h.asked
  rescanned := h.rescanned
  announced := h.announced

/-- A round of a check begins. -/
theorem Sound.round (h : Sound w s) {path : Path} (source : Bool) (later : List WatchFact)
    (pending : List Path) (hpending : ∀ other, other ∈ pending ↔ other ∈ s.pending ∨ other = path)
    (hlater : ∀ f ∈ later, f = .notified path) :
    Sound w { s.setCheck path (some ⟨source, s.firstStage path source⟩) with
      dirty := s.dirty.filter (· ≠ path)
      pending := pending
      facts := s.facts ++ later ++ [.readBegan path] } := by
  have htimed := (h.timed.setCheck path source _
    (firstStage_timed s path source (s.checkpoint path))).append (later ++ [.readBegan path]) (by
      intro f hf path' previous current heq
      rcases List.mem_append.1 hf with hf | hf
      · rw [hlater f hf] at heq
        cases heq
      · rw [List.mem_singleton.1 hf] at heq
        cases heq)
  have hwaiting : Waiting (s.setCheck path (some ⟨source, s.firstStage path source⟩)) [] :=
    h.waiting.setCheck path source fun heq => absurd heq (firstStage_ne s path source).2
  have hfacts : s.facts ++ later ++ [.readBegan path] =
      s.facts ++ (later ++ [WatchFact.readBegan path]) := List.append_assoc _ _ _
  exact
    { served := h.served.round rfl rfl
        (fun other => setCheck_checks s path (some ⟨source, s.firstStage path source⟩) other)
        hpending rfl hlater
      timed :=
        { entries := htimed.entries
          stored := htimed.stored
          check := htimed.check
          scan := htimed.scan
          fresh := by
            rw [hfacts]
            exact htimed.fresh }
      waiting := hwaiting
      asked := h.asked
      rescanned := by
        refine h.rescanned.append (later ++ [.readBegan path]) ?_ rfl hfacts
        intro f hf path' heq
        rcases List.mem_append.1 hf with hf | hf
        · rw [hlater f hf] at heq
          cases heq
        · rw [List.mem_singleton.1 hf] at heq
          cases heq
      announced := by
        refine h.announced.append (later ++ [.readBegan path]) ?_ hfacts
        intro f hf hdiffering
        rcases List.mem_append.1 hf with hf | hf
        · rw [hlater f hf] at hdiffering
          exact hdiffering
        · rw [List.mem_singleton.1 hf] at hdiffering
          exact hdiffering }

theorem Sound.endRound (h : Sound w s) {path : Path} (source : Bool)
    (hsome : (s.checks path).isSome) : Sound w (s.endRound path source) := by
  unfold SourceWatchMonitor.endRound
  split
  · have hpending : ∀ other, other ∈ s.pending ↔ other ∈ s.pending ∨ other = path := by
      intro other
      refine ⟨Or.inl, fun hmem => hmem.elim id ?_⟩
      rintro rfl
      exact (h.served.pending_iff other).2 hsome
    have hround := h.round source [] s.pending hpending (by simp)
    rw [List.append_nil] at hround
    exact hround
  · rename_i hclean
    refine h.setCheck source hsome (fun _ hdirty => hclean ?_) trivial (by simp)
    simp [h.served.running, hdirty]

/-! ### Observations are stored -/

/-- An observation is stored that ended after the read of the one it replaces had begun. -/
theorem Steady.update (h : Steady w s) {path : Path} {o : Observation}
    (hended : o.began ≤ o.ended) (hnow : o.ended ≤ s.clock)
    (hfresh : (s.checkpoint path).began ≤ o.ended)
    (hscan : ∀ scan joined chained, s.scanning = some ⟨.scanning scan, joined, chained⟩ →
      path ∈ scan.duringScan)
    (hread : ∀ source o', s.checks path = some ⟨source, .read o'⟩ → o.began ≤ o'.ended) :
    Steady w (s.update path o) where
  served := by
    have hserved := h.served.append [.stored path (s.checkpoint path) o] (by simp)
    exact ⟨hserved.running, hserved.pending_iff, hserved.dirty, hserved.reread⟩
  timed :=
    { entries := by
        intro other
        unfold SourceWatchMonitor.update
        by_cases hother : other = path
        · subst hother
          cases hentry : o.entry with
          | some entry => simp [hentry]
          | none => simp [hentry]
        · cases hentry : o.entry with
          | some entry => simp [hother, InsertionMap.get_set_of_ne _ _ hother, h.timed.entries]
          | none => simp [hother, InsertionMap.get_delete_of_ne _ hother, h.timed.entries]
      stored := by
        intro other
        unfold SourceWatchMonitor.update
        by_cases hother : other = path
        · subst hother
          simp [hended, hnow]
        · simpa [hother] using h.timed.stored other
      check := by
        intro other source stage hcheck
        have htimed := h.timed.check other source stage hcheck
        unfold SourceWatchMonitor.update
        by_cases hother : other = path
        · subst hother
          dsimp only
          rw [Function.update_self]
          cases stage with
          | read o' => exact ⟨htimed.1, htimed.2.1, hread source o' hcheck⟩
          | reading began compareHash => exact htimed
          | statting => trivial
          | statted directory => trivial
          | reconciling => trivial
          | reconciled => trivial
          | ended => trivial
        · simpa [hother] using htimed
      scan := by
        intro scan joined chained hscanning
        have htimed := h.timed.scan scan joined chained hscanning
        refine ⟨htimed.began, fun other hother => ?_, htimed.inFlight, htimed.snapshot⟩
        unfold SourceWatchMonitor.update
        have hne : other ≠ path := by
          rintro rfl
          exact hother (hscan scan joined chained hscanning)
        simpa [hne] using htimed.stored other hother
      fresh := by
        intro path' previous current hmem
        rcases List.mem_append.1 hmem with hmem | hmem
        · exact h.timed.fresh path' previous current hmem
        · obtain ⟨-, rfl, rfl⟩ := WatchFact.stored.inj (List.mem_singleton.1 hmem)
          exact hfresh }
  waiting := h.waiting
  asked := h.asked
  rescanned := h.rescanned.append [.stored path (s.checkpoint path) o]
    (by simp) rfl rfl

/-- Announcing is one more fact. -/
theorem Steady.announce (h : Steady w s) : Sound w (s.fact .changed) where
  served := h.served.append [.changed] (by simp)
  timed := h.timed.append [.changed] (by simp)
  waiting := h.waiting
  asked := h.asked
  rescanned := h.rescanned.append [.changed] (by simp) rfl rfl
  announced := answered_of_answer rfl id

theorem announced_update (hs : Announced s) {path : Path} {o : Observation}
    (hsame : Replaces (s.checkpoint path).entry o.entry → False) : Announced (s.update path o) :=
  hs.append [.stored path (s.checkpoint path) o] (by simpa [Differing] using hsame) rfl

theorem addDuringScan_frame (s : SourceWatchMonitor) (path : Path) :
    s.addDuringScan path = { s with scanning := (s.addDuringScan path).scanning } ∧
      (s.addDuringScan path).requesters = s.requesters ∧
      (Outstanding s → Outstanding (s.addDuringScan path)) := by
  unfold addDuringScan
  split
  · rename_i scan joined chained hscanning
    refine ⟨rfl, by simp [requesters, hscanning], fun h => h.imp_right fun _ => ?_⟩
    exact ⟨_, rfl, fun hended => by cases hended⟩
  · exact ⟨rfl, rfl, id⟩

/-- A scan that runs is told of the path. -/
theorem addDuringScan_told {path : Path} {scan : Scan} {joined chained : List Requester}
    (h : (s.addDuringScan path).scanning = some ⟨.scanning scan, joined, chained⟩) :
    path ∈ scan.duringScan ∧ ∃ scan', s.scanning = some ⟨.scanning scan', joined, chained⟩ ∧
      scan = { scan' with duringScan := path :: scan'.duringScan } := by
  unfold addDuringScan at h
  split at h
  · rename_i scan' joined' chained' hscanning
    obtain ⟨hphase, rfl, rfl⟩ := Scanning.mk.inj (Option.some.inj h)
    obtain rfl := ScanPhase.scanning.inj hphase
    exact ⟨List.mem_cons_self, scan', hscanning, rfl⟩
  · rename_i hnone
    exact absurd h (hnone scan joined chained)

theorem Sound.addDuringScan (h : Sound w s) (path : Path) : Sound w (s.addDuringScan path) := by
  obtain ⟨hframe, hrequesters, houtstanding⟩ := addDuringScan_frame s path
  have htold := @addDuringScan_told s path
  generalize hscanning : (s.addDuringScan path).scanning = scanning at hframe htold
  rw [hframe] at hrequesters houtstanding ⊢
  exact
    { served := ⟨h.served.running, h.served.pending_iff, h.served.dirty, h.served.reread⟩
      timed :=
        { entries := h.timed.entries
          stored := h.timed.stored
          check := h.timed.check
          scan := by
            intro scan joined chained hscan
            obtain ⟨-, scan', hscan', rfl⟩ := htold hscan
            have htimed := h.timed.scan scan' joined chained hscan'
            refine ⟨htimed.began, fun other hother => htimed.stored other ?_, htimed.inFlight,
              htimed.snapshot⟩
            exact fun hmem => hother (List.mem_cons_of_mem path hmem)
          fresh := h.timed.fresh }
      waiting := by
        intro path' source hcheck
        rw [hrequesters]
        exact h.waiting path' source hcheck
      asked := fun hrequested => houtstanding (h.asked hrequested)
      rescanned := h.rescanned
      announced := h.announced }

/-- A check stores what it read, and announces it when it differs. -/
theorem Sound.checkedRead (h : Sound w s) {path : Path} {source : Bool} {o : Observation}
    (hcheck : s.checks path = some ⟨source, .read o⟩) :
    ∃ t, s.checked w path source (.read o) = some t ∧ Sound w t := by
  have htimed := h.timed.check path source (.read o) hcheck
  have hadded := h.addDuringScan path
  have htold := @addDuringScan_told s path
  obtain ⟨hframe, -, -⟩ := addDuringScan_frame s path
  have hclock : (s.addDuringScan path).clock = s.clock := by rw [hframe]
  have hcheckpoint : (s.addDuringScan path).checkpoint = s.checkpoint := by rw [hframe]
  have hchecks : (s.addDuringScan path).checks = s.checks := by rw [hframe]
  refine ⟨_, rfl, ?_⟩
  generalize s.addDuringScan path = s' at *
  have hsteady : Steady w (s'.update path o) := by
    refine hadded.toSteady.update htimed.1 ?_ ?_ ?_ ?_
    · rw [hclock]
      exact htimed.2.1
    · rw [hcheckpoint]
      exact htimed.2.2
    · exact fun scan joined chained hscan => (htold hscan).1
    · intro source' o' hread
      rw [hchecks, hcheck] at hread
      cases hread
      exact htimed.1
  have hsome : ((s'.update path o).checks path).isSome := by
    change (s'.checks path).isSome
    rw [hchecks, hcheck]
    rfl
  split
  · exact hsteady.announce.endRound source hsome
  · rename_i hquiet
    refine Sound.endRound ⟨hsteady, announced_update hadded.announced ?_⟩ source hsome
    intro hreplaces
    rw [hadded.timed.entries path] at hreplaces
    have hdiffers := (replaces_iff _ _).1 hreplaces
    have hrunning : s'.stopped = false := hadded.served.running
    simp [hdiffers, update, hrunning] at hquiet

/-- A check that met a directory, or lost one, asks for a scan. -/
theorem Sound.checkedMoved (h : Sound w s) {path : Path} (source : Bool)
    (hsome : (s.checks path).isSome) :
    Sound w (((s.setCheck path (some ⟨source, .reconciling⟩)).fact (.moved path)).requestReconcile w
      (some path)) := by
  have hserved := (h.served.setCheck source .reconciling hsome (by simp)).append
    [.moved path] (by simp)
  have htimed := (h.timed.setCheck path source .reconciling trivial).append
    [.moved path] (by simp)
  have hwaiting : Waiting ((s.setCheck path (some ⟨source, .reconciling⟩)).fact (.moved path))
      [some path] :=
    h.waiting.setCheck path source fun _ => List.mem_singleton.2 rfl
  have hannounced :
      Announced ((s.setCheck path (some ⟨source, .reconciling⟩)).fact (.moved path)) :=
    h.announced.append [.moved path] (by simp [Differing]) rfl
  exact
    { served := (Aside.requestReconcile _ _).served hserved
      timed := htimed.requestReconcile _
      waiting := hwaiting.requestReconcile hserved.running
      asked := asked_requestReconcile hserved.running _
      rescanned := rescanned_requestReconcile hserved.running _
      announced := (Aside.requestReconcile _ _).announced hannounced }

theorem Sound.checked (h : Sound w s) {path : Path} {source : Bool} {stage : CheckStage}
    (hcheck : s.checks path = some ⟨source, stage⟩) (ht : s.checked w path source stage = some t) :
    Sound w t := by
  have hsome : (s.checks path).isSome := by
    rw [hcheck]
    rfl
  cases stage with
  | read o =>
      obtain ⟨t', ht', hsound⟩ := h.checkedRead (w := w) hcheck
      obtain rfl := Option.some.inj (ht.symm.trans ht')
      exact hsound
  | statted directory =>
      unfold SourceWatchMonitor.checked at ht
      dsimp only at ht
      split at ht
      · cases ht
        exact h.checkedMoved source hsome
      · cases ht
        exact h.endRound source hsome
  | reconciled =>
      cases ht
      exact h.endRound source hsome
  | reading began compareHash => cases ht
  | statting => cases ht
  | reconciling => cases ht
  | ended => cases ht

/-! ### A scan stores what it found -/

/-- The invariant of the loop of `reconcile`. -/
structure Folding (w : Watch) (scan : Scan) (c : SourceWatchMonitor × Bool) : Prop where
  steady : Steady w c.1
  announced : c.2 = true ∨ Announced c.1
  untold : ∀ path, path ∉ scan.duringScan →
    (c.1.checkpoint path).began ≤ (scan.observed path).ended
  observed : ∀ path, (scan.observed path).began ≤ (scan.observed path).ended ∧
    (scan.observed path).ended ≤ c.1.clock
  idle : ∀ scan' joined chained, c.1.scanning ≠ some ⟨.scanning scan', joined, chained⟩

theorem Folding.reconcilePath {scan : Scan} {c : SourceWatchMonitor × Bool}
    (h : Folding w scan c) (path : Path) : Folding w scan (reconcilePath scan c path) := by
  unfold SourceWatchMonitor.reconcilePath
  split
  · exact h
  · rename_i hskip
    rw [not_or] at hskip
    obtain ⟨hpending, htold⟩ := hskip
    refine ⟨?_, ?_, ?_, h.observed, h.idle⟩
    · refine h.steady.update (h.observed path).1 (h.observed path).2 (h.untold path htold) ?_ ?_
      · intro scan' joined chained hscanning
        exact absurd hscanning (h.idle scan' joined chained)
      · intro source o' hcheck
        -- a path with a check is skipped
        have hnone : ¬ (c.1.checks path).isSome := fun hsome =>
          hpending ((h.steady.served.pending_iff path).2 hsome)
        rw [hcheck] at hnone
        exact absurd rfl hnone
    · cases hdiffers : differs (c.1.entries.get path) (scan.observed path).entry with
      | true => exact Or.inl rfl
      | false =>
          refine h.announced.imp (fun hchanged => hchanged) fun hannounced => ?_
          refine announced_update hannounced fun hreplaces => ?_
          rw [h.steady.timed.entries path, replaces_iff, hdiffers] at hreplaces
          cases hreplaces
    · intro other hother
      unfold SourceWatchMonitor.update
      dsimp only
      by_cases heq : other = path
      · subst heq
        rw [Function.update_self]
        exact (h.observed other).1
      · rw [Function.update_of_ne heq]
        exact h.untold other hother

theorem Folding.foldl {scan : Scan} {c : SourceWatchMonitor × Bool} (h : Folding w scan c)
    (paths : List Path) :
    Folding w scan (paths.foldl (SourceWatchMonitor.reconcilePath scan) c) := by
  induction paths generalizing c with
  | nil => exact h
  | cons path paths ih => exact ih (h.reconcilePath path)

theorem ScanTimed.observed {clock : ℕ} {checkpoint : Path → Observation} {scan : Scan}
    (h : ScanTimed clock checkpoint scan) (path : Path) :
    scan.began ≤ (scan.observed path).began ∧
      (scan.observed path).began ≤ (scan.observed path).ended ∧
      (scan.observed path).ended ≤ clock := by
  unfold Scan.observed
  cases hsnapshot : scan.snapshot.get path with
  | some o => exact h.snapshot path o hsnapshot
  | none => exact ⟨Nat.le_refl _, Nat.le_refl _, h.began⟩

theorem Sound.reconcile (h : Sound w s) {scan : Scan} {joined chained : List Requester}
    (hscanning : s.scanning = some ⟨.reconciled, joined, chained⟩)
    (hscan : ScanTimed s.clock s.checkpoint scan) : Sound w (s.reconcile scan) := by
  have hfolding : Folding w scan (s, false) :=
    { steady := h.toSteady
      announced := Or.inr h.announced
      untold := fun path hpath => Nat.le_trans (hscan.stored path hpath)
        (Nat.le_trans (hscan.observed path).1 (hscan.observed path).2.1)
      observed := fun path => (hscan.observed path).2
      idle := by
        intro scan' joined' chained' heq
        rw [hscanning] at heq
        cases heq }
  have hend := hfolding.foldl (s.scannedPaths scan)
  unfold SourceWatchMonitor.reconcile
  dsimp only
  split
  · exact hend.steady.announce
  · rename_i hquiet
    refine ⟨hend.steady, hend.announced.resolve_left fun hchanged => hquiet ?_⟩
    simp [hchanged, hend.steady.served.running]

/-! ### Steps -/

theorem Sound.requestReconcile (h : Sound w s) {requester : Requester}
    (hwaiting : Waiting s [requester]) : Sound w (s.requestReconcile w requester) where
  served := (Aside.requestReconcile s requester).served h.served
  timed := h.timed.requestReconcile requester
  waiting := hwaiting.requestReconcile h.served.running
  asked := asked_requestReconcile h.served.running requester
  rescanned := rescanned_requestReconcile h.served.running requester
  announced := (Aside.requestReconcile s requester).announced h.announced

theorem Sound.fire (h : Sound w s) :
    Sound w (({ s with timer := false } : SourceWatchMonitor).requestReconcile w none) := by
  have hfired : Sound w { s with timer := false } :=
    ⟨⟨⟨h.served.running, h.served.pending_iff, h.served.dirty, h.served.reread⟩,
      ⟨h.timed.entries, h.timed.stored, h.timed.check, h.timed.scan, h.timed.fresh⟩,
      h.waiting, h.asked, h.rescanned⟩, h.announced⟩
  refine hfired.requestReconcile fun path source hcheck => Or.inr ?_
  exact (h.waiting path source hcheck).resolve_left (by simp)

theorem Sound.honour (h : Sound w s) {requester : Requester} {queued : List Requester}
    (hqueued : s.queued = requester :: queued) :
    Sound w (({ s with queued := queued } : SourceWatchMonitor).honour w requester) := by
  have hserved : Served w { s with queued := queued } :=
    ⟨h.served.running, h.served.pending_iff, h.served.dirty, h.served.reread⟩
  have htimed : Timed { s with queued := queued } :=
    ⟨h.timed.entries, h.timed.stored, h.timed.check, h.timed.scan, h.timed.fresh⟩
  have hwaiting : Waiting { s with queued := queued } [requester] := by
    intro path source hcheck
    have hmem := (h.waiting path source hcheck).resolve_left (by simp)
    unfold requesters at hmem
    rw [hqueued, List.cons_append, List.mem_cons] at hmem
    exact hmem.imp (fun heq => List.mem_singleton.2 heq) id
  exact
    { served := (Aside.honour _ requester).served hserved
      timed := htimed.honour requester
      waiting := hwaiting.honour hserved.running
      asked := asked_honour hserved.running requester
      rescanned := rescanned_honour (s := { s with queued := queued }) hserved.running h.rescanned
        requester
      announced := (Aside.honour _ requester).announced h.announced }

theorem Sound.nextRound (h : Sound w s) {scanning : Scanning}
    (hscanning : s.scanning = some scanning) : Sound w (s.nextRound w scanning) where
  served := (Aside.nextRound s scanning).served h.served
  timed := h.timed.nextRound scanning
  waiting := h.waiting.nextRound hscanning
  asked := asked_nextRound h.served.running scanning
  rescanned := rescanned_nextRound h.rescanned scanning
  announced := (Aside.nextRound s scanning).announced h.announced

/-- The end of a scan wakes those who joined it, and hands its requests on. -/
theorem Sound.scanCleared (h : Sound w s) {joined chained : List Requester}
    (hscanning : s.scanning = some ⟨.ended, joined, chained⟩) :
    Sound w (joined.foldl SourceWatchMonitor.settle
      { s with scanning := none, queued := s.queued ++ chained }) := by
  have hserved : Served w { s with scanning := none, queued := s.queued ++ chained } :=
    ⟨h.served.running, h.served.pending_iff, h.served.dirty, h.served.reread⟩
  have htimed : Timed { s with scanning := none, queued := s.queued ++ chained } :=
    ⟨h.timed.entries, h.timed.stored, h.timed.check, by simp, h.timed.fresh⟩
  have hwaiting : Waiting { s with scanning := none, queued := s.queued ++ chained } joined := by
    intro path source hcheck
    have hmem := (h.waiting path source hcheck).resolve_left (by simp)
    simp only [requesters, hscanning, List.mem_append] at hmem ⊢
    simp only [List.not_mem_nil, or_false]
    tauto
  have hasked : Asked { s with scanning := none, queued := s.queued ++ chained } := by
    intro hrequested
    refine Or.inl ?_
    rcases h.asked hrequested with hqueued | ⟨scanning, hsome, hended⟩
    · simp [hqueued]
    · rw [hscanning] at hsome
      obtain rfl := Option.some.inj hsome
      simp [hended rfl]
  obtain ⟨hframe, hrequested, hqueued, hfacts⟩ := foldl_settle_frame
    { s with scanning := none, queued := s.queued ++ chained } joined
  have haside := Aside.foldl_settle
    { s with scanning := none, queued := s.queued ++ chained } joined
  exact
    { served := haside.served hserved
      timed := htimed.foldl_settle joined
      waiting := hwaiting.foldl_settle
      asked := by
        unfold Asked Outstanding
        rw [hframe, hrequested, hqueued]
        exact hasked
      rescanned := by
        unfold Rescanned
        rw [hrequested, hfacts]
        exact h.rescanned
      announced := haside.announced h.announced }

theorem Sound.scanningStep (h : Sound w s) {e : WatchEvent} (ht : s.scanningStep w e = some t) :
    Sound w t := by
  have haside := Aside.scanningStep ht
  obtain ⟨hrequesters, hrequested, hqueued, scan, scan', joined, chained, -, hscanning⟩ :=
    scanningStep_frame ht
  exact
    { served := haside.served h.served
      timed := h.timed.scanningStep ht
      waiting := by
        intro path source hcheck
        rw [hrequesters]
        rcases haside.checks path with hsame | ⟨source', -, hover⟩
        · exact h.waiting path source (hsame ▸ hcheck)
        · rw [hover] at hcheck
          cases hcheck
      asked := fun _ => Or.inr ⟨_, hscanning, fun hended => by cases hended⟩
      rescanned := by
        obtain ⟨later, hlater, hscan⟩ := haside.facts
        refine h.rescanned.append later ?_ hrequested hlater
        intro f hf path heq
        rcases hscan f hf with rfl | ⟨path', rfl⟩
        · cases heq
        · cases heq
      announced := haside.announced h.announced }

/-- The snapshot of a scan is complete. -/
theorem Sound.snapshot (h : Sound w s) {scan : Scan} {joined chained : List Requester}
    (hscanning : s.scanning = some ⟨.scanning scan, joined, chained⟩) :
    Sound w (({ s with scanning := some ⟨.reconciled, joined, chained⟩ } :
      SourceWatchMonitor).reconcile scan) := by
  have hscan := h.timed.scan scan joined chained hscanning
  have hsound : Sound w { s with scanning := some ⟨.reconciled, joined, chained⟩ } :=
    { served := ⟨h.served.running, h.served.pending_iff, h.served.dirty, h.served.reread⟩
      timed := ⟨h.timed.entries, h.timed.stored, h.timed.check, by simp, h.timed.fresh⟩
      waiting := by
        intro path source hcheck
        have hmem := h.waiting path source hcheck
        unfold requesters at hmem ⊢
        rw [hscanning] at hmem
        exact hmem
      asked := fun _ => Or.inr ⟨_, rfl, fun hended => by cases hended⟩
      rescanned := h.rescanned
      announced := h.announced }
  exact hsound.reconcile rfl hscan

/-- The `finally` of a check. -/
theorem Sound.clear (h : Sound w s) {path : Path} {source : Bool}
    (hcheck : s.checks path = some ⟨source, .ended⟩) :
    Sound w { s.setCheck path none with pending := s.pending.filter (· ≠ path) } where
  served :=
    { running := h.served.running
      pending_iff := by
        intro other
        dsimp only
        rw [setCheck_checks, List.mem_filter]
        by_cases hother : other = path
        · simp [hother]
        · simp [hother, h.served.pending_iff other]
      dirty := by
        intro other hmem
        obtain ⟨source', stage, hother, hstage⟩ := h.served.dirty other hmem
        dsimp only
        rw [setCheck_checks, if_neg]
        · exact ⟨source', stage, hother, hstage⟩
        · rintro rfl
          -- a path is not dirty once its check has left the loop
          rw [hcheck] at hother
          cases hother
          exact hstage rfl
      reread := h.served.reread }
  timed :=
    { entries := h.timed.entries
      stored := h.timed.stored
      check := by
        intro other source' stage hother
        dsimp only at hother
        rw [setCheck_checks] at hother
        split at hother
        · cases hother
        · exact h.timed.check other source' stage hother
      scan := h.timed.scan
      fresh := h.timed.fresh }
  waiting := by
    intro other source' hother
    dsimp only at hother
    rw [setCheck_checks] at hother
    split at hother
    · cases hother
    · exact h.waiting other source' hother
  asked := h.asked
  rescanned := h.rescanned
  announced := h.announced

/-- A path whose check has left the loop and is still pending is not notified. -/
def catches (s : SourceWatchMonitor) (path : Path) : Bool :=
  match s.checks path with
  | some ⟨_, .ended⟩ => false
  | _ => true

/-- No notification falls between the end of a check's loop and its `finally`. -/
def Caught (s : SourceWatchMonitor) : WatchEvent → Prop
  | .notify path => s.catches path = true
  | _ => True

instance (s : SourceWatchMonitor) (e : WatchEvent) : Decidable (Caught s e) := by
  cases e with
  | notify path => exact inferInstanceAs (Decidable (s.catches path = true))
  | _ => exact isTrue trivial

theorem Sound.notify (h : Sound w s) {path : Path} (hcaught : s.catches path = true) :
    Sound w (s.notify w path) := by
  -- the notification alone, on a path that is not watched or is marked dirty
  have hnotified : ∀ dirty, (w.watches path = true → path ∈ dirty) →
      (∀ other ∈ dirty, other ∈ s.dirty ∨ other = path ∧ path ∈ s.pending) →
      (∀ other ∈ s.dirty, other ∈ dirty) →
      Sound w { s with dirty := dirty, facts := s.facts ++ [.notified path] } := by
    intro dirty hmarked hdirty hkept
    have htimed := h.timed.append [.notified path] (by simp)
    exact
      { served :=
          { running := h.served.running
            pending_iff := h.served.pending_iff
            dirty := by
              intro other hmem
              rcases hdirty other hmem with hmem | ⟨rfl, hpending⟩
              · exact h.served.dirty other hmem
              · obtain ⟨⟨source, stage⟩, hcheck⟩ :=
                  Option.isSome_iff_exists.1 ((h.served.pending_iff other).1 hpending)
                refine ⟨source, stage, hcheck, ?_⟩
                rintro rfl
                unfold catches at hcaught
                rw [hcheck] at hcaught
                cases hcaught
            reread := by
              intro other hwatched
              by_cases hother : other = path
              · subst hother
                exact Or.inl (hmarked hwatched)
              · refine (h.served.reread other hwatched).imp (hkept other) fun hanswered =>
                  hanswered.concat fun heq => ?_
                exact hother (WatchFact.notified.inj heq).symm }
        timed := ⟨htimed.entries, htimed.stored, htimed.check, htimed.scan, htimed.fresh⟩
        waiting := h.waiting
        asked := h.asked
        rescanned := h.rescanned.append [.notified path] (by simp) rfl rfl
        announced := h.announced.append [.notified path] (by simp [Differing]) rfl }
  have hignored : w.watches path = false → Sound w (s.fact (.notified path)) := by
    intro hwatches
    refine hnotified s.dirty (fun hwatched => ?_) (fun _ => Or.inl) (fun _ => id)
    rw [hwatches] at hwatched
    cases hwatched
  unfold SourceWatchMonitor.notify
  dsimp only
  split
  · rename_i hexcluded
    refine hignored ?_
    have hrunning : (s.fact (.notified path)).stopped = false := h.served.running
    rw [hrunning, Bool.false_or] at hexcluded
    simp [Watch.watches, hexcluded]
  · split
    · rename_i hforeign
      refine hignored ?_
      simp only [Bool.and_eq_true, Bool.not_eq_true'] at hforeign
      simp [Watch.watches, hforeign]
    · split
      · rename_i hpending
        refine hnotified (path :: s.dirty) (fun _ => List.mem_cons_self) ?_
          (fun _ => List.mem_cons_of_mem path)
        intro other hmem
        rcases List.mem_cons.1 hmem with rfl | hmem
        · exact Or.inr ⟨rfl, hpending⟩
        · exact Or.inl hmem
      · refine h.round (w.isSource path) [.notified path] (path :: s.pending) ?_ (by simp)
        intro other
        rw [List.mem_cons, or_comm]

theorem Sound.perform (h : Sound w s) {e : WatchEvent} (hcaught : Caught s e)
    (ht : s.perform w e = some t) : Sound w t := by
  cases e with
  | notify path =>
      cases ht
      exact h.notify hcaught
  | fire =>
      unfold SourceWatchMonitor.perform at ht
      dsimp only at ht
      split at ht
      · cases ht
        exact h.fire
      · cases ht
  | fileRead path entry =>
      unfold SourceWatchMonitor.perform at ht
      dsimp only at ht
      split at ht
      · rename_i source began compareHash hcheck
        cases ht
        have hbegan : began ≤ s.clock := h.timed.check path source _ hcheck
        refine h.setCheck source ?_ (by simp) ⟨hbegan, Nat.le_refl _, ?_⟩ (by simp)
        · rw [hcheck]
          rfl
        · exact Nat.le_trans (h.timed.stored path).1 (h.timed.stored path).2
      · cases ht
  | directoryRead path directory =>
      unfold SourceWatchMonitor.perform at ht
      dsimp only at ht
      split at ht
      · rename_i source hcheck
        cases ht
        refine h.setCheck source ?_ (by simp) trivial (by simp)
        rw [hcheck]
        rfl
      · cases ht
  | resume path =>
      obtain ⟨⟨source, stage⟩, hcheck, ht⟩ := Option.bind_eq_some_iff.1 ht
      exact h.checked hcheck ht
  | clear path =>
      unfold SourceWatchMonitor.perform at ht
      dsimp only at ht
      split at ht
      · rename_i source hcheck
        cases ht
        exact h.clear hcheck
      · cases ht
  | list path => exact h.scanningStep ht
  | listed => exact h.scanningStep ht
  | scanNext => exact h.scanningStep ht
  | scanRead path entry => exact h.scanningStep ht
  | snapshot =>
      unfold SourceWatchMonitor.perform at ht
      dsimp only at ht
      split at ht
      · rename_i scan joined chained hscanning
        split at ht
        · cases ht
          exact h.snapshot hscanning
        · cases ht
      · cases ht
  | nextRound =>
      unfold SourceWatchMonitor.perform at ht
      dsimp only at ht
      split at ht
      · rename_i joined chained hscanning
        cases ht
        exact h.nextRound hscanning
      · cases ht
  | scanCleared =>
      unfold SourceWatchMonitor.perform at ht
      dsimp only at ht
      split at ht
      · rename_i joined chained hscanning
        cases ht
        exact h.scanCleared hscanning
      · cases ht
  | honour =>
      unfold SourceWatchMonitor.perform at ht
      dsimp only at ht
      split at ht
      · rename_i requester queued hqueued
        cases ht
        exact h.honour hqueued
      · cases ht

/-! ### Nothing outstanding is stuck -/

/-- No check, scan or scan request is outstanding. -/
def Idle (s : SourceWatchMonitor) : Prop :=
  (∀ path, s.checks path = none) ∧ s.scanning = none ∧ s.queued = []

/-- The events that finish what is outstanding: reads that answer, and continuations. -/
def finishes : WatchEvent → Bool
  | .notify _ => false
  | .fire => false
  | .list _ => false
  | _ => true

theorem find?_inFlight {reads : List (Path × ℕ × Bool)} (h : reads ≠ []) :
    ∃ path read, reads.find? (fun read => read.1 = path) = some read := by
  cases reads with
  | nil => exact absurd rfl h
  | cons read reads => exact ⟨read.1, read, by simp⟩

/-- A running scan can go on. -/
theorem scanning_goesOn {scan : Scan} {joined chained : List Requester}
    (hscanning : s.scanning = some ⟨.scanning scan, joined, chained⟩) :
    ∃ e, finishes e = true ∧ (s.perform w e).isSome := by
  have hread : scan.inFlight ≠ [] → ∃ e, finishes e = true ∧ (s.perform w e).isSome := by
    intro hne
    obtain ⟨path, read, hfind⟩ := find?_inFlight hne
    refine ⟨.scanRead path none, rfl, ?_⟩
    simp [perform, scanningStep, hscanning, scanStep, hfind]
  cases hremaining : scan.remaining with
  | none => exact ⟨.listed, rfl, by simp [perform, scanningStep, hscanning, scanStep, hremaining]⟩
  | some remaining =>
      by_cases hne : scan.inFlight = []
      · cases remaining with
        | nil => exact ⟨.snapshot, rfl, by simp [perform, hscanning, hremaining, hne]⟩
        | cons path remaining =>
            refine ⟨.scanNext, rfl, ?_⟩
            simp [perform, scanningStep, hscanning, scanStep, hremaining, hne]
      · exact hread hne

theorem goesOn_of_sound (h : Sound w s) (hbusy : ¬ Idle s) :
    ∃ e, finishes e = true ∧ (s.perform w e).isSome := by
  cases hqueued : s.queued with
  | cons requester queued => exact ⟨.honour, rfl, by simp [perform, hqueued]⟩
  | nil =>
      cases hscanning : s.scanning with
      | some scanning =>
          obtain ⟨phase, joined, chained⟩ := scanning
          cases phase with
          | scanning scan => exact scanning_goesOn hscanning
          | reconciled => exact ⟨.nextRound, rfl, by simp [perform, hscanning]⟩
          | ended => exact ⟨.scanCleared, rfl, by simp [perform, hscanning]⟩
      | none =>
          have hcheck : ∃ path, s.checks path ≠ none := by
            by_contra hnone
            exact hbusy ⟨fun path => by_contra fun hpath => hnone ⟨path, hpath⟩, hscanning, hqueued⟩
          obtain ⟨path, hcheck⟩ := hcheck
          obtain ⟨⟨source, stage⟩, hcheck⟩ := Option.ne_none_iff_exists'.1 hcheck
          cases stage with
          | reading began compareHash => exact ⟨.fileRead path none, rfl, by simp [perform, hcheck]⟩
          | statting => exact ⟨.directoryRead path none, rfl, by simp [perform, hcheck]⟩
          | read o => exact ⟨.resume path, rfl, by simp [perform, hcheck, checked]⟩
          | statted directory =>
              refine ⟨.resume path, rfl, ?_⟩
              simp only [perform, hcheck, Option.bind_some, checked]
              split
              · rfl
              · rfl
          | reconciling =>
              -- it waits for a scan, or for nothing
              have hmem := (h.waiting path source hcheck).resolve_left (by simp)
              simp [requesters, hqueued, hscanning] at hmem
          | reconciled => exact ⟨.resume path, rfl, by simp [perform, hcheck, checked]⟩
          | ended => exact ⟨.clear path, rfl, by simp [perform, hcheck]⟩

/-! ### No change is lost -/

/-- What a watch promises, in a state. -/
structure LosesNoChange (w : Watch) (s : SourceWatchMonitor) : Prop where
  /-- After a notification a read of the path began, or the running check takes another round. -/
  reread : ∀ path, w.watches path = true →
    Answered (· = .notified path) (· = .readBegan path) s.facts ∨
      path ∈ s.dirty ∧ ∃ source stage, s.checks path = some ⟨source, stage⟩ ∧ stage ≠ .ended
  /-- After a notification that a directory moved a scan began, or one is outstanding. -/
  rescanned : ∀ path before after, s.facts = before ++ .notified path :: after →
    .moved path ∈ after → .scanBegan ∈ after ∨ s.scanRequested = true ∧ Outstanding s
  /-- A stored observation that differs from the one it replaces is announced. -/
  announced : ∀ before path previous current after,
    s.facts = before ++ .stored path previous current :: after →
    Replaces previous.entry current.entry → .changed ∈ after
  /-- No observation replaces one whose read began after its own had ended. -/
  fresh : ∀ path previous current, .stored path previous current ∈ s.facts →
    previous.began ≤ current.ended
  /-- The checkpoint holds what was stored last. -/
  stored : ∀ path, s.entries.get path = (s.checkpoint path).entry
  idle : Idle s → s.dirty = [] ∧ s.pending = []
  /-- What is outstanding can go on. -/
  goesOn : ¬ Idle s → ∃ e, finishes e = true ∧ (s.perform w e).isSome

theorem Sound.losesNoChange (h : Sound w s) : LosesNoChange w s where
  reread := by
    intro path hwatched
    rcases h.served.reread path hwatched with hdirty | hanswered
    · exact Or.inr ⟨hdirty, h.served.dirty path hdirty⟩
    · exact Or.inl hanswered
  rescanned := by
    intro path before after hfacts hmoved
    rcases h.rescanned with hrequested | hanswered
    · exact Or.inr ⟨hrequested, h.asked hrequested⟩
    · obtain ⟨mid, rest, hafter⟩ := List.append_of_mem hmoved
      have hsplit : s.facts = (before ++ .notified path :: mid) ++ .moved path :: rest := by
        rw [hfacts, hafter, List.append_assoc, List.cons_append]
      obtain ⟨answer, hmem, rfl⟩ := hanswered _ _ _ hsplit ⟨path, rfl⟩
      refine Or.inl ?_
      rw [hafter]
      exact List.mem_append_right _ (List.mem_cons_of_mem _ hmem)
  announced := by
    intro before path previous current after hfacts hreplaces
    obtain ⟨answer, hmem, rfl⟩ := h.announced before _ after hfacts hreplaces
    exact hmem
  fresh := h.timed.fresh
  stored := fun path => (h.timed.entries path).symm
  idle := by
    rintro ⟨hchecks, -, -⟩
    constructor
    · refine List.eq_nil_iff_forall_not_mem.2 fun path hdirty => ?_
      obtain ⟨source, stage, hcheck, -⟩ := h.served.dirty path hdirty
      rw [hchecks path] at hcheck
      cases hcheck
    · refine List.eq_nil_iff_forall_not_mem.2 fun path hpending => ?_
      have hsome := (h.served.pending_iff path).1 hpending
      rw [hchecks path] at hsome
      cases hsome
  goesOn := goesOn_of_sound h

/-- In a run without a notification between the end of a check's loop and its `finally`, a
watch loses no change. -/
theorem loses_no_change {w : Watch} {entries : InsertionMap Path SourceWatchEntry}
    {events : List WatchEvent} {s : SourceWatchMonitor}
    (hcaught : (monitor w entries).Within Caught (monitor w entries).init events)
    (hrun : (monitor w entries).exec (monitor w entries).init events = some s) :
    LosesNoChange w s := by
  refine Sound.losesNoChange ((monitor w entries).exec_preserves (C := Caught) ?_
    (sound_started w entries) hcaught hrun)
  intro s e t hs hC ht
  obtain ⟨t', ht', rfl⟩ := Option.map_eq_some_iff.1 ht
  exact (hs.perform hC ht').tick

/-- A watch of `/r` without external files and without the fallback timer. -/
def plainWatch : Watch where
  root := ['/', 'r']
  sep := '/'
  externalFiles := []
  excluded := fun _ => false
  interval := 0

/-- A source file of `plainWatch`. -/
def watchedFile : Path := ['/', 'r', '/', 'a', '.', 't', 's']

/-- A file is notified twice, the second time while its first check is waiting for the read. -/
def coalesced : List WatchEvent :=
  [.notify watchedFile, .notify watchedFile, .fileRead watchedFile (some ⟨"1", none⟩),
    .resume watchedFile, .fileRead watchedFile (some ⟨"2", none⟩), .resume watchedFile,
    .clear watchedFile]

theorem loses_no_change_coalesced :
    ∃ s, (monitor plainWatch .empty).exec (monitor plainWatch .empty).init coalesced = some s ∧
      LosesNoChange plainWatch s :=
  ⟨_, rfl, @loses_no_change plainWatch .empty coalesced _ (by decide) rfl⟩

/-- A file is notified again after its check has left the loop. -/
def overtaken : List WatchEvent :=
  [.notify watchedFile, .fileRead watchedFile none, .resume watchedFile, .notify watchedFile,
    .clear watchedFile]

/-- The second notification is lost: nothing is outstanding, and no read follows it. -/
theorem loses_change :
    ¬ ∀ events s,
      (monitor plainWatch .empty).exec (monitor plainWatch .empty).init events = some s →
      LosesNoChange plainWatch s := by
  intro h
  have hlost := h overtaken _ rfl
  rcases hlost.reread watchedFile (by decide) with hanswered | ⟨-, source, stage, hcheck, -⟩
  · have hread := hanswered [.notified watchedFile, .readBegan watchedFile,
      .stored watchedFile ⟨none, 0, 0⟩ ⟨none, 0, 1⟩] (.notified watchedFile) [] rfl rfl
    simp at hread
  · cases hcheck

end Arc.ProxyGenerator.SourceWatchMonitor
