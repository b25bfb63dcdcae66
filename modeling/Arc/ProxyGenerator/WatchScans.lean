import Arc.Foundation.History
import Arc.ProxyGenerator.SourceWatchMonitor

/-!
# Scans of a source watch

What has to hold between two steps of a watch, part by part: the times of its observations,
its notifications, its scan requests and its announcements. A scan touches neither the checks
nor the checkpoint before its snapshot is complete (`Aside`), a scan that was asked for begins,
and what a scan holds was read after it began.
-/

namespace Arc.ProxyGenerator.SourceWatchMonitor

open History

variable {w : Watch} {s t u : SourceWatchMonitor}

/-! ### Times -/

/-- A check that waits for a read, or holds its outcome, knows when it asked for it. -/
def CheckTimed (clock : ℕ) (stored : Observation) : CheckStage → Prop
  | .reading began _ => began ≤ clock
  | .read o => o.began ≤ o.ended ∧ o.ended ≤ clock ∧ stored.began ≤ o.ended
  | _ => True

/-- What a scan holds was read after it began, and what was stored since was told to it. -/
structure ScanTimed (clock : ℕ) (checkpoint : Path → Observation) (scan : Scan) : Prop where
  began : scan.began ≤ clock
  stored : ∀ path, path ∉ scan.duringScan → (checkpoint path).began ≤ scan.began
  inFlight : ∀ read ∈ scan.inFlight, scan.began ≤ read.2.1 ∧ read.2.1 ≤ clock
  snapshot : ∀ path o, scan.snapshot.get path = some o →
    scan.began ≤ o.began ∧ o.began ≤ o.ended ∧ o.ended ≤ clock

/-- The times of the observations that are held or were stored. -/
structure Timed (s : SourceWatchMonitor) : Prop where
  entries : ∀ path, (s.checkpoint path).entry = s.entries.get path
  stored : ∀ path, (s.checkpoint path).began ≤ (s.checkpoint path).ended ∧
    (s.checkpoint path).ended ≤ s.clock
  check : ∀ path source stage, s.checks path = some ⟨source, stage⟩ →
    CheckTimed s.clock (s.checkpoint path) stage
  scan : ∀ scan joined chained, s.scanning = some ⟨.scanning scan, joined, chained⟩ →
    ScanTimed s.clock s.checkpoint scan
  fresh : ∀ path previous current, .stored path previous current ∈ s.facts →
    previous.began ≤ current.ended

theorem CheckTimed.mono {clock clock' : ℕ} (hle : clock ≤ clock') {stored : Observation}
    {stage : CheckStage} (h : CheckTimed clock stored stage) :
    CheckTimed clock' stored stage := by
  cases stage with
  | reading began compareHash => exact Nat.le_trans h hle
  | read o => exact ⟨h.1, Nat.le_trans h.2.1 hle, h.2.2⟩
  | statting => trivial
  | statted directory => trivial
  | reconciling => trivial
  | reconciled => trivial
  | ended => trivial

theorem ScanTimed.mono {clock clock' : ℕ} (hle : clock ≤ clock')
    {checkpoint : Path → Observation} {scan : Scan} (h : ScanTimed clock checkpoint scan) :
    ScanTimed clock' checkpoint scan where
  began := Nat.le_trans h.began hle
  stored := h.stored
  inFlight := fun read hread =>
    ⟨(h.inFlight read hread).1, Nat.le_trans (h.inFlight read hread).2 hle⟩
  snapshot := fun path o ho =>
    ⟨(h.snapshot path o ho).1, (h.snapshot path o ho).2.1,
      Nat.le_trans (h.snapshot path o ho).2.2 hle⟩

theorem Timed.tick (h : Timed s) : Timed s.tick where
  entries := h.entries
  stored := fun path => ⟨(h.stored path).1, Nat.le_trans (h.stored path).2 (Nat.le_succ _)⟩
  check := fun path source stage hcheck => (h.check path source stage hcheck).mono (Nat.le_succ _)
  scan := fun scan joined chained hscan =>
    (h.scan scan joined chained hscan).mono (Nat.le_succ _)
  fresh := h.fresh

/-! ### Notifications -/

/-- Every path that is watched was read since its last notification, or is marked dirty. -/
structure Served (w : Watch) (s : SourceWatchMonitor) : Prop where
  running : s.stopped = false
  pending_iff : ∀ path, path ∈ s.pending ↔ (s.checks path).isSome
  dirty : ∀ path ∈ s.dirty, ∃ source stage, s.checks path = some ⟨source, stage⟩ ∧
    stage ≠ .ended
  reread : ∀ path, w.watches path = true → path ∈ s.dirty ∨
    Answered (· = .notified path) (· = .readBegan path) s.facts

/-! ### Scan requests -/

/-- Those who wait for a scan, or whose wait is over. -/
def requesters (s : SourceWatchMonitor) : List Requester :=
  s.queued ++ match s.scanning with
    | some scanning => scanning.joined ++ scanning.chained
    | none => []

/-- Somebody will look at `scanRequested`. -/
def Outstanding (s : SourceWatchMonitor) : Prop :=
  s.queued ≠ [] ∨ ∃ scanning, s.scanning = some scanning ∧
    (scanning.phase = .ended → scanning.chained ≠ [])

/-- Every check that waits for a scan is known, apart from `extra`. -/
def Waiting (s : SourceWatchMonitor) (extra : List Requester) : Prop :=
  ∀ path source, s.checks path = some ⟨source, .reconciling⟩ →
    some path ∈ extra ∨ some path ∈ s.requesters

/-- A requested scan is outstanding. -/
def Asked (s : SourceWatchMonitor) : Prop := s.scanRequested = true → Outstanding s

/-- After every directory that moved a scan began, or one is requested. -/
def Rescanned (s : SourceWatchMonitor) : Prop :=
  s.scanRequested = true ∨
    Answered (fun f => ∃ path, f = .moved path) (· = .scanBegan) s.facts

/-! ### Changes -/

/-- An observation that is not the one it replaces: another signature, or another hash. -/
def Replaces (previous current : Option SourceWatchEntry) : Prop :=
  previous ≠ current ∧ ¬ ∃ e e', previous = some e ∧ current = some e' ∧
    e.signature = e'.signature ∧ (e.hash = none ∨ e'.hash = none)

theorem replaces_iff (previous current : Option SourceWatchEntry) :
    Replaces previous current ↔ differs previous current = true := by
  unfold Replaces differs
  rcases previous with _ | ⟨signature, hash⟩
  · rcases current with _ | ⟨signature', hash'⟩
    · simp
    · simp
  · rcases current with _ | ⟨signature', hash'⟩
    · simp
    · by_cases hsignature : signature = signature'
      · subst hsignature
        cases hash with
        | none => simp
        | some h =>
            cases hash' with
            | none => simp
            | some h' => simp
      · simp [hsignature]

/-- The stored observations that differ from the one before them. -/
def Differing : WatchFact → Prop
  | .stored _ previous current => Replaces previous.entry current.entry
  | _ => False

/-- Every change that was stored was announced. -/
def Announced (s : SourceWatchMonitor) : Prop := Answered Differing (· = .changed) s.facts

/-! ### What scans leave alone -/

/-- `t` is `s` with another state of the scans. -/
structure Aside (s t : SourceWatchMonitor) : Prop where
  entries : t.entries = s.entries
  pending : t.pending = s.pending
  dirty : t.dirty = s.dirty
  stopped : t.stopped = s.stopped
  clock : t.clock = s.clock
  checkpoint : t.checkpoint = s.checkpoint
  checks : ∀ path, t.checks path = s.checks path ∨
    ∃ source, s.checks path = some ⟨source, .reconciling⟩ ∧
      t.checks path = some ⟨source, .reconciled⟩
  facts : ∃ later, t.facts = s.facts ++ later ∧
    ∀ f ∈ later, f = .scanBegan ∨ ∃ path, f = .readBegan path

namespace Aside

theorem refl (s : SourceWatchMonitor) : Aside s s :=
  ⟨rfl, rfl, rfl, rfl, rfl, rfl, fun _ => Or.inl rfl, [], by simp⟩

theorem trans (h : Aside s t) (h' : Aside t u) : Aside s u where
  entries := h'.entries.trans h.entries
  pending := h'.pending.trans h.pending
  dirty := h'.dirty.trans h.dirty
  stopped := h'.stopped.trans h.stopped
  clock := h'.clock.trans h.clock
  checkpoint := h'.checkpoint.trans h.checkpoint
  checks := by
    intro path
    rcases h'.checks path with hsame | ⟨source, hwait, hover⟩
    · rw [hsame]
      exact h.checks path
    · rcases h.checks path with hsame | ⟨source', -, hover'⟩
      · exact Or.inr ⟨source, hsame ▸ hwait, hover⟩
      · rw [hwait] at hover'
        cases hover'
  facts := by
    obtain ⟨later, hlater, hscan⟩ := h.facts
    obtain ⟨later', hlater', hscan'⟩ := h'.facts
    refine ⟨later ++ later', by rw [hlater', hlater, List.append_assoc], ?_⟩
    intro f hf
    rcases List.mem_append.1 hf with hf | hf
    · exact hscan f hf
    · exact hscan' f hf

theorem isSome_checks (h : Aside s t) (path : Path) :
    (t.checks path).isSome = (s.checks path).isSome := by
  rcases h.checks path with hsame | ⟨source, hwait, hover⟩
  · rw [hsame]
  · rw [hwait, hover]
    rfl

/-- A scan neither notifies nor answers less. -/
theorem served (h : Aside s t) (hs : Served w s) : Served w t where
  running := h.stopped.trans hs.running
  pending_iff := by
    intro path
    rw [h.pending, h.isSome_checks path]
    exact hs.pending_iff path
  dirty := by
    intro path hpath
    rw [h.dirty] at hpath
    obtain ⟨source, stage, hcheck, hstage⟩ := hs.dirty path hpath
    rcases h.checks path with hsame | ⟨source', -, hover⟩
    · exact ⟨source, stage, hsame.trans hcheck, hstage⟩
    · exact ⟨source', .reconciled, hover, by simp⟩
  reread := by
    intro path hpath
    obtain ⟨later, hlater, hscan⟩ := h.facts
    rw [h.dirty, hlater]
    refine (hs.reread path hpath).imp_right fun hanswered => hanswered.append ?_
    intro f hf heq
    rcases hscan f hf with rfl | ⟨path', rfl⟩
    · cases heq
    · cases heq

theorem announced (h : Aside s t) (hs : Announced s) : Announced t := by
  obtain ⟨later, hlater, hscan⟩ := h.facts
  unfold Announced
  rw [hlater]
  refine Answered.append hs ?_
  intro f hf hdiffering
  rcases hscan f hf with rfl | ⟨path', rfl⟩
  · exact hdiffering
  · exact hdiffering

theorem timed (h : Aside s t) (hs : Timed s)
    (hscan : ∀ scan joined chained, t.scanning = some ⟨.scanning scan, joined, chained⟩ →
      ScanTimed s.clock s.checkpoint scan) : Timed t where
  entries := by
    rw [h.checkpoint, h.entries]
    exact hs.entries
  stored := by
    rw [h.checkpoint, h.clock]
    exact hs.stored
  check := by
    intro path source stage hcheck
    rw [h.checkpoint, h.clock]
    rcases h.checks path with hsame | ⟨source', -, hover⟩
    · exact hs.check path source stage (hsame ▸ hcheck)
    · rw [hover] at hcheck
      cases hcheck
      trivial
  scan := by
    rw [h.checkpoint, h.clock]
    exact hscan
  fresh := by
    intro path previous current hmem
    obtain ⟨later, hlater, hlook⟩ := h.facts
    rw [hlater] at hmem
    rcases List.mem_append.1 hmem with hmem | hmem
    · exact hs.fresh path previous current hmem
    · rcases hlook _ hmem with heq | ⟨path', heq⟩
      · cases heq
      · cases heq

theorem settle (s : SourceWatchMonitor) (requester : Requester) :
    Aside s (s.settle requester) := by
  unfold SourceWatchMonitor.settle
  split
  · exact refl s
  · rename_i path
    split
    · rename_i source hwait
      refine ⟨rfl, rfl, rfl, rfl, rfl, rfl, ?_, [], by simp [setCheck]⟩
      intro other
      by_cases hpath : other = path
      · subst hpath
        exact Or.inr ⟨source, hwait, by simp [setCheck]⟩
      · exact Or.inl (by simp [setCheck, hpath])
    · exact refl s

theorem requestReconcile (s : SourceWatchMonitor) (requester : Requester) :
    Aside s (s.requestReconcile w requester) := by
  unfold SourceWatchMonitor.requestReconcile
  split
  · exact settle s requester
  · dsimp only
    split
    · exact ⟨rfl, rfl, rfl, rfl, rfl, rfl, fun _ => Or.inl rfl, [], by simp⟩
    · exact ⟨rfl, rfl, rfl, rfl, rfl, rfl, fun _ => Or.inl rfl, [.scanBegan], rfl, by simp⟩

theorem honour (s : SourceWatchMonitor) (requester : Requester) :
    Aside s (s.honour w requester) := by
  unfold SourceWatchMonitor.honour
  split
  · exact requestReconcile s requester
  · split
    · exact ⟨rfl, rfl, rfl, rfl, rfl, rfl, fun _ => Or.inl rfl, [], by simp⟩
    · exact settle s requester

theorem nextRound (s : SourceWatchMonitor) (scanning : Scanning) :
    Aside s (s.nextRound w scanning) := by
  unfold SourceWatchMonitor.nextRound
  split
  · exact ⟨rfl, rfl, rfl, rfl, rfl, rfl, fun _ => Or.inl rfl, [.scanBegan], rfl, by simp⟩
  · exact ⟨rfl, rfl, rfl, rfl, rfl, rfl, fun _ => Or.inl rfl, [], by simp⟩

/-- What a scan adds to the facts is the beginning of a read. -/
theorem scanStep_facts {scan : Scan} {e : WatchEvent} {next : Scan × List WatchFact}
    (h : s.scanStep w scan e = some next) :
    ∀ f ∈ next.2, f = .scanBegan ∨ ∃ path, f = .readBegan path := by
  unfold scanStep at h
  split at h
  · split at h
    · cases h
      simp
    · cases h
  · split at h
    · cases h
      simp
    · cases h
  · split at h
    · split at h
      · cases h
        simp
      · cases h
    · cases h
  · split at h
    · cases h
      simp
    · cases h
  · cases h

theorem scanningStep {e : WatchEvent} (h : s.scanningStep w e = some t) : Aside s t := by
  unfold SourceWatchMonitor.scanningStep at h
  split at h
  · obtain ⟨next, hnext, rfl⟩ := Option.map_eq_some_iff.1 h
    exact ⟨rfl, rfl, rfl, rfl, rfl, rfl, fun _ => Or.inl rfl, next.2, rfl, scanStep_facts hnext⟩
  · cases h

/-- The `finally` of a scan, for those who joined it. -/
theorem foldl_settle (s : SourceWatchMonitor) (joined : List Requester) :
    Aside s (joined.foldl SourceWatchMonitor.settle s) := by
  induction joined generalizing s with
  | nil => exact refl s
  | cons requester joined ih => exact (settle s requester).trans (ih (s.settle requester))

end Aside

/-! ### Scan requests are not lost -/

/-- A settled promise changes nothing but the check that waits for it. -/
theorem settle_frame (s : SourceWatchMonitor) (requester : Requester) :
    (s.settle requester).scanning = s.scanning ∧
      (s.settle requester).scanRequested = s.scanRequested ∧
      (s.settle requester).queued = s.queued ∧ (s.settle requester).facts = s.facts := by
  unfold settle
  split
  · exact ⟨rfl, rfl, rfl, rfl⟩
  · split
    · exact ⟨rfl, rfl, rfl, rfl⟩
    · exact ⟨rfl, rfl, rfl, rfl⟩

theorem Waiting.settle {requester : Requester} {extra : List Requester}
    (h : Waiting s (requester :: extra)) : Waiting (s.settle requester) extra := by
  intro path source hcheck
  obtain ⟨hscanning, -, hqueued, -⟩ := settle_frame s requester
  have hrequesters : (s.settle requester).requesters = s.requesters := by
    unfold requesters
    rw [hscanning, hqueued]
  rw [hrequesters]
  rcases (Aside.settle s requester).checks path with hsame | ⟨source', -, hover⟩
  · rw [hsame] at hcheck
    rcases h path source hcheck with hmem | hmem
    · rcases List.mem_cons.1 hmem with rfl | hmem
      · -- the check of the requester is no longer waiting
        unfold SourceWatchMonitor.settle at hsame
        simp only [hcheck] at hsame
        simp [setCheck] at hsame
      · exact Or.inl hmem
    · exact Or.inr hmem
  · rw [hover] at hcheck
    cases hcheck

theorem Waiting.foldl_settle {joined : List Requester} (h : Waiting s joined) :
    Waiting (joined.foldl SourceWatchMonitor.settle s) [] := by
  induction joined generalizing s with
  | nil => exact h
  | cons requester joined ih => exact ih h.settle

theorem foldl_settle_frame (s : SourceWatchMonitor) (joined : List Requester) :
    (joined.foldl settle s).scanning = s.scanning ∧
      (joined.foldl settle s).scanRequested = s.scanRequested ∧
      (joined.foldl settle s).queued = s.queued ∧ (joined.foldl settle s).facts = s.facts := by
  induction joined generalizing s with
  | nil => exact ⟨rfl, rfl, rfl, rfl⟩
  | cons requester joined ih =>
      obtain ⟨hscanning, hrequested, hqueued, hfacts⟩ := settle_frame s requester
      obtain ⟨hscanning', hrequested', hqueued', hfacts'⟩ := ih (s.settle requester)
      exact ⟨hscanning'.trans hscanning, hrequested'.trans hrequested, hqueued'.trans hqueued,
        hfacts'.trans hfacts⟩

theorem Waiting.requestReconcile {requester : Requester} (hrunning : s.stopped = false)
    (h : Waiting s [requester]) : Waiting (s.requestReconcile w requester) [] := by
  intro path source hcheck
  unfold SourceWatchMonitor.requestReconcile at hcheck ⊢
  rw [if_neg (by simp [hrunning])] at hcheck ⊢
  dsimp only at hcheck ⊢
  cases hscanning : s.scanning with
  | some scanning =>
      rw [hscanning] at hcheck
      have hmem := h path source hcheck
      simp only [requesters, hscanning, List.mem_append, List.mem_singleton] at hmem ⊢
      tauto
  | none =>
      rw [hscanning] at hcheck
      have hmem := h path source hcheck
      simp only [requesters, hscanning, List.mem_append, List.mem_singleton] at hmem ⊢
      simp at hmem ⊢
      tauto

theorem asked_requestReconcile (hrunning : s.stopped = false) (requester : Requester) :
    Asked (s.requestReconcile w requester) := by
  unfold Asked SourceWatchMonitor.requestReconcile
  rw [if_neg (by simp [hrunning])]
  dsimp only
  cases hscanning : s.scanning with
  | some scanning => exact fun _ => Or.inr ⟨_, rfl, fun _ => by simp⟩
  | none => simp

theorem rescanned_requestReconcile (hrunning : s.stopped = false) (requester : Requester) :
    Rescanned (s.requestReconcile w requester) := by
  unfold Rescanned SourceWatchMonitor.requestReconcile
  rw [if_neg (by simp [hrunning])]
  dsimp only
  cases hscanning : s.scanning with
  | some scanning => exact Or.inl rfl
  | none => exact Or.inr (answered_of_answer rfl (by simp))

theorem Waiting.honour {requester : Requester} (hrunning : s.stopped = false)
    (h : Waiting s [requester]) : Waiting (s.honour w requester) [] := by
  unfold SourceWatchMonitor.honour
  split
  · exact h.requestReconcile hrunning
  · cases hscanning : s.scanning with
    | some scanning =>
        intro path source hcheck
        have hmem := h path source hcheck
        simp only [requesters, hscanning, List.mem_append, List.mem_singleton] at hmem ⊢
        tauto
    | none => exact h.settle

theorem asked_honour (hrunning : s.stopped = false) (requester : Requester) :
    Asked (s.honour w requester) := by
  unfold SourceWatchMonitor.honour
  split
  · exact asked_requestReconcile hrunning requester
  · rename_i hnot
    cases hscanning : s.scanning with
    | some scanning => exact fun hrequested => absurd hrequested hnot
    | none =>
        intro hrequested
        dsimp only at hrequested
        rw [(settle_frame s requester).2.1] at hrequested
        exact absurd hrequested hnot

theorem rescanned_honour (hrunning : s.stopped = false) (h : Rescanned s)
    (requester : Requester) : Rescanned (s.honour w requester) := by
  unfold SourceWatchMonitor.honour
  split
  · exact rescanned_requestReconcile hrunning requester
  · cases hscanning : s.scanning with
    | some scanning => exact h
    | none =>
        obtain ⟨-, hrequested, -, hfacts⟩ := settle_frame s requester
        unfold Rescanned
        dsimp only
        rw [hrequested, hfacts]
        exact h

theorem Waiting.nextRound {scanning : Scanning} (h : Waiting s [])
    (hscanning : s.scanning = some scanning) : Waiting (s.nextRound w scanning) [] := by
  intro path source hcheck
  unfold SourceWatchMonitor.nextRound at hcheck ⊢
  split at hcheck
  · rename_i hround
    have hmem := h path source hcheck
    rw [if_pos hround]
    simpa [requesters, hscanning] using hmem
  · rename_i hround
    have hmem := h path source hcheck
    rw [if_neg hround]
    simpa [requesters, hscanning] using hmem

/-- The loop ends only when nothing is requested. -/
theorem asked_nextRound (hrunning : s.stopped = false) (scanning : Scanning) :
    Asked (s.nextRound w scanning) := by
  unfold SourceWatchMonitor.nextRound
  split
  · intro hrequested
    cases hrequested
  · rename_i hround
    intro hrequested
    dsimp only at hrequested
    simp [hrequested, hrunning] at hround

theorem rescanned_nextRound (h : Rescanned s) (scanning : Scanning) :
    Rescanned (s.nextRound w scanning) := by
  unfold SourceWatchMonitor.nextRound
  split
  · exact Or.inr (answered_of_answer rfl (by simp))
  · exact h

/-- What a running scan does next leaves requests as they are. -/
theorem scanningStep_frame {e : WatchEvent} (h : s.scanningStep w e = some t) :
    t.requesters = s.requesters ∧ t.scanRequested = s.scanRequested ∧ t.queued = s.queued ∧
      ∃ scan scan' joined chained, s.scanning = some ⟨.scanning scan, joined, chained⟩ ∧
        t.scanning = some ⟨.scanning scan', joined, chained⟩ := by
  unfold scanningStep at h
  split at h
  · rename_i scan joined chained hscanning
    obtain ⟨next, -, rfl⟩ := Option.map_eq_some_iff.1 h
    exact ⟨by simp [requesters, hscanning], rfl, rfl, scan, next.1, joined, chained, hscanning, rfl⟩
  · cases h

/-! ### The times of a scan -/

theorem Timed.beginScan (h : Timed s) {scan : Scan} (hscan : s.beginScan w = .scanning scan) :
    ScanTimed s.clock s.checkpoint scan := by
  unfold SourceWatchMonitor.beginScan at hscan
  obtain rfl := ScanPhase.scanning.inj hscan
  exact
    { began := Nat.le_refl _
      stored := fun path _ => Nat.le_trans (h.stored path).1 (h.stored path).2
      inFlight := by simp
      snapshot := by simp }

theorem Timed.settle (h : Timed s) (requester : Requester) : Timed (s.settle requester) := by
  refine (Aside.settle s requester).timed h ?_
  rw [(settle_frame s requester).1]
  exact h.scan

theorem Timed.foldl_settle (h : Timed s) (joined : List Requester) :
    Timed (joined.foldl SourceWatchMonitor.settle s) := by
  refine (Aside.foldl_settle s joined).timed h ?_
  rw [(foldl_settle_frame s joined).1]
  exact h.scan

theorem Timed.requestReconcile (h : Timed s) (requester : Requester) :
    Timed (s.requestReconcile w requester) := by
  by_cases hstopped : s.stopped
  · unfold SourceWatchMonitor.requestReconcile
    rw [if_pos hstopped]
    exact h.settle requester
  · refine (Aside.requestReconcile s requester).timed h ?_
    intro scan joined chained hscan
    unfold SourceWatchMonitor.requestReconcile at hscan
    rw [if_neg hstopped] at hscan
    dsimp only at hscan
    cases hscanning : s.scanning with
    | some scanning =>
        rw [hscanning] at hscan
        obtain ⟨phase, joined', chained'⟩ := scanning
        obtain ⟨rfl, -, -⟩ := Scanning.mk.inj (Option.some.inj hscan)
        exact h.scan scan joined' chained' hscanning
    | none =>
        rw [hscanning] at hscan
        obtain ⟨hbegin, -, -⟩ := Scanning.mk.inj (Option.some.inj hscan)
        exact h.beginScan (w := w) hbegin

theorem Timed.honour (h : Timed s) (requester : Requester) : Timed (s.honour w requester) := by
  unfold SourceWatchMonitor.honour
  split
  · exact h.requestReconcile requester
  · cases hscanning : s.scanning with
    | some scanning =>
        refine ⟨h.entries, h.stored, h.check, ?_, h.fresh⟩
        intro scan joined chained hscan
        obtain ⟨phase, joined', chained'⟩ := scanning
        obtain ⟨rfl, -, -⟩ := Scanning.mk.inj (Option.some.inj hscan)
        exact h.scan scan joined' chained' hscanning
    | none => exact h.settle requester

theorem Timed.nextRound (h : Timed s) (scanning : Scanning) :
    Timed (s.nextRound w scanning) := by
  refine (Aside.nextRound s scanning).timed h ?_
  intro scan joined chained hscan
  unfold SourceWatchMonitor.nextRound at hscan
  split at hscan
  · obtain ⟨hbegin, -, -⟩ := Scanning.mk.inj (Option.some.inj hscan)
    exact h.beginScan (w := w) hbegin
  · obtain ⟨hended, -, -⟩ := Scanning.mk.inj (Option.some.inj hscan)
    cases hended

/-- A scan reads no earlier than it began, and notes when. -/
theorem ScanTimed.step {scan : Scan} (hscan : ScanTimed s.clock s.checkpoint scan)
    {e : WatchEvent} {next : Scan × List WatchFact} (hnext : s.scanStep w scan e = some next) :
    ScanTimed s.clock s.checkpoint next.1 := by
  unfold SourceWatchMonitor.scanStep at hnext
  split at hnext
  · split at hnext
    · cases hnext
      exact ⟨hscan.began, hscan.stored, hscan.inFlight, hscan.snapshot⟩
    · cases hnext
  · split at hnext
    · cases hnext
      exact ⟨hscan.began, hscan.stored, hscan.inFlight, hscan.snapshot⟩
    · cases hnext
  · split at hnext
    · split at hnext
      · cases hnext
        refine ⟨hscan.began, hscan.stored, ?_, hscan.snapshot⟩
        intro read hread
        rcases List.mem_append.1 hread with hread | hread
        · exact hscan.inFlight read hread
        · obtain rfl := List.mem_singleton.1 hread
          exact ⟨hscan.began, Nat.le_refl _⟩
      · cases hnext
    · cases hnext
  · rename_i path entry
    split at hnext
    · rename_i read hread
      cases hnext
      have htimed := hscan.inFlight read (List.mem_of_find?_eq_some hread)
      refine ⟨hscan.began, hscan.stored, fun read hmem =>
        hscan.inFlight read (List.mem_of_mem_filter hmem), ?_⟩
      intro other o ho
      cases entry with
      | none => exact hscan.snapshot other o ho
      | some entry =>
          dsimp only at ho
          by_cases hother : other = path
          · subst hother
            rw [InsertionMap.get_set_self] at ho
            obtain rfl := Option.some.inj ho
            exact ⟨htimed.1, htimed.2, Nat.le_refl _⟩
          · rw [InsertionMap.get_set_of_ne _ _ hother] at ho
            exact hscan.snapshot other o ho
    · cases hnext
  · cases hnext

theorem Timed.scanningStep (h : Timed s) {e : WatchEvent} (ht : s.scanningStep w e = some t) :
    Timed t := by
  refine (Aside.scanningStep ht).timed h ?_
  unfold SourceWatchMonitor.scanningStep at ht
  split at ht
  · rename_i scan joined chained hscanning
    obtain ⟨next, hnext, rfl⟩ := Option.map_eq_some_iff.1 ht
    intro scan' joined' chained' hscan
    obtain ⟨hphase, -, -⟩ := Scanning.mk.inj (Option.some.inj hscan)
    obtain rfl := ScanPhase.scanning.inj hphase
    exact (h.scan scan joined chained hscanning).step hnext
  · cases ht

end Arc.ProxyGenerator.SourceWatchMonitor
