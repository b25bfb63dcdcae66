import Arc.Drizzle.DrizzleObservationSession

/-!
# A session delivers the latest snapshot

Three invariants of a session, each about the fields it names: `Pumping`, that the runs of
`pump` are the one its promise stands for; `Closing`, that closing releases the lease and
ends the subscriber's values; and `Fresh`, that whatever is neither dirty nor being read
again is as recent as the last notification.
-/

namespace Arc.Drizzle.DrizzleObservationSession

variable {T : Type*}

/-! ### At most one run of `pump` -/

/-- The active run of `pump` is the one behind `pumpPromise`. -/
structure Pumping (running : Bool) (promise : Option ℕ) (pumps : List (Pump T))
    (hasValue : Bool) : Prop where
  running : running = promise.isSome
  promised : ∀ p, promise = some p → ∃ pump, pumps[p]? = some pump ∧ pump.active = true
  single : ∀ p pump, pumps[p]? = some pump → pump.active = true → promise = some p
  valued : promise.isSome = true → hasValue = true

namespace Pumping

variable {running hasValue : Bool} {promise : Option ℕ} {pumps : List (Pump T)} {p : ℕ}

theorem lt (h : Pumping running promise pumps hasValue) (hp : promise = some p) :
    p < pumps.length := by
  obtain ⟨pump, hpump, -⟩ := h.promised p hp
  exact (List.getElem?_eq_some_iff.1 hpump).1

theorem set (h : Pumping running promise pumps hasValue) (hp : promise = some p)
    {pump : Pump T} (hactive : pump.active = true) :
    Pumping running promise (pumps.set p pump) hasValue := by
  refine ⟨h.running, ?_, ?_, h.valued⟩
  · intro q hq
    obtain rfl := Option.some.inj (hp.symm.trans hq)
    exact ⟨pump, List.getElem?_set_self (h.lt hp), hactive⟩
  · intro q pump' hq hactive
    by_cases hqp : q = p
    · exact hqp ▸ hp
    · rw [List.getElem?_set_ne (Ne.symm hqp)] at hq
      exact h.single q pump' hq hactive

theorem finish (h : Pumping running promise pumps hasValue) (hp : promise = some p) :
    Pumping false none (pumps.set p .done) hasValue := by
  refine ⟨rfl, fun q hq => by simp at hq, ?_, fun hsome => by simp at hsome⟩
  intro q pump hq hactive
  by_cases hqp : q = p
  · subst hqp
    rw [List.getElem?_set_self (h.lt hp)] at hq
    obtain rfl := Option.some.inj hq
    cases hactive
  · rw [List.getElem?_set_ne (Ne.symm hqp)] at hq
    have hother := h.single q pump hq hactive
    rw [hp] at hother
    exact absurd (Option.some.inj hother).symm hqp

theorem start (h : Pumping running none pumps hasValue) (hv : hasValue = true)
    {pump : Pump T} (hactive : pump.active = true) :
    Pumping true (some pumps.length) (pumps ++ [pump]) hasValue := by
  refine ⟨rfl, ?_, ?_, fun _ => hv⟩
  · intro q hq
    obtain rfl := Option.some.inj hq
    exact ⟨pump, by simp, hactive⟩
  · intro q pump' hq hactive
    rcases Nat.lt_trichotomy q pumps.length with hlt | rfl | hgt
    · rw [List.getElem?_append_left hlt] at hq
      cases h.single q pump' hq hactive
    · rfl
    · rw [List.getElem?_eq_none (by simp; omega)] at hq
      cases hq

theorem value (h : Pumping running promise pumps hasValue) :
    Pumping running promise pumps true :=
  ⟨h.running, h.promised, h.single, fun _ => rfl⟩

/-- Any other run has ended. -/
theorem done_of_ne (h : Pumping running promise pumps hasValue) (hp : promise = some p)
    {q : ℕ} {pump : Pump T} (hq : pumps[q]? = some pump) (hne : q ≠ p) :
    pump.active = false := by
  cases hactive : pump.active with
  | false => rfl
  | true =>
      have hother := h.single q pump hq hactive
      rw [hp] at hother
      exact absurd (Option.some.inj hother).symm hne

end Pumping

/-! ### Closing -/

namespace Ownership

theorem onCloses_release {o : Ownership} (h : o.onCloses = o.released.toNat) :
    o.release.onCloses = o.release.released.toNat := by
  rw [Ownership.release]
  split_ifs with hr
  · exact h
  · simp [h, hr]

end Ownership

/-- Before `listen` returns nothing is held; afterwards the lease is held until the session
closes, and is released then. -/
structure Owned (listening : Bool) (mode : Option ListenMode) (closed : Bool)
    (o : Ownership) : Prop where
  once : o.onCloses = o.released.toNat
  before : listening = true → mode = none ∧ o.released = closed ∧ o.leaseReleases = 0
  unlistened : mode = none → o.leaseReleases = 0 ∧ o.held = false
  listened : mode.isSome = true →
    o.released = closed ∧ o.leaseReleases = closed.toNat ∧ (closed = false → o.held = true)

theorem Owned.release {listening : Bool} {mode : Option ListenMode} {o : Ownership}
    (h : Owned listening mode false o) : Owned listening mode true o.release := by
  refine ⟨Ownership.onCloses_release h.once, ?_, ?_, ?_⟩
  · intro hl
    obtain ⟨hmode, hreleased, hzero⟩ := h.before hl
    obtain ⟨-, hheld⟩ := h.unlistened hmode
    simp [Ownership.release, hreleased, hmode, hzero, hheld]
  · intro hmode
    obtain ⟨hzero, hheld⟩ := h.unlistened hmode
    rw [Ownership.release]
    split_ifs
    · exact ⟨hzero, hheld⟩
    · simp [hzero, hheld]
  · intro hmode
    obtain ⟨hreleased, hzero, hheld⟩ := h.listened hmode
    have hheld' := hheld rfl
    simp [Ownership.release, hreleased, hzero, hheld']

/-- Nothing follows an error or a completion, neither is given while the session is open, and
no value is given before the first one. -/
structure Ended (emitted : Bool) (error : Option String) (closed : Bool) (o : Outlet T) :
    Prop where
  failed : error.isSome = true → closed = true
  last : ∀ before d after, o.delivered = before ++ d :: after →
    Outlet.terminal d = true → after = [] ∧ o.closed = true
  opened : closed = false → o.closed = false
  valued : ∀ reading, .next reading ∈ o.delivered → emitted = true

namespace Ended

variable {emitted closed : Bool} {error : Option String} {o : Outlet T}

theorem send (h : Ended emitted error closed o) (d : Delivery T)
    (hd : Outlet.terminal d = true → closed = true)
    (hnext : ∀ reading, d = .next reading → emitted = true) :
    Ended emitted error closed (o.send d) := by
  rw [Outlet.send]
  split_ifs with hclosed
  · exact h
  · refine ⟨h.failed, ?_, ?_, ?_⟩
    · intro before d' after heq hterminal
      change o.delivered ++ [d] = _ at heq
      rcases List.eq_nil_or_concat' after with rfl | ⟨after, last, rfl⟩
      · obtain ⟨-, hsame⟩ := List.append_inj' heq rfl
        obtain rfl : d = d' := by simpa using hsame
        exact ⟨rfl, hterminal⟩
      · have hsplit : o.delivered ++ [d] = (before ++ d' :: after) ++ [last] := by
          rw [heq, List.append_assoc, List.cons_append]
        obtain ⟨hbefore, -⟩ := List.append_inj' hsplit rfl
        exact absurd (h.last before d' after hbefore hterminal).2 hclosed
    · intro hopen
      cases hterminal : Outlet.terminal d with
      | false => rfl
      | true => exact absurd ((hd hterminal).symm.trans hopen) (by decide)
    · intro reading hmem
      rcases List.mem_append.1 hmem with hmem | hmem
      · exact h.valued reading hmem
      · exact hnext reading (List.mem_singleton.1 hmem).symm

theorem sendNext (h : Ended emitted error closed o) (reading : Reading T) :
    Ended true error closed (o.send (.next reading)) := by
  have hemitted : Ended true error closed o := ⟨h.failed, h.last, h.opened, fun _ _ => rfl⟩
  exact hemitted.send _ (fun hterminal => by simp [Outlet.terminal] at hterminal) fun _ _ => rfl

theorem close (h : Ended emitted error closed o) (error' : Option String) :
    Ended emitted error' true o :=
  ⟨fun _ => rfl, h.last, by simp, h.valued⟩

/-- The session is closed, and its subscriber told so. -/
theorem sendLast (h : Ended emitted error closed o) (error' : Option String) {d : Delivery T}
    (hd : Outlet.terminal d = true) : Ended emitted error' true (o.send d) := by
  refine (h.close error').send d (fun _ => rfl) fun reading heq => ?_
  subst heq
  cases hd

theorem detach (h : Ended emitted error closed o) :
    Ended emitted error true ⟨true, o.delivered⟩ :=
  ⟨fun _ => rfl, fun before d after heq hd => ⟨(h.last before d after heq hd).1, rfl⟩,
    by simp, h.valued⟩

end Ended

/-! ### Freshness -/

/-- A read that has started has done so after the last notification. -/
def ReadFresh (n : ℕ) : SnapshotRead → Prop
  | .waiting => True
  | .reading _ since => since = n

def StepFresh (n : ℕ) : ReadStep T → Prop
  | .suspended read => ReadFresh n read
  | .returned reading => reading.since = n
  | .thrown _ => True

/-- What a run of `pump` reads is as recent as the last notification. -/
def PumpFresh (n : ℕ) (snapshot : Option (Reading T)) : Pump T → Prop
  | .reading _ read => ReadFresh n read
  | .read _ reading => reading.since = n
  | .delivered => ∀ reading ∈ snapshot, reading.since = n
  | _ => True

def InitialFresh (n : ℕ) : Initial T → Prop
  | .plain since => since = n
  | .reading read => ReadFresh n read
  | .read reading => reading.since = n
  | _ => True

/-- The adoption has got past the initial promise. -/
def Adoption.primed : Adoption → Bool
  | .awaitingReady | .awaitingGate _ => true
  | _ => false

def Adoption.ongoing : Adoption → Bool
  | .unadopted | .done => false
  | _ => true

/-- Who relies on the first snapshot finds it. -/
structure Valued (s : DrizzleObservationSession T) : Prop where
  value : s.hasValue = true → (∃ reading, s.snapshot = some reading) ∧ s.initial = .fulfilled
  fulfilled : s.initial = .fulfilled → s.hasValue = true
  adopted : Adoption.primed s.adoption = true → s.hasValue = true
  subscribed : Adoption.ongoing s.adoption = true → s.subscribed = true
  emitted : s.emitted = true → s.hasValue = true ∧ s.subscribed = true

/-- An open session that is not dirty has read everything it was notified of, or is reading
it; one that is dirty reads again. -/
structure Fresh (s : DrizzleObservationSession T) : Prop where
  due : s.emitted = true → s.dirty = true → s.scheduled = true ∨ s.running = true
  snapshot : s.dirty = false → s.pumpPromise = none →
    ∀ reading ∈ s.snapshot, reading.since = s.notifications
  pumps : s.dirty = false → ∀ pump ∈ s.pumps, PumpFresh s.notifications s.snapshot pump
  initial : s.dirty = false → InitialFresh s.notifications s.initial
  last : s.emitted = true →
    ∃ reading, s.snapshot = some reading ∧ s.outlet.delivered.getLast? = some (.next reading)

structure Sound (s : DrizzleObservationSession T) : Prop where
  pumping : Pumping s.running s.pumpPromise s.pumps s.hasValue
  owned : Owned s.listening s.mode s.closed s.ownership
  ended : Ended s.emitted s.error s.closed s.outlet
  valued : Valued s
  fresh : s.closed = false → Fresh s

namespace Sound

variable {s : DrizzleObservationSession T}

/-- Closing keeps everything but the freshness, which is about open sessions. -/
theorem shut (h : Sound s) (hopen : ¬s.closed = true) (error : Option String) (gates : Gates)
    {outlet : Outlet T} (hended : Ended s.emitted error true outlet) :
    Sound { s with
      error := error, closed := true, gates := gates, ownership := s.ownership.release
      outlet := outlet } := by
  have howned := h.owned
  rw [Bool.not_eq_true] at hopen
  rw [hopen] at howned
  exact ⟨h.pumping, howned.release, hended,
    ⟨h.valued.value, h.valued.fulfilled, h.valued.adopted, h.valued.subscribed,
      h.valued.emitted⟩, fun hopen => by cases hopen⟩

theorem fail (h : Sound s) (message : String) : Sound (s.fail message) := by
  rw [DrizzleObservationSession.fail]
  split_ifs with hclosed hsubscribed
  · exact h
  · exact h.shut hclosed _ _ (h.ended.sendLast _ rfl)
  · exact h.shut hclosed _ _ (h.ended.close _)

theorem close (h : Sound s) : Sound s.close := by
  rw [DrizzleObservationSession.close]
  split_ifs with hclosed hsubscribed
  · exact h
  · exact h.shut hclosed _ _ (h.ended.sendLast _ rfl)
  · exact h.shut hclosed _ _ (h.ended.close _)

theorem schedule_eq (s : DrizzleObservationSession T) :
    s.schedule = { s with scheduled := s.scheduled || !s.running && !s.closed } := by
  obtain ⟨_, _, closed, _, _, running, scheduled⟩ := s
  cases closed <;> cases running <;> cases scheduled <;> rfl

theorem schedule (h : Sound s) : Sound s.schedule := by
  rw [schedule_eq]
  refine ⟨h.pumping, h.owned, h.ended,
    ⟨h.valued.value, h.valued.fulfilled, h.valued.adopted, h.valued.subscribed,
      h.valued.emitted⟩, ?_⟩
  intro hopen
  obtain ⟨hdue, hsnapshot, hpumps, hinitial, hlast⟩ := h.fresh hopen
  refine ⟨fun hemitted hdirty => ?_, hsnapshot, hpumps, hinitial, hlast⟩
  rcases hdue hemitted hdirty with hscheduled | hrunning
  · exact Or.inl (by simp [hscheduled])
  · exact Or.inr hrunning

theorem gates (h : Sound s) (g : Gates) : Sound { s with gates := g } :=
  ⟨h.pumping, h.owned, h.ended,
    ⟨h.valued.value, h.valued.fulfilled, h.valued.adopted, h.valued.subscribed,
      h.valued.emitted⟩,
    fun hopen => ⟨(h.fresh hopen).due, (h.fresh hopen).snapshot, (h.fresh hopen).pumps,
      (h.fresh hopen).initial, (h.fresh hopen).last⟩⟩

theorem setCalls (h : Sound s) (calls : List (CurrentCall T)) :
    Sound { s with calls := calls } :=
  ⟨h.pumping, h.owned, h.ended,
    ⟨h.valued.value, h.valued.fulfilled, h.valued.adopted, h.valued.subscribed,
      h.valued.emitted⟩,
    fun hopen => ⟨(h.fresh hopen).due, (h.fresh hopen).snapshot, (h.fresh hopen).pumps,
      (h.fresh hopen).initial, (h.fresh hopen).last⟩⟩

/-- A notification makes the session dirty, and schedules a re-read for a subscriber. -/
theorem changed (h : Sound s) (catchup : Bool) : Sound (s.changed catchup) := by
  rw [DrizzleObservationSession.changed]
  by_cases hclosed : s.closed = true
  · rw [if_pos hclosed]
    exact h
  rw [if_neg hclosed]
  rw [Bool.not_eq_true] at hclosed
  have hdirty : ∀ gates scheduled, (s.subscribed = true → scheduled = true ∨ s.running = true) →
      Sound { s with
        dirty := true, notifications := s.notifications + 1, gates := gates
        scheduled := scheduled } := by
    intro gates scheduled hdue
    refine ⟨h.pumping, h.owned, h.ended,
      ⟨h.valued.value, h.valued.fulfilled, h.valued.adopted, h.valued.subscribed,
        h.valued.emitted⟩, fun _ => ?_⟩
    refine ⟨fun hemitted _ => hdue (h.valued.emitted hemitted).2, ?_, ?_, ?_,
      (h.fresh hclosed).last⟩ <;> intro hclean <;> simp at hclean
  by_cases hwanted : (s.subscribed || catchup) = true
  · simp only [hwanted, if_true]
    rw [schedule_eq]
    refine hdirty _ _ fun _ => ?_
    cases hrunning : s.running <;> simp [hclosed]
  · simp only [hwanted]
    refine hdirty _ s.scheduled fun hsubscribed => ?_
    simp [hsubscribed] at hwanted

/-! ### Runs of `pump` -/

/-- A re-read starts: the run of `pump` has read nothing yet, every other one has ended. -/
theorem fresh_startRead {s : DrizzleObservationSession T} {p : ℕ} (hvalued : Valued s)
    (hpumping : Pumping s.running s.pumpPromise s.pumps s.hasValue)
    (hp : s.pumpPromise = some p)
    (hlast : s.emitted = true → ∃ reading, s.snapshot = some reading ∧
      s.outlet.delivered.getLast? = some (.next reading)) :
    Fresh (s.startRead p) := by
  have hrunning : s.running = true := by rw [hpumping.running, hp]; rfl
  have hvalue : s.hasValue = true := hpumping.valued (by rw [hp]; rfl)
  refine ⟨fun _ _ => Or.inr hrunning, ?_, ?_, ?_, hlast⟩
  · intro _ hnone
    exact absurd (hp.symm.trans hnone) (by simp)
  · intro _ pump hpump
    obtain ⟨q, hq⟩ := List.mem_iff_getElem?.1 hpump
    by_cases hqp : q = p
    · subst hqp
      have hlt := hpumping.lt hp
      have hself : (s.pumps.set q (.reading s.gates.catchup .waiting))[q]? = some pump := hq
      rw [List.getElem?_set_self hlt] at hself
      obtain rfl := Option.some.inj hself
      trivial
    · have hother : (s.pumps.set p (.reading s.gates.catchup .waiting))[q]? = some pump := hq
      rw [List.getElem?_set_ne (Ne.symm hqp)] at hother
      have hdone := hpumping.done_of_ne hp hother hqp
      cases pump <;> trivial
  · intro _
    have hfulfilled : (s.startRead p).initial = .fulfilled := (hvalued.value hvalue).2
    rw [hfulfilled]
    trivial

theorem startRead (h : Sound s) {p : ℕ} (hp : s.pumpPromise = some p) : Sound (s.startRead p) :=
  ⟨h.pumping.set hp rfl, h.owned, h.ended,
    ⟨h.valued.value, h.valued.fulfilled, h.valued.adopted, h.valued.subscribed,
      h.valued.emitted⟩,
    fun hopen => fresh_startRead h.valued h.pumping hp (h.fresh hopen).last⟩

/-- The run of `pump` ends with nothing left to read, or because the session is closed. -/
theorem endPump (h : Sound s) {p : ℕ} (hp : s.pumpPromise = some p)
    (hread : s.closed = false → s.dirty = false ∧
      ∀ reading ∈ s.snapshot, reading.since = s.notifications) : Sound (s.endPump p) := by
  refine ⟨h.pumping.finish hp, h.owned, h.ended,
    ⟨h.valued.value, h.valued.fulfilled, h.valued.adopted, h.valued.subscribed,
      h.valued.emitted⟩, fun hopen => ?_⟩
  obtain ⟨hclean, hsnapshot⟩ := hread hopen
  obtain ⟨-, -, hpumps, hinitial, hlast⟩ := h.fresh hopen
  refine ⟨fun _ hdirty => ?_, fun _ _ => hsnapshot, ?_, hinitial, hlast⟩
  · exact absurd (hclean.symm.trans hdirty) (by decide)
  · intro hclean pump hpump
    rcases List.mem_or_eq_of_mem_set hpump with hpump | rfl
    · exact hpumps hclean pump hpump
    · trivial

theorem loop (h : Sound s) {p : ℕ} (hp : s.pumpPromise = some p)
    (hread : s.closed = false → s.dirty = false →
      ∀ reading ∈ s.snapshot, reading.since = s.notifications) : Sound (s.loop p) := by
  rw [DrizzleObservationSession.loop]
  split_ifs with hagain
  · exact h.startRead hp
  · refine h.endPump hp fun hopen => ?_
    have hclean : s.dirty = false := by simpa [hopen] using hagain
    exact ⟨hclean, hread hopen hclean⟩

/-- A run of `pump` starts, whatever is still scheduled. -/
theorem start (h : Sound s) (hpromise : s.pumpPromise = none) (hopen : s.closed = false)
    (hvalue : s.hasValue = true) (hdirty : s.dirty = true) (scheduled : Bool) :
    Sound { s with
      scheduled := scheduled, running := true, pumps := s.pumps ++ [.reading false .waiting]
      pumpPromise := some s.pumps.length } := by
  have hpumping := h.pumping
  rw [hpromise] at hpumping
  refine ⟨hpumping.start hvalue rfl, h.owned, h.ended,
    ⟨h.valued.value, h.valued.fulfilled, h.valued.adopted, h.valued.subscribed,
      h.valued.emitted⟩, fun _ => ?_⟩
  obtain ⟨-, -, hpumps, hinitial, hlast⟩ := h.fresh hopen
  refine ⟨fun _ _ => Or.inr rfl, fun _ hnone => by simp at hnone, ?_, hinitial, hlast⟩
  intro hclean
  exact absurd (hclean.symm.trans hdirty) (by decide)

/-- Taking the schedule back is sound where a run of `pump` is active or none is due. -/
theorem unscheduled (h : Sound s)
    (hdue : s.closed = false → s.emitted = true → s.dirty = true → s.running = true) :
    Sound { s with scheduled := false } :=
  ⟨h.pumping, h.owned, h.ended,
    ⟨h.valued.value, h.valued.fulfilled, h.valued.adopted, h.valued.subscribed,
      h.valued.emitted⟩,
    fun hopen => ⟨fun hemitted hdirty => Or.inr (hdue hopen hemitted hdirty),
      (h.fresh hopen).snapshot, (h.fresh hopen).pumps, (h.fresh hopen).initial,
      (h.fresh hopen).last⟩⟩

theorem idle_iff (s : DrizzleObservationSession T) :
    ¬(s.closed || !s.hasValue || !s.dirty) = true ↔
      s.closed = false ∧ s.hasValue = true ∧ s.dirty = true := by
  simp [and_assoc]

/-- Starting `pump`, if there is anything to read. -/
theorem pump (h : Sound s) : Sound s.pump := by
  rw [DrizzleObservationSession.pump]
  split_ifs with hpromise hidle
  · exact h
  · exact h
  · rw [Bool.not_eq_true, Option.isSome_eq_false_iff, Option.isNone_iff_eq_none] at hpromise
    obtain ⟨hopen, hvalue, hdirty⟩ := (idle_iff s).1 hidle
    have hstarted := (h.start hpromise hopen hvalue hdirty s.scheduled).startRead rfl
    simpa [DrizzleObservationSession.startRead] using hstarted

theorem immediate (h : Sound s) : Sound { s with scheduled := false }.pump := by
  rw [DrizzleObservationSession.pump]
  split_ifs with hpromise hidle
  · exact h.unscheduled fun _ _ _ => h.pumping.running.trans hpromise
  · refine h.unscheduled fun hopen hemitted hdirty => ?_
    have hvalue := (h.valued.emitted hemitted).1
    exact absurd ⟨hopen, hvalue, hdirty⟩ (mt (idle_iff s).2 (not_not.2 hidle))
  · rw [Bool.not_eq_true, Option.isSome_eq_false_iff, Option.isNone_iff_eq_none] at hpromise
    obtain ⟨hopen, hvalue, hdirty⟩ := (idle_iff s).1 hidle
    have hstarted := (h.start hpromise hopen hvalue hdirty false).startRead rfl
    simpa [DrizzleObservationSession.startRead] using hstarted

/-- A run of `pump` goes on with its read. -/
theorem setPump (h : Sound s) {p : ℕ} (hp : s.pumpPromise = some p) {pump : Pump T}
    (hactive : pump.active = true)
    (hfresh : s.closed = false → s.dirty = false → PumpFresh s.notifications s.snapshot pump) :
    Sound (s.setPump p pump) := by
  refine ⟨h.pumping.set hp hactive, h.owned, h.ended,
    ⟨h.valued.value, h.valued.fulfilled, h.valued.adopted, h.valued.subscribed,
      h.valued.emitted⟩, fun hopen => ?_⟩
  obtain ⟨hdue, hsnapshot, hpumps, hinitial, hlast⟩ := h.fresh hopen
  refine ⟨hdue, hsnapshot, ?_, hinitial, hlast⟩
  intro hclean pump' hpump'
  rcases List.mem_or_eq_of_mem_set hpump' with hpump' | rfl
  · exact hpumps hclean pump' hpump'
  · exact hfresh hopen hclean

theorem resumeRead {read : SnapshotRead} {answer : Answer T} {r : ReadStep T}
    (h : s.resumeRead read answer = some r) (hread : ReadFresh s.notifications read) :
    StepFresh s.notifications r := by
  unfold DrizzleObservationSession.resumeRead at h
  split at h
  · split_ifs at h <;> obtain rfl := Option.some.inj h <;> trivial
  · split_ifs at h
    obtain rfl := Option.some.inj h
    trivial
  · split_ifs at h <;> obtain rfl := Option.some.inj h <;> trivial
  · split_ifs at h <;> obtain rfl := Option.some.inj h <;> trivial
  · simp at h

/-- The value a run of `pump` has read becomes the snapshot. -/
theorem pumped (h : Sound s) {p : ℕ} (hp : s.pumpPromise = some p) (catchingUp : Bool)
    {reading : Reading T}
    (hfresh : s.closed = false → s.dirty = false → reading.since = s.notifications) :
    Sound (s.pumped p catchingUp reading) := by
  rw [DrizzleObservationSession.pumped]
  by_cases hclosed : s.closed = true
  · rw [if_pos hclosed]
    exact (h.gates _).endPump hp fun hopen => absurd (hclosed.symm.trans hopen) (by decide)
  rw [if_neg hclosed]
  rw [Bool.not_eq_true] at hclosed
  have hvalue : s.hasValue = true := h.pumping.valued (by rw [hp]; rfl)
  obtain ⟨hdue, -, hpumps, hinitial, hlast⟩ := h.fresh hclosed
  have hpumps' : s.dirty = false →
      ∀ pump ∈ s.pumps, PumpFresh s.notifications (some reading) pump := by
    intro hclean pump hpump
    have hother := hpumps hclean pump hpump
    cases pump with
    | delivered =>
        intro reading' hreading'
        obtain rfl := Option.some.inj hreading'
        exact hfresh hclosed hclean
    | _ => exact hother
  have hnone : s.pumpPromise ≠ none := by simp [hp]
  have hvalued : ∀ outlet, Valued { s with snapshot := some reading, outlet := outlet } :=
    fun outlet => ⟨fun hv => ⟨⟨reading, rfl⟩, (h.valued.value hv).2⟩, h.valued.fulfilled,
      h.valued.adopted, h.valued.subscribed, h.valued.emitted⟩
  by_cases hemitted : s.emitted = true
  · have hsent : Sound { s with
        snapshot := some reading, outlet := s.outlet.send (.next reading) } := by
      have hended := h.ended.sendNext reading
      rw [← hemitted] at hended
      refine ⟨h.pumping, h.owned, hended, hvalued _, fun _ => ?_⟩
      refine ⟨hdue, fun _ hn => absurd hn hnone, hpumps', hinitial, fun _ => ⟨reading, rfl, ?_⟩⟩
      have hopened := h.ended.opened hclosed
      simp [Outlet.send, hopened]
    rw [if_pos (show _ = true from hemitted)]
    refine (hsent.gates _).setPump hp rfl fun _ hclean => ?_
    intro reading' hreading'
    obtain rfl := Option.some.inj hreading'
    exact hfresh hclosed hclean
  · have hkept : Sound { s with snapshot := some reading } :=
      ⟨h.pumping, h.owned, h.ended, hvalued s.outlet, fun _ =>
        ⟨hdue, fun _ hn => absurd hn hnone, hpumps', hinitial, fun he => absurd he hemitted⟩⟩
    rw [if_neg (show ¬ _ = true from hemitted)]
    refine (hkept.gates _).loop hp fun _ hclean => ?_
    intro reading' hreading'
    obtain rfl := Option.some.inj hreading'
    exact hfresh hclosed hclean

theorem resumePumpRead (h : Sound s) {p : ℕ} {answer : Answer T}
    {t : DrizzleObservationSession T} (ht : s.resumePumpRead p answer = some t) : Sound t := by
  rw [DrizzleObservationSession.resumePumpRead] at ht
  split at ht
  · next catchingUp read hpump =>
      obtain ⟨r, hr, rfl⟩ := Option.map_eq_some_iff.1 ht
      refine h.setPump (h.pumping.single p _ hpump rfl) (by cases r <;> rfl)
        fun hopen hclean => ?_
      have hfresh := resumeRead hr ((h.fresh hopen).pumps hclean _ (List.mem_of_getElem? hpump))
      cases r <;> exact hfresh
  · cases ht

theorem resumePump (h : Sound s) {p : ℕ} {t : DrizzleObservationSession T}
    (ht : s.resumePump p = some t) : Sound t := by
  rw [DrizzleObservationSession.resumePump] at ht
  split at ht
  · next catchingUp reading hpump =>
      obtain rfl := Option.some.inj ht
      exact h.pumped (h.pumping.single p _ hpump rfl) catchingUp fun hopen hclean =>
        (h.fresh hopen).pumps hclean _ (List.mem_of_getElem? hpump)
  · next hpump =>
      obtain rfl := Option.some.inj ht
      exact (h.gates _).loop (h.pumping.single p _ hpump rfl) fun hopen hclean =>
        (h.fresh hopen).pumps hclean _ (List.mem_of_getElem? hpump)
  · next message hpump =>
      obtain rfl := Option.some.inj ht
      have hp := h.pumping.single p _ hpump rfl
      have hfailed := (h.gates s.gates.finishRead).fail message
      have hpromise : (s.finishRead.fail message).pumpPromise = some p := by
        rw [DrizzleObservationSession.fail]
        split_ifs <;> exact hp
      have hclosed : (s.finishRead.fail message).closed = true := by
        rw [DrizzleObservationSession.fail]
        split_ifs with hclosed <;> first | exact hclosed | rfl
      exact hfailed.endPump hpromise fun hopen => absurd (hclosed.symm.trans hopen) (by decide)
  · cases ht

/-! ### The first snapshot -/

/-- The initial promise moves on without being fulfilled. -/
theorem setInitial (h : Sound s) {initial : Initial T} (hl : s.listening = false)
    (hunread : s.initial ≠ .fulfilled) (hstarted : initial ≠ .unstarted)
    (hunread' : initial ≠ .fulfilled)
    (hfresh : s.closed = false → s.dirty = false → InitialFresh s.notifications initial) :
    Sound { s with initial := initial } := by
  have howned := h.owned
  have hnovalue : s.hasValue ≠ true := fun hv => hunread (h.valued.value hv).2
  have hl' : ({ s with initial := initial } : DrizzleObservationSession T).listening = false := by
    cases initial <;> first | rfl | exact absurd rfl hstarted
  rw [hl, ← hl'] at howned
  refine ⟨h.pumping, howned, h.ended,
    ⟨fun hv => absurd hv hnovalue, fun hi => absurd hi hunread', h.valued.adopted,
      h.valued.subscribed, h.valued.emitted⟩, fun hopen => ?_⟩
  obtain ⟨hdue, hsnapshot, hpumps, -, hlast⟩ := h.fresh hopen
  exact ⟨hdue, hsnapshot, hpumps, hfresh hopen, hlast⟩

theorem listened (h : Sound s) (hl : s.listening = true) (mode : ListenMode) :
    Sound (s.listened mode) := by
  obtain ⟨hmode, hreleased, hzero⟩ := h.owned.before hl
  have hunread : s.initial ≠ .fulfilled := fun hi => by
    simp [DrizzleObservationSession.listening, hi] at hl
  have hnovalue : s.hasValue ≠ true := fun hv => hunread (h.valued.value hv).2
  refine ⟨h.pumping, ⟨h.owned.once, ?_, ?_, ?_⟩, h.ended,
    ⟨fun hv => absurd hv hnovalue, ?_, h.valued.adopted, h.valued.subscribed,
      h.valued.emitted⟩, fun hopen => ?_⟩
  · intro hlistening
    cases mode <;> simp [DrizzleObservationSession.listening, DrizzleObservationSession.listened]
      at hlistening
  · intro hnone
    simp [DrizzleObservationSession.listened] at hnone
  · intro _
    exact ⟨hreleased, by simp [DrizzleObservationSession.listened, hzero], fun _ => rfl⟩
  · intro hi
    cases mode <;> simp [DrizzleObservationSession.listened] at hi
  · obtain ⟨hdue, hsnapshot, hpumps, -, hlast⟩ := h.fresh hopen
    refine ⟨hdue, hsnapshot, hpumps, fun _ => ?_, hlast⟩
    cases mode <;> trivial

theorem listenThrew (h : Sound s) (hl : s.listening = true) (message : String) :
    Sound { s with closed := true, initial := .rejected message } := by
  obtain ⟨hmode, hreleased, hzero⟩ := h.owned.before hl
  have hunread : s.initial ≠ .fulfilled := fun hi => by
    simp [DrizzleObservationSession.listening, hi] at hl
  have hnovalue : s.hasValue ≠ true := fun hv => hunread (h.valued.value hv).2
  refine ⟨h.pumping, ⟨h.owned.once, fun hlistening => ?_, h.owned.unlistened, fun hsome => ?_⟩,
    h.ended.close _, ⟨fun hv => absurd hv hnovalue, fun hi => ?_, h.valued.adopted,
      h.valued.subscribed, h.valued.emitted⟩, fun hopen => by cases hopen⟩
  · simp [DrizzleObservationSession.listening] at hlistening
  · have hsome' : s.mode.isSome = true := hsome
    simp [hmode] at hsome'
  · simp at hi

/-- The value of the initial read becomes the snapshot. -/
theorem primed (h : Sound s) {reading : Reading T} (hi : s.initial = .read reading) :
    Sound (s.primed reading) := by
  have hl : s.listening = false := by rw [DrizzleObservationSession.listening, hi]
  have hunread : s.initial ≠ .fulfilled := by rw [hi]; simp
  rw [DrizzleObservationSession.primed]
  by_cases hclosed : s.closed = true
  · rw [if_pos hclosed]
    exact h.setInitial hl hunread (by simp) (by simp) fun _ _ => trivial
  rw [if_neg hclosed]
  rw [Bool.not_eq_true] at hclosed
  have hnovalue : s.hasValue ≠ true := fun hv => hunread (h.valued.value hv).2
  have howned := h.owned
  rw [hl] at howned
  have hpumping : s.pumpPromise = none := by
    have hnone := mt h.pumping.valued hnovalue
    simpa using hnone
  have hprimed : Sound { s with
      hasValue := true, snapshot := some reading, initial := .fulfilled } := by
    refine ⟨h.pumping.value, howned, h.ended,
      ⟨fun _ => ⟨⟨reading, rfl⟩, rfl⟩, fun _ => rfl, fun _ => rfl, h.valued.subscribed,
        fun he => absurd (h.valued.emitted he).1 hnovalue⟩, fun _ => ?_⟩
    obtain ⟨hdue, -, hpumps, hinitial, -⟩ := h.fresh hclosed
    refine ⟨hdue, ?_, ?_, fun _ => trivial,
      fun he => absurd (h.valued.emitted he).1 hnovalue⟩
    · intro hclean _ reading' hreading'
      obtain rfl := Option.some.inj hreading'
      have hfresh := hinitial hclean
      rw [hi] at hfresh
      exact hfresh
    · intro hclean pump hpump
      obtain ⟨p, hp⟩ := List.mem_iff_getElem?.1 hpump
      have hdone : pump.active = false := by
        cases hactive : pump.active with
        | false => rfl
        | true => exact absurd (hpumping.symm.trans (h.pumping.single p pump hp hactive)) (by simp)
      cases pump <;> trivial
  dsimp only
  split_ifs
  · exact hprimed.schedule
  · exact hprimed

theorem resumeInitial (h : Sound s) {answer : Answer T} {t : DrizzleObservationSession T}
    (ht : s.resumeInitial answer = some t) : Sound t := by
  unfold DrizzleObservationSession.resumeInitial at ht
  split at ht
  · next hi =>
      obtain rfl := Option.some.inj ht
      refine h.setInitial (by rw [DrizzleObservationSession.listening, hi]) (by simp [hi])
        ?_ ?_ fun hopen _ => ?_
      all_goals split_ifs <;> simp [InitialFresh, ReadFresh]
  · next hi =>
      obtain rfl := Option.some.inj ht
      exact h.setInitial (by rw [DrizzleObservationSession.listening, hi]) (by simp [hi])
        (by simp) (by simp) fun _ _ => trivial
  · next since value _ hi =>
      obtain rfl := Option.some.inj ht
      refine h.setInitial (by rw [DrizzleObservationSession.listening, hi]) (by simp [hi])
        (by simp) (by simp) fun hopen hclean => ?_
      have hfresh := (h.fresh hopen).initial hclean
      rw [hi] at hfresh
      exact hfresh
  · next hi =>
      obtain rfl := Option.some.inj ht
      exact h.setInitial (by rw [DrizzleObservationSession.listening, hi]) (by simp [hi])
        (by simp) (by simp) fun _ _ => trivial
  · next read hi =>
      obtain ⟨r, hr, rfl⟩ := Option.map_eq_some_iff.1 ht
      refine h.setInitial (by rw [DrizzleObservationSession.listening, hi]) (by simp [hi])
        ?_ ?_ fun hopen hclean => ?_
      · cases r <;> simp [toInitial]
      · cases r <;> simp [toInitial]
      · have hfresh := (h.fresh hopen).initial hclean
        rw [hi] at hfresh
        have hread := resumeRead hr hfresh
        cases r <;> exact hread
  · simp at ht

theorem settleInitial (h : Sound s) {t : DrizzleObservationSession T}
    (ht : s.settleInitial = some t) : Sound t := by
  unfold DrizzleObservationSession.settleInitial at ht
  split at ht
  · next reading hi =>
      obtain rfl := Option.some.inj ht
      exact h.primed hi
  · next message hi =>
      obtain rfl := Option.some.inj ht
      have hi' : (s.fail message).initial = .failing message := by
        rw [DrizzleObservationSession.fail]
        split_ifs <;> exact hi
      exact (h.fail message).setInitial (by rw [DrizzleObservationSession.listening, hi'])
        (by simp [hi']) (by simp) (by simp) fun _ _ => trivial
  · simp at ht

/-! ### Adoption -/

theorem setAdoption (h : Sound s) {adoption : Adoption}
    (hvalue : Adoption.primed adoption = true → s.hasValue = true)
    (hsubscribed : Adoption.ongoing adoption = true → s.subscribed = true) :
    Sound { s with adoption := adoption } :=
  ⟨h.pumping, h.owned, h.ended,
    ⟨h.valued.value, h.valued.fulfilled, hvalue, hsubscribed, h.valued.emitted⟩,
    fun hopen => ⟨(h.fresh hopen).due, (h.fresh hopen).snapshot, (h.fresh hopen).pumps,
      (h.fresh hopen).initial, (h.fresh hopen).last⟩⟩

theorem setOutlet (h : Sound s) (hclosed : s.closed = true) {outlet : Outlet T}
    (hended : Ended s.emitted s.error true outlet) : Sound { s with outlet := outlet } := by
  rw [← hclosed] at hended
  exact ⟨h.pumping, h.owned, hended,
    ⟨h.valued.value, h.valued.fulfilled, h.valued.adopted, h.valued.subscribed,
      h.valued.emitted⟩, fun hopen => absurd (hclosed.symm.trans hopen) (by decide)⟩

/-- Closing after the subscriber was given its last event, or has gone. -/
theorem closeWith (h : Sound s) {outlet : Outlet T} (hended : Ended s.emitted s.error true outlet) :
    Sound { s with outlet := outlet }.close := by
  rw [DrizzleObservationSession.close]
  split_ifs with hclosed hsubscribed
  · exact h.setOutlet hclosed hended
  · exact h.shut hclosed _ _ (hended.sendLast _ rfl)
  · exact h.shut hclosed _ _ hended

theorem pump_subscribed (s : DrizzleObservationSession T) :
    s.pump.hasValue = s.hasValue ∧ s.pump.subscribed = s.subscribed := by
  rw [DrizzleObservationSession.pump]
  split_ifs <;> exact ⟨rfl, rfl⟩

theorem deliverFirst (h : Sound s) (hvalue : s.hasValue = true)
    (hsubscribed : s.subscribed = true) : Sound s.deliverFirst := by
  have hadopted : Sound { s with adoption := .done } :=
    h.setAdoption (fun hp => by cases hp) fun ho => by cases ho
  rw [DrizzleObservationSession.deliverFirst]
  dsimp only
  by_cases hshut : (s.closed || s.outlet.closed) = true
  · rw [if_pos hshut]
    exact hadopted
  rw [if_neg hshut]
  obtain ⟨hclosed, houtlet⟩ : s.closed = false ∧ s.outlet.closed = false := by
    simpa using hshut
  split
  · exact hadopted
  · next reading hsnapshot =>
      have hsent : ∀ scheduled, (s.dirty = true → scheduled = true ∨ s.running = true) →
          Sound { s with
            adoption := .done, emitted := true, outlet := s.outlet.send (.next reading)
            scheduled := scheduled } := by
        intro scheduled hdue
        refine ⟨h.pumping, h.owned, h.ended.sendNext reading, ⟨h.valued.value, h.valued.fulfilled,
          fun hp => by simp [Adoption.primed] at hp, fun ho => by simp [Adoption.ongoing] at ho,
          fun _ => ⟨hvalue, hsubscribed⟩⟩, fun _ => ?_⟩
        obtain ⟨-, hfresh, hpumps, hinitial, -⟩ := h.fresh hclosed
        refine ⟨fun _ => hdue, hfresh, hpumps, hinitial, fun _ => ⟨reading, hsnapshot, ?_⟩⟩
        simp [Outlet.send, houtlet]
      split_ifs with hdirty
      · rw [schedule_eq]
        refine hsent _ fun _ => ?_
        cases hrunning : s.running <;> simp [hclosed]
      · exact hsent s.scheduled fun hd => absurd hd hdirty

theorem adoptReady (h : Sound s) (hvalue : s.hasValue = true)
    (hsubscribed : s.subscribed = true) : Sound s.adoptReady := by
  rw [DrizzleObservationSession.adoptReady]
  split_ifs
  · obtain ⟨hv, hs⟩ := pump_subscribed s
    exact h.pump.setAdoption (fun _ => hv.trans hvalue) fun _ => hs.trans hsubscribed
  · exact h.deliverFirst hvalue hsubscribed

theorem adopt (h : Sound s) : Sound s.adopt := by
  have hdone : Sound { s with adoption := .done } :=
    h.setAdoption (fun hp => by cases hp) fun ho => by cases ho
  rw [DrizzleObservationSession.adopt]
  split
  · next message herror =>
      have hclosed := h.ended.failed (by simp [herror])
      exact hdone.setOutlet hclosed (h.ended.sendLast _ rfl)
  · split_ifs with hclosed
    · exact hdone.setOutlet hclosed (h.ended.sendLast _ rfl)
    · refine ⟨h.pumping, h.owned, h.ended,
        ⟨h.valued.value, h.valued.fulfilled, fun hp => by simp [Adoption.primed] at hp,
          fun _ => rfl, fun he => ⟨(h.valued.emitted he).1, rfl⟩⟩, fun hopen => ?_⟩
      exact ⟨(h.fresh hopen).due, (h.fresh hopen).snapshot, (h.fresh hopen).pumps,
        (h.fresh hopen).initial, (h.fresh hopen).last⟩

theorem resumeAdoption (h : Sound s) {answer : Answer T} {t : DrizzleObservationSession T}
    (ht : s.resumeAdoption answer = some t) : Sound t := by
  unfold DrizzleObservationSession.resumeAdoption at ht
  split at ht
  · next ha hi =>
      obtain rfl := Option.some.inj ht
      have hvalue := h.valued.fulfilled hi
      have hsubscribed := h.valued.subscribed (by rw [ha]; rfl)
      split_ifs
      · exact h.setAdoption (fun _ => hvalue) fun _ => hsubscribed
      · exact h.adoptReady hvalue hsubscribed
  · next ha _ =>
      obtain rfl := Option.some.inj ht
      exact h.setAdoption (fun hp => by cases hp) fun _ => h.valued.subscribed (by rw [ha]; rfl)
  · next ha =>
      obtain rfl := Option.some.inj ht
      exact h.adoptReady (h.valued.adopted (by rw [ha]; rfl)) (h.valued.subscribed (by rw [ha]; rfl))
  · next ha =>
      obtain rfl := Option.some.inj ht
      exact h.setAdoption (fun hp => by cases hp) fun _ => h.valued.subscribed (by rw [ha]; rfl)
  · next gate ha =>
      split_ifs at ht
      obtain rfl := Option.some.inj ht
      exact h.deliverFirst (h.valued.adopted (by rw [ha]; rfl))
        (h.valued.subscribed (by rw [ha]; rfl))
  · next message ha =>
      obtain rfl := Option.some.inj ht
      have hdone : Sound { s with adoption := .done } :=
        h.setAdoption (fun hp => by cases hp) fun ho => by cases ho
      exact hdone.closeWith (h.ended.sendLast _ rfl)
  · simp at ht

/-! ### Calls of `current()` -/

theorem setCall (h : Sound s) (i : ℕ) (call : CurrentCall T) : Sound (s.setCall i call) :=
  h.setCalls _

theorem currentReady (h : Sound s) (i : ℕ) : Sound (s.currentReady i) := by
  rw [DrizzleObservationSession.currentReady]
  split_ifs
  · exact h.pump.setCall i _
  · exact h.setCall i _

theorem resumeCurrent (h : Sound s) {i : ℕ} {answer : Answer T}
    {t : DrizzleObservationSession T} (ht : s.resumeCurrent i answer = some t) : Sound t := by
  unfold DrizzleObservationSession.resumeCurrent at ht
  split at ht
  · obtain rfl := Option.some.inj ht
    split_ifs
    · exact h.setCall i _
    · exact h.currentReady i
  · obtain rfl := Option.some.inj ht
    exact h.setCall i _
  · obtain rfl := Option.some.inj ht
    exact h.currentReady i
  · obtain rfl := Option.some.inj ht
    exact h.setCall i _
  · split_ifs at ht
    obtain rfl := Option.some.inj ht
    exact h.setCall i _
  · simp at ht

theorem cancelCurrent (h : Sound s) {i : ℕ} {t : DrizzleObservationSession T}
    (ht : s.cancelCurrent i = some t) : Sound t := by
  unfold DrizzleObservationSession.cancelCurrent at ht
  split at ht
  all_goals first
    | obtain rfl := Option.some.inj ht
      exact h.setCall i _
    | simp at ht

/-! ### Every interleaving -/

theorem initially (T : Type*) (aborted : Bool) : Sound (new T aborted) where
  pumping := ⟨rfl, by simp [new], by simp [new], by simp [new]⟩
  owned := by
    refine ⟨rfl, fun hl => ?_, fun _ => ⟨rfl, rfl⟩, by simp [new]⟩
    cases aborted
    · exact ⟨rfl, rfl, rfl⟩
    · simp [new, DrizzleObservationSession.listening] at hl
  ended := ⟨by simp [new], by simp [new], fun _ => rfl, by simp [new]⟩
  valued := by
    refine ⟨by simp [new], fun hi => ?_, by simp [new, Adoption.primed],
      by simp [new, Adoption.ongoing], by simp [new]⟩
    cases aborted <;> simp [new] at hi
  fresh _ := by
    refine ⟨by simp [new], by simp [new], by simp [new], fun _ => ?_, by simp [new]⟩
    cases aborted <;> trivial

theorem step {e : SessionEvent T} {t : DrizzleObservationSession T} (h : Sound s)
    (ht : s.step e = some t) : Sound t := by
  cases e with
  | listened mode =>
      simp only [DrizzleObservationSession.step] at ht
      split_ifs at ht with hl
      obtain rfl := Option.some.inj ht
      exact h.listened hl mode
  | listenThrew =>
      simp only [DrizzleObservationSession.step] at ht
      split_ifs at ht with hl
      obtain rfl := Option.some.inj ht
      exact h.listenThrew hl _
  | changed catchup =>
      obtain rfl := Option.some.inj ht
      exact h.changed catchup
  | fail message =>
      obtain rfl := Option.some.inj ht
      exact h.fail message
  | close =>
      obtain rfl := Option.some.inj ht
      exact h.close
  | adopt =>
      simp only [DrizzleObservationSession.step] at ht
      split_ifs at ht
      obtain rfl := Option.some.inj ht
      exact h.adopt
  | unsubscribe =>
      simp only [DrizzleObservationSession.step] at ht
      split at ht
      · simp at ht
      · obtain rfl := Option.some.inj ht
        exact h.closeWith h.ended.detach
  | current =>
      simp only [DrizzleObservationSession.step] at ht
      split_ifs at ht
      obtain rfl := Option.some.inj ht
      exact h.setCalls _
  | immediate =>
      simp only [DrizzleObservationSession.step] at ht
      split_ifs at ht
      obtain rfl := Option.some.inj ht
      exact h.immediate
  | resumeInitial answer => exact h.resumeInitial ht
  | settleInitial => exact h.settleInitial ht
  | resumeAdoption answer => exact h.resumeAdoption ht
  | resumeCurrent call answer => exact h.resumeCurrent ht
  | cancelCurrent call => exact h.cancelCurrent ht
  | resumePumpRead p answer => exact h.resumePumpRead ht
  | resumePump p => exact h.resumePump ht

theorem reachable {aborted : Bool} (h : (machine T aborted).Reachable s) : Sound s :=
  Machine.Reachable.invariant (machine T aborted) (P := Sound) (initially T aborted)
    (fun _ _ _ hs hstep => hs.step hstep) h

end Sound

/-- Reads after the first one do not overlap. An open session whose subscriber has its first
value, and which neither reads nor is about to, has delivered the state it was last notified
of. Nothing is delivered after an error or a completion, and a closed session has released
its lease once. -/
theorem latest_snapshot {aborted : Bool} {s : DrizzleObservationSession T}
    (h : (machine T aborted).Reachable s) :
    (∀ (p q : ℕ) (pump pump' : Pump T), s.pumps[p]? = some pump → pump.active = true →
        s.pumps[q]? = some pump' → pump'.active = true → p = q ∧ s.initial = .fulfilled) ∧
      (s.closed = false → (∃ reading, .next reading ∈ s.outlet.delivered) →
        (∀ pump ∈ s.pumps, pump.active = false) → s.scheduled = false →
        s.dirty = false ∧ ∃ reading, s.outlet.delivered.getLast? = some (.next reading) ∧
          reading.since = s.notifications) ∧
      (∀ before d after, s.outlet.delivered = before ++ d :: after →
        Outlet.terminal d = true → after = []) ∧
      (s.closed = true → s.mode.isSome = true →
        s.ownership.leaseReleases = 1 ∧ s.ownership.onCloses = 1) := by
  have hs := Sound.reachable h
  refine ⟨?_, ?_, fun before d after heq hd => (hs.ended.last before d after heq hd).1, ?_⟩
  · intro p q pump pump' hp hactive hq hactive'
    have hpromise := hs.pumping.single p pump hp hactive
    have hpromise' := hs.pumping.single q pump' hq hactive'
    refine ⟨Option.some.inj (hpromise.symm.trans hpromise'), ?_⟩
    exact (hs.valued.value (hs.pumping.valued (by rw [hpromise]; rfl))).2
  · rintro hopen ⟨first, hfirst⟩ hidle hunscheduled
    have hemitted := hs.ended.valued first hfirst
    have hnone : s.pumpPromise = none := by
      cases hpromise : s.pumpPromise with
      | none => rfl
      | some p =>
          obtain ⟨pump, hpump, hactive⟩ := hs.pumping.promised p hpromise
          exact absurd (hidle pump (List.mem_of_getElem? hpump)) (by simp [hactive])
    have hfresh := hs.fresh hopen
    have hclean : s.dirty = false := by
      cases hdirty : s.dirty with
      | false => rfl
      | true =>
          rcases hfresh.due hemitted hdirty with hscheduled | hrunning
          · exact absurd hscheduled (by simp [hunscheduled])
          · rw [hs.pumping.running, hnone] at hrunning
            cases hrunning
    obtain ⟨reading, hsnapshot, hlast⟩ := hfresh.last hemitted
    exact ⟨hclean, reading, hlast, hfresh.snapshot hclean hnone reading hsnapshot⟩
  · intro hclosed hmode
    obtain ⟨hreleased, hreleases, -⟩ := hs.owned.listened hmode
    have honce := hs.owned.once
    rw [hreleased, hclosed] at honce
    rw [hclosed] at hreleases
    exact ⟨hreleases, honce⟩

/-- A notification arrives while the subscriber waits for its first value, and another during
the re-read. -/
def overtaken : List (SessionEvent ℕ) :=
  [.listened (.lease true), .resumeInitial (.ready none), .resumeInitial (.ready (some 0)),
    .resumeInitial (.value 1 true), .settleInitial, .adopt, .changed false,
    .resumeAdoption (.ready (some 0)), .resumeAdoption (.ready (some 0)),
    .resumePumpRead 0 (.ready (some 0)), .changed false, .resumePumpRead 0 (.value 2 true),
    .resumePump 0,
    .resumeAdoption (.ready (some 0)), .resumePumpRead 0 (.ready (some 0)),
    .resumePumpRead 0 (.value 3 true), .resumePump 0, .resumePump 0, .immediate]

theorem latest_snapshot_overtaken :
    ∃ s, (machine ℕ false).exec (new ℕ false) overtaken = some s ∧
      s.dirty = false ∧ ∃ reading, s.outlet.delivered.getLast? = some (.next reading) ∧
        reading.since = s.notifications := by
  have hreachable : ∀ s, (machine ℕ false).exec (new ℕ false) overtaken = some s →
      (machine ℕ false).Reachable s := fun s hs => ⟨overtaken, hs⟩
  exact ⟨_, rfl, (latest_snapshot (hreachable _ rfl)).2.1 rfl
    ⟨⟨2, 1⟩, by decide⟩ (by decide) rfl⟩

end Arc.Drizzle.DrizzleObservationSession
