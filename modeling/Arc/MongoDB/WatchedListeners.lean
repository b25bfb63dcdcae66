import Arc.MongoDB.WatcherOpenings

/-!
# A watcher keeps its listeners

The invariants hold over all interleavings. What a watcher promises its listeners is read off
them.
-/

namespace Arc.MongoDB

namespace MongoDBWatcher

variable {w : MongoDBWatcher} {o : ℕ}

namespace Sound

/-! ### Every interleaving -/

theorem unwind (hs : Sound w) {t : MongoDBWatcher} (ht : w.unwind = some t) : Sound t := by
  unfold MongoDBWatcher.unwind at ht
  split at ht
  · next hd =>
      obtain rfl := Option.some.inj ht
      exact hs.disposeNext hd
  · next hd =>
      obtain rfl := Option.some.inj ht
      exact hs.disposeEnd hd
  · next st collection o rest hd hf =>
      obtain rfl := Option.some.inj ht
      exact hs.changeNext hf
  · next st _ hd hf =>
      obtain rfl := Option.some.inj ht
      exact hs.changeEnd hd hf
  · next st o rest hd hf =>
      obtain rfl := Option.some.inj ht
      exact hs.failNext hd hf
  · next st hd hf =>
      obtain rfl := Option.some.inj ht
      exact hs.failEnd hf
  · cases ht

theorem resume (hs : Sound w) {e : WatcherEvent} {t : MongoDBWatcher} (hquiet : w.quiet = true)
    (ht : w.resume e = some t) : Sound t := by
  obtain ⟨hf, hd⟩ : w.fanout = none ∧ w.disposing = none := by
    simpa [quiet] using hquiet
  cases e with
  | hello p answer => exact hs.hello hd hf ht
  | resumeListen o => exact hs.resumeListen hd hf ht
  | resumeThen o => exact hs.resumeThen ht
  | next st collection => exact hs.next hd hf ht
  | fail st => exact hs.fail hd hf ht
  | closeSettled st => exact hs.closeSettled hf ht
  | resumeReads o failing => exact hs.resumeReads hd ht
  | resumeLoop o => exact hs.resumeLoop hd ht
  | _ => cases ht

theorem step (hs : Sound w) {e : WatcherEvent} {t : MongoDBWatcher} (ht : w.step e = some t) :
    Sound t := by
  unfold MongoDBWatcher.step at ht
  split at ht
  · obtain rfl := Option.some.inj ht
    exact hs.subscribe _
  · obtain rfl := Option.some.inj ht
    exact hs.close _
  · obtain rfl := Option.some.inj ht
    exact hs.dispose
  · exact hs.unwind ht
  · split_ifs at ht with hquiet
    exact hs.resume hquiet ht

theorem initially (aborted : Bool) : Sound (new aborted) where
  shared :=
    { nodup := List.nodup_nil, current := by simp [new, hub], joined := by simp [new, hub]
      held := by simp [new, hub], opened := by simp [new, hub], flying := by simp [new, hub]
      shut := fun _ _ => ⟨rfl, rfl, rfl⟩, disposed := by simp [new, hub]
      running := by simp [new, hub], delivering := by simp [new, hub]
      failing := by simp [new, hub], closing := by simp [new, hub, pump?]
      unique := by simp [new, hub, pump?, Hub.CapturedBy], disposingNodup := by simp [new, hub] }
  indexed := ⟨by simp [new], by simp [new, hub, pump?, Hub.Captured, Hub.CapturedBy], by simp [new],
    by simp [new]⟩
  kept o obs hobs := by simp [new] at hobs

theorem reachable {aborted : Bool} (h : (machine aborted).Reachable w) : Sound w :=
  Machine.Reachable.invariant (machine aborted) (P := Sound) (initially aborted)
    (fun _ _ _ hs ht => hs.step ht) h

end Sound

/-! ### After a failure -/

@[simp] theorem pump?_modify (w : MongoDBWatcher) (o : ℕ) (f : Observation → Observation) :
    (w.modify o f).pump? = w.pump? := rfl

@[simp] theorem pump?_release (w : MongoDBWatcher) (o : ℕ) : (w.release o).pump? = w.pump? := by
  rw [release]
  split_ifs
  · exact pump?_stop _
  · rfl

@[simp] theorem pump?_close (w : MongoDBWatcher) (o : ℕ) : (w.close o).pump? = w.pump? := by
  rw [close]
  split
  · rfl
  · dsimp only
    split_ifs
    · rfl
    · exact pump?_release _ o
    · rfl

@[simp] theorem pump?_leave (w : MongoDBWatcher) (st : ℕ) : (w.leave st).pump? = w.pump? := by
  rw [leave]
  split_ifs
  · exact pump?_stop w
  · rfl

/-- The pump of the stream `st` keeps `listeners`, to error them or after it has. -/
def Keeps (w : MongoDBWatcher) (st : ℕ) (listeners : List ℕ) : Prop :=
  w.pump? st = some (.closing listeners) ∨ w.pump? st = some (.failed listeners)

theorem Keeps.of_eq {t : MongoDBWatcher} {st : ℕ} {listeners : List ℕ}
    (h : w.Keeps st listeners) (ht : t.pump? = w.pump?) : t.Keeps st listeners := by
  rw [Keeps, ht]
  exact h

theorem Keeps.setPump {st st' : ℕ} {pump pump' : Pump} {listeners : List ℕ}
    (h : w.Keeps st listeners) (hpump : w.pump? st' = some pump)
    (hlive : pump = .awaiting ∨ pump = .delivering) : (w.setPump st' pump').Keeps st listeners := by
  have hne : st ≠ st' := by
    rintro rfl
    rcases h with h | h <;> rcases hlive with rfl | rfl <;>
      exact absurd (hpump.symm.trans h) (by simp)
  rw [Keeps, pump?_setPump hpump, Function.update_of_ne hne]
  exact h

theorem Keeps.unwind {st : ℕ} {listeners : List ℕ} {t : MongoDBWatcher} (h : w.Keeps st listeners)
    (hs : Sound w) (ht : w.unwind = some t) : t.Keeps st listeners := by
  unfold MongoDBWatcher.unwind at ht
  split at ht
  · obtain rfl := Option.some.inj ht
    exact h.of_eq (by simp [MongoDBWatcher.error]; rfl)
  · obtain rfl := Option.some.inj ht
    exact h.of_eq (pump?_stop _)
  · obtain rfl := Option.some.inj ht
    exact h.of_eq rfl
  · next hd hf =>
      obtain rfl := Option.some.inj ht
      have hpump := hs.shared.delivering _ _ _ hf
      split_ifs
      · exact Keeps.setPump (w := { w with fanout := none }) h hpump (Or.inr rfl)
      · refine Keeps.of_eq ?_ (pump?_leave _ _)
        exact Keeps.setPump (w := { w with fanout := none }) h hpump (Or.inr rfl)
  · obtain rfl := Option.some.inj ht
    exact h.of_eq (by simp [MongoDBWatcher.error]; rfl)
  · obtain rfl := Option.some.inj ht
    exact h.of_eq (by simp; rfl)
  · cases ht

theorem Keeps.resume {st : ℕ} {listeners : List ℕ} {e : WatcherEvent} {t : MongoDBWatcher}
    (h : w.Keeps st listeners) (ht : w.resume e = some t) : t.Keeps st listeners := by
  cases e with
  | hello p answer =>
      change w.hello p answer = some t at ht
      unfold MongoDBWatcher.hello at ht
      split at ht
      · split_ifs at ht
        obtain rfl := Option.some.inj ht
        cases answer with
        | failed => exact h.of_eq rfl
        | operationTime watchThrows =>
            rw [helloed]
            split_ifs
            · exact h.of_eq rfl
            · exact h.of_eq rfl
            · exact h.of_eq rfl
            · have hsame : ∀ pump, w.pump? st = some pump →
                  ((w.streams ++ [(⟨false, .awaiting⟩ : ChangeStream)])[st]?).map (fun s => s.pump) =
                    some pump := by
                intro pump hpump
                obtain ⟨s, hs, hp⟩ := Option.map_eq_some_iff.1 hpump
                rw [Sound.getElem?_append_of_some hs, Option.map_some, hp]
              exact h.imp (hsame _) (hsame _)
      · cases ht
  | resumeListen o =>
      change w.resumeListen o = some t at ht
      unfold MongoDBWatcher.resumeListen at ht
      split at ht
      · split at ht
        · obtain rfl := Option.some.inj ht
          split_ifs <;> exact h.of_eq rfl
        · obtain rfl := Option.some.inj ht
          exact h.of_eq rfl
        · cases ht
      · cases ht
  | resumeThen o =>
      change w.resumeThen o = some t at ht
      unfold MongoDBWatcher.resumeThen at ht
      split at ht
      · cases ht
      · split at ht
        · obtain rfl := Option.some.inj ht
          split_ifs
          · exact h.of_eq (pump?_release _ o)
          · exact h.of_eq rfl
        · obtain rfl := Option.some.inj ht
          exact h.of_eq (pump?_close _ o)
        · cases ht
  | next st' collection =>
      change w.next st' collection = some t at ht
      unfold MongoDBWatcher.next at ht
      split at ht
      · next hpump =>
          obtain rfl := Option.some.inj ht
          split_ifs
          · exact Keeps.of_eq (h.setPump hpump (Or.inl rfl)) rfl
          · exact Keeps.of_eq (h.setPump hpump (Or.inl rfl)) (pump?_leave _ _)
      · cases ht
  | fail st' =>
      change w.fail st' = some t at ht
      unfold MongoDBWatcher.fail at ht
      split at ht
      · next hpump =>
          obtain rfl := Option.some.inj ht
          split_ifs
          · exact Keeps.of_eq (h.setPump hpump (Or.inl rfl)) (pump?_stop _)
          · exact Keeps.of_eq (h.setPump hpump (Or.inl rfl)) (pump?_leave _ _)
      · cases ht
  | closeSettled st' =>
      change w.closeSettled st' = some t at ht
      unfold MongoDBWatcher.closeSettled at ht
      split at ht
      · next listeners' hpump =>
          obtain rfl := Option.some.inj ht
          have hupdate : ({ w.setPump st' (.failed listeners') with
              fanout := some (.failing st' listeners') } : MongoDBWatcher).pump? =
              Function.update w.pump? st' (some (.failed listeners')) := pump?_setPump hpump
          rw [Keeps, hupdate]
          by_cases heq : st = st'
          · subst heq
            rcases h with h | h
            · obtain rfl : listeners' = listeners := by simpa using hpump.symm.trans h
              simp
            · exact absurd (hpump.symm.trans h) (by simp)
          · rw [Function.update_of_ne heq]
            exact h
      · cases ht
  | resumeReads o failing =>
      change w.resumeReads o failing = some t at ht
      unfold MongoDBWatcher.resumeReads at ht
      split at ht
      · split at ht
        · obtain rfl := Option.some.inj ht
          split_ifs
          · exact h.of_eq (pump?_close w o)
          · exact h.of_eq rfl
          · exact h.of_eq rfl
        · cases ht
      · cases ht
  | resumeLoop o =>
      change w.resumeLoop o = some t at ht
      unfold MongoDBWatcher.resumeLoop at ht
      split at ht
      · split at ht
        · obtain rfl := Option.some.inj ht
          split_ifs <;> exact h.of_eq rfl
        · cases ht
      · cases ht
  | _ => cases ht

theorem Keeps.step {st : ℕ} {listeners : List ℕ} {e : WatcherEvent} {t : MongoDBWatcher}
    (h : w.Keeps st listeners) (hs : Sound w) (ht : w.step e = some t) : t.Keeps st listeners := by
  unfold MongoDBWatcher.step at ht
  split at ht
  · obtain rfl := Option.some.inj ht
    refine h.of_eq ?_
    rw [MongoDBWatcher.subscribe]
    dsimp only
    split_ifs
    · rfl
    · split <;> rfl
  · obtain rfl := Option.some.inj ht
    exact h.of_eq (pump?_close w _)
  · obtain rfl := Option.some.inj ht
    refine h.of_eq ?_
    rw [MongoDBWatcher.dispose]
    split_ifs <;> rfl
  · exact h.unwind hs ht
  · split_ifs at ht
    exact h.resume ht

theorem Keeps.exec {aborted : Bool} {st : ℕ} {listeners : List ℕ} {es : List WatcherEvent}
    {t : MongoDBWatcher} (h : w.Keeps st listeners) (hs : Sound w)
    (hrun : (machine aborted).exec w es = some t) : Sound t ∧ t.Keeps st listeners :=
  (machine aborted).exec_preserves (C := fun _ _ => True)
    (P := fun w => Sound w ∧ w.Keeps st listeners)
    (fun _ _ _ hw _ ht => ⟨hw.1.step ht, hw.2.step hw.1 ht⟩) ⟨hs, h⟩
    ((machine aborted).within_true w es) hrun

/-- The listeners of a stream that fails are errored once, when it has been closed. -/
theorem Sound.errored_of_fail {aborted : Bool} (hs : Sound w) {st : ℕ} {t u : MongoDBWatcher}
    {es : List WatcherEvent} (hlive : w.live st = true) (ht : w.step (.fail st) = some t)
    (hrun : (machine aborted).exec t es = some u) (ho : o ∈ w.listeners) :
    ∃ obs, u.observations[o]? = some obs ∧
      (obs.errors = 1 ∨ obs.errors = 0 ∧ u.hub.Pending st o) := by
  have hst : Sound t := hs.step ht
  have hkeeps : t.Keeps st w.listeners := by
    unfold MongoDBWatcher.step at ht
    dsimp only at ht
    split_ifs at ht
    change w.fail st = some t at ht
    unfold MongoDBWatcher.fail at ht
    split at ht
    · next hpump =>
        obtain rfl := Option.some.inj ht
        rw [if_pos hlive]
        refine Or.inl ?_
        rw [pump?_stop]
        change (w.setPump st (.closing w.listeners)).pump? st = _
        rw [pump?_setPump hpump, Function.update_self]
    · cases ht
  obtain ⟨hu, hkeeps⟩ := hkeeps.exec hst hrun
  have hby : u.hub.CapturedBy st o := by
    rcases hkeeps with h | h <;> exact ⟨_, h, ho⟩
  have hlt := hu.indexed.captured o ⟨st, hby⟩
  refine ⟨u.observations[o], List.getElem?_eq_getElem hlt, ?_⟩
  have hk := hu.kept o _ (List.getElem?_eq_getElem hlt)
  rcases (hk.lost st hby).2.2 with herrors | hpending
  · exact Or.inl herrors
  · exact Or.inr ⟨hk.pending st hpending, hpending⟩

/-- Only the current stream is open. A listener that was granted, and neither released nor
errored, is in the set of a watcher with a current stream, or its stream has failed and it
is errored once that is closed; nobody is errored twice. Without listeners there is no stream,
and the next subscription opens one. An idle read loop of an open observation has emitted what
it read after the last change, unless the observation is about to be errored. -/
theorem listeners_watched {aborted : Bool} {w : MongoDBWatcher}
    (h : (machine aborted).Reachable w) :
    (∀ st, (∃ s, w.streams[st]? = some s ∧ s.closed = false) ↔ w.stream = some st) ∧
      (∀ (o : ℕ) obs, w.observations[o]? = some obs → obs.call = .granted ∨ obs.call = .attached →
        obs.released = false → obs.errors = 0 →
        (o ∈ w.listeners ∧ w.stream.isSome = true) ∨ ∃ st, w.hub.Pending st o) ∧
      (∀ (o : ℕ) obs, w.observations[o]? = some obs → obs.errors ≤ 1) ∧
      (∀ st t es u, w.live st = true → w.step (.fail st) = some t →
        (machine aborted).exec t es = some u → ∀ o ∈ w.listeners,
          ∃ obs, u.observations[o]? = some obs ∧
            (obs.errors = 1 ∨ obs.errors = 0 ∧ u.hub.Pending st o)) ∧
      ((∀ (o : ℕ) obs, w.observations[o]? = some obs → obs.released = true → o ∉ w.listeners) ∧
        (w.listeners = [] → w.stream = none ∧ w.opening = none) ∧
        (∀ names, w.disposed = false → w.opening = none →
          (w.subscribe names).opening = some w.starts.length ∧
            (w.subscribe names).starts[w.starts.length]? = some (.awaiting w.generation)) ∧
        ∀ p t, w.disposed = false → w.opening = some p →
          w.step (.hello p (.operationTime false)) = some t →
            t.stream = some w.streams.length ∧
              t.streams = w.streams ++ [⟨false, .awaiting⟩]) ∧
      (∀ (o : ℕ) obs l, w.observations[o]? = some obs → obs.loop = some l → obs.closed = false →
        l.phase = .idle → (∀ st, ¬w.hub.Pending st o) →
        l.dirty = false ∧ (l.emitted.getLast? = some l.seen ∨ l.emitted = [] ∧ l.seen = 0)) := by
  have hs := Sound.reachable h
  have hpending : ∀ o obs, w.observations[o]? = some obs → obs.closed = false ∨ obs.errors = 0 →
      w.hub.Captured o → ∃ st, w.hub.Pending st o := by
    rintro o obs hobs hopen ⟨st, hst⟩
    have hk := hs.kept o obs hobs
    refine ⟨st, (hk.lost st hst).2.2.resolve_left fun herrors => ?_⟩
    rcases hopen with hopen | hzero
    · exact absurd (hopen.symm.trans (hk.closed herrors)) (by decide)
    · exact absurd (hzero.symm.trans herrors) (by decide)
  have hidle : w.listeners = [] → w.stream = none ∧ w.opening = none := by
    intro hlisteners
    have hnone : w.stream = none := by
      cases hst : w.stream with
      | none => rfl
      | some st =>
          exact absurd hlisteners (hs.shared.joined (by rw [hub, hst]; rfl))
    refine ⟨hnone, ?_⟩
    cases hopening : w.opening with
    | none => rfl
    | some p =>
        obtain ⟨o, ho, -⟩ := hs.indexed.creator p hopening hnone
        rw [hlisteners] at ho
        cases ho
  refine ⟨fun st => (hs.shared.current st).symm, ?_, fun o obs hobs => (hs.kept o obs hobs).errors,
    fun st t es u hlive ht hrun o ho => hs.errored_of_fail hlive ht hrun ho,
    ⟨fun o obs hobs => (hs.kept o obs hobs).gone, hidle, ?_, ?_⟩, ?_⟩
  · intro o obs hobs hcall hreleased herrors
    have hk := hs.kept o obs hobs
    rcases hk.place with hr | he | hc | hj
    · exact absurd (hreleased.symm.trans hr) (by decide)
    · exact absurd (herrors.symm.trans he) (by decide)
    · exact Or.inr (hpending o obs hobs (Or.inr herrors) hc)
    · refine Or.inl ?_
      rcases hcall with hcall | hcall <;> rw [hcall] at hj <;> exact hj
  · intro names hdisposed hopening
    rw [subscribe, if_neg (by simp [hdisposed])]
    simp [hopening]
  · intro p t hdisposed hopening ht
    unfold step at ht
    dsimp only at ht
    split_ifs at ht
    change w.hello p _ = some t at ht
    unfold hello at ht
    split at ht
    · next generation hflying =>
        split_ifs at ht
        obtain rfl := Option.some.inj ht
        have hnone := hs.stream_none hflying hopening
        have hgeneration : generation = w.generation := by
          simpa using hs.not_settled hopening hnone hflying
        obtain ⟨o, ho, -⟩ := hs.indexed.creator p hopening hnone
        have hlisteners : w.listeners ≠ [] := List.ne_nil_of_mem ho
        simp [helloed, hdisposed, hgeneration, hlisteners]
    · cases ht
  · intro o obs l hobs hl hopen hphase hfree
    rcases ((hs.kept o obs hobs).reads l hl).idle hphase with hc | hc | hlatest
    · exact absurd (hopen.symm.trans hc) (by decide)
    · obtain ⟨st, hst⟩ := hpending o obs hobs (Or.inl hopen) hc
      exact absurd hst (hfree st)
    · exact hlatest

/-- A stream fails under a `select`, and another one joins while it is being closed. -/
def replaced : List WatcherEvent :=
  [.subscribe (some ["a"]), .hello 0 (.operationTime false), .resumeListen 0, .resumeThen 0,
    .resumeReads 0 false, .resumeLoop 0, .fail 0, .subscribe none,
    .hello 1 (.operationTime false), .resumeListen 1]

theorem listeners_watched_replaced :
    ∃ w, (machine false).exec (new false) replaced = some w ∧
      ((1 ∈ w.listeners ∧ w.stream.isSome = true) ∨ ∃ st, w.hub.Pending st 1) := by
  have hreachable : ∀ w, (machine false).exec (new false) replaced = some w →
      (machine false).Reachable w := fun w hw => ⟨replaced, hw⟩
  exact ⟨_, rfl, (listeners_watched (hreachable _ rfl)).2.1 1 _ rfl (Or.inl rfl) rfl rfl⟩

/-- Until the failed stream is closed, its listener is in no set. -/
theorem detached_listener :
    ¬ ∀ w, (machine false).Reachable w → ∀ o obs, w.observations[o]? = some obs →
      obs.call = .granted ∨ obs.call = .attached → obs.released = false → obs.errors = 0 →
      o ∈ w.listeners ∧ w.stream.isSome = true := by
  intro h
  have hlistens := (h _ ⟨replaced, rfl⟩ 0 _ rfl (Or.inr rfl) rfl rfl).1
  revert hlistens
  decide

end MongoDBWatcher

end Arc.MongoDB
