import Arc.MongoDB.WatcherHub

/-!
# The listeners of a watcher

An observation leaves the listeners by its release, by the failure of its stream or by the
disposal. Each of these steps keeps the invariants of the hub and of the observations.
-/

namespace Arc.MongoDB

namespace MongoDBWatcher

def hub (w : MongoDBWatcher) : Hub where
  listeners := w.listeners
  stream := w.stream
  opening := w.opening
  start p := w.starts[p]?
  pump := w.pump?
  fanout := w.fanout
  disposing := w.disposing

/-- Every listener is an observation, and an opening under way is awaited by one. -/
structure Indexed (w : MongoDBWatcher) : Prop where
  known : ∀ o ∈ w.listeners, o < w.observations.length
  captured : ∀ o, w.hub.Captured o → o < w.observations.length
  fanned : ∀ st collection rest, w.fanout = some (.change st collection rest) →
    ∀ o ∈ rest, o < w.observations.length
  creator : ∀ p, w.opening = some p → w.stream = none →
    ∃ o ∈ w.listeners, w.call? o = some (.awaiting p)

structure Sound (w : MongoDBWatcher) : Prop where
  shared : Shared w.hub w.generation w.disposed w.streams
  indexed : Indexed w
  kept : ∀ o obs, w.observations[o]? = some obs → Kept w.hub o obs

variable {w : MongoDBWatcher} {o : ℕ}

theorem getElem?_modify_self {f : Observation → Observation} {obs : Observation}
    (hobs : w.observations[o]? = some obs) :
    (w.modify o f).observations[o]? = some (f obs) := by
  simp [modify, hobs]

theorem getElem?_modify_ne {f : Observation → Observation} {o' : ℕ} (hne : o' ≠ o) :
    (w.modify o f).observations[o']? = w.observations[o']? := by
  simp [modify, Ne.symm hne]

theorem pump?_stop (w : MongoDBWatcher) : w.stop.pump? = w.pump? := by
  funext st
  rw [pump?, pump?, stop]
  cases w.stream with
  | none => rfl
  | some st' =>
      rw [List.getElem?_modify]
      cases w.streams[st]? with
      | none => rfl
      | some s => by_cases hst : st' = st <;> simp [hst]

theorem hub_stop (w : MongoDBWatcher) :
    w.stop.hub = { w.hub with stream := none, opening := none } := by
  rw [hub, pump?_stop]
  rfl

theorem pump?_setPump {st : ℕ} {pump pump' : Pump} (hpump : w.pump? st = some pump) :
    (w.setPump st pump').pump? = Function.update w.pump? st (some pump') := by
  funext st'
  rw [pump?, setPump, List.getElem?_modify]
  by_cases hst : st' = st
  · subst hst
    obtain ⟨s, hs, -⟩ := Option.map_eq_some_iff.1 hpump
    simp [hs]
  · rw [Function.update_of_ne hst, pump?]
    cases w.streams[st']? with
    | none => rfl
    | some s => simp [Ne.symm hst]

theorem hub_setPump {st : ℕ} {pump pump' : Pump} (hpump : w.pump? st = some pump) :
    (w.setPump st pump').hub =
      { w.hub with pump := Function.update w.pump? st (some pump') } := by
  rw [hub, pump?_setPump hpump]
  rfl

theorem start_settleStart {p : ℕ} {start start' : Start} (hstart : w.starts[p]? = some start) :
    (w.settleStart p start').hub.start =
      Function.update w.hub.start p (some start') := by
  funext p'
  by_cases hp : p' = p
  · subst hp
    have hlt := (List.getElem?_eq_some_iff.1 hstart).1
    simp [hub, settleStart, hlt]
  · rw [Function.update_of_ne hp]
    simp [hub, settleStart, List.getElem?_set_ne (Ne.symm hp)]

/-- Stopping closes the stream that was still open. -/
theorem closed_stop
    (hcurrent : ∀ st, (∃ s, w.streams[st]? = some s ∧ s.closed = false) → w.stream = some st)
    {st : ℕ} {s : ChangeStream} (hst : w.stop.streams[st]? = some s) : s.closed = true := by
  rw [stop] at hst
  cases hstream : w.stream with
  | none =>
      rw [hstream] at hst
      cases hclosed : s.closed with
      | true => rfl
      | false =>
          have hst' := hcurrent st ⟨s, hst, hclosed⟩
          exact absurd (hstream.symm.trans hst') (by simp)
  | some st' =>
      rw [hstream] at hst
      change (w.streams.modify st' fun s => { s with closed := true })[st]? = some s at hst
      rw [List.getElem?_modify] at hst
      obtain ⟨s', hs', rfl⟩ := Option.map_eq_some_iff.1 hst
      split_ifs with heq
      · rfl
      · cases hclosed : s'.closed with
        | true => rfl
        | false =>
            have hst' := hcurrent st ⟨s', hs', hclosed⟩
            exact absurd (Option.some.inj (hstream.symm.trans hst')) heq

/-- The observation `o` goes on with its call, or keeps it. -/
theorem Indexed.modify (hi : Indexed w) {f : Observation → Observation}
    (hcall : ∀ obs, w.observations[o]? = some obs → (f obs).call = obs.call ∨
      ∀ p, w.opening = some p → w.stream = none → obs.call ≠ .awaiting p) :
    Indexed (w.modify o f) where
  known o' ho' := by
    rw [MongoDBWatcher.modify, List.length_modify]
    exact hi.known o' ho'
  captured o' ho' := by
    rw [MongoDBWatcher.modify, List.length_modify]
    exact hi.captured o' ho'
  fanned st collection rest hf o' ho' := by
    rw [MongoDBWatcher.modify, List.length_modify]
    exact hi.fanned st collection rest hf o' ho'
  creator p hp hnone := by
    obtain ⟨o', ho', hcreator⟩ := hi.creator p hp hnone
    refine ⟨o', ho', ?_⟩
    rw [call?] at hcreator ⊢
    by_cases heq : o' = o
    · subst heq
      obtain ⟨obs, hobs, hawaits⟩ := Option.map_eq_some_iff.1 hcreator
      rw [getElem?_modify_self hobs, Option.map_some]
      rcases hcall obs hobs with hsame | hother
      · rw [hsame, hawaits]
      · exact absurd hawaits (hother p hp hnone)
    · rw [getElem?_modify_ne heq]
      exact hcreator

namespace Sound

/-- One observation changes, and the hub does not. -/
theorem of_modify (hs : Shared w.hub w.generation w.disposed w.streams) (hi : Indexed w)
    {f : Observation → Observation}
    (hcall : ∀ obs, w.observations[o]? = some obs → (f obs).call = obs.call ∨
      ∀ p, w.opening = some p → w.stream = none → obs.call ≠ .awaiting p)
    (hkept : ∀ o' obs, w.observations[o']? = some obs → o' ≠ o → Kept w.hub o' obs)
    (hself : ∀ obs, w.observations[o]? = some obs → Kept w.hub o (f obs)) :
    Sound (w.modify o f) where
  shared := hs
  indexed := hi.modify hcall
  kept o' obs' hobs' := by
    by_cases heq : o' = o
    · subst heq
      cases hobs : w.observations[o']? with
      | none => simp [MongoDBWatcher.modify, hobs] at hobs'
      | some obs =>
          rw [getElem?_modify_self hobs] at hobs'
          obtain rfl := Option.some.inj hobs'
          exact hself obs hobs
    · rw [getElem?_modify_ne heq] at hobs'
      exact hkept o' obs' hobs' heq

theorem modify (hs : Sound w) {obs : Observation} (hobs : w.observations[o]? = some obs)
    {f : Observation → Observation} (hk : Kept w.hub o (f obs))
    (hcall : (f obs).call = obs.call ∨
      ∀ p, w.opening = some p → w.stream = none → obs.call ≠ .awaiting p) :
    Sound (w.modify o f) := by
  refine of_modify hs.shared hs.indexed (fun obs' hobs' => ?_)
    (fun o' obs' hobs' _ => hs.kept o' obs' hobs') fun obs' hobs' => ?_
  · obtain rfl := Option.some.inj (hobs.symm.trans hobs')
    exact hcall
  · obtain rfl := Option.some.inj (hobs.symm.trans hobs')
    exact hk

/-- The observation `o` changes and is taken out of the listeners. -/
theorem remove (hs : Sound w) {obs : Observation} (hobs : w.observations[o]? = some obs)
    {f : Observation → Observation}
    (hopening : ∀ p, w.opening = some p → w.stream = none → obs.call ≠ .awaiting p)
    (hk : Kept { w.hub with listeners := w.listeners.erase o } o (f obs))
    (hjoined : w.stream.isSome = true → w.listeners.erase o ≠ []) :
    Sound ((w.modify o f).delete o) := by
  have hi : Indexed (w.delete o) := by
    refine ⟨fun o' ho' => hs.indexed.known o' (List.mem_of_mem_erase ho'), hs.indexed.captured,
      hs.indexed.fanned, fun p hp hnone => ?_⟩
    obtain ⟨o', ho', hcreator⟩ := hs.indexed.creator p hp hnone
    have hne : o' ≠ o := by
      rintro rfl
      rw [call?, hobs, Option.map_some] at hcreator
      exact hopening p hp hnone (Option.some.inj hcreator)
    exact ⟨o', (List.mem_erase_of_ne hne).2 ho', hcreator⟩
  refine of_modify (w := w.delete o) (hs.shared.delete hjoined) hi (fun obs' hobs' => Or.inr ?_)
    (fun o' obs' hobs' hne => ?_) fun obs' hobs' => ?_
  · obtain rfl := Option.some.inj (hobs.symm.trans hobs')
    exact hopening
  · exact (hs.kept o' obs' hobs').transfer (fun _ _ => rfl) (fun _ => Iff.rfl)
      (fun _ => Iff.rfl) rfl (List.mem_erase_of_ne hne) (fun _ => ⟨rfl, fun _ hp => hp⟩)
      fun st collection rest hf ho => Or.inl ⟨st, collection, rest, hf, ho⟩
  · obtain rfl := Option.some.inj (hobs.symm.trans hobs')
    exact hk

/-- The stream is stopped, and no listener is left. -/
theorem stopped (hs : Shared { w.hub with listeners := [], stream := none, opening := none }
      (w.generation + 1) w.disposed w.stop.streams)
    (hkept : ∀ o obs, w.observations[o]? = some obs →
      Kept { w.hub with listeners := [], stream := none, opening := none } o obs)
    (hcaptured : ∀ o, w.hub.Captured o → o < w.observations.length)
    (hfanned : ∀ st collection rest, w.fanout = some (.change st collection rest) →
      ∀ o ∈ rest, o < w.observations.length) :
    Sound { w with listeners := [] }.stop := by
  have hhub : ({ w with listeners := [] } : MongoDBWatcher).stop.hub =
      { w.hub with listeners := [], stream := none, opening := none } := hub_stop _
  refine ⟨?_, ⟨fun o ho => by simp [stop] at ho, ?_, hfanned, fun p hp => by simp [stop] at hp⟩,
    ?_⟩
  · rw [hhub]
    exact hs
  · rw [hhub]
    exact hcaptured
  · rw [hhub]
    exact hkept

theorem release (hs : Sound w) {obs : Observation} (hobs : w.observations[o]? = some obs)
    (hclosed : obs.closed = true) (hcall : obs.call = .attached) : Sound (w.release o) := by
  have hk : ∀ h : Hub, h.pump = w.hub.pump → h.fanout = w.fanout →
      h.disposing = w.disposing → h.listeners = w.listeners.erase o →
      Kept h o { obs with released := true } := by
    intro h hpump hfanout hdisposing hlisteners
    refine (hs.kept o obs hobs).leave hpump hfanout hdisposing ?_ rfl rfl rfl
      (fun _ => ⟨hclosed, hcall⟩) (fun p hp => ?_) (Or.inl rfl) (Or.inl hclosed)
    · rw [hlisteners]
      exact fun ho => (hs.shared.nodup.mem_erase_iff.1 ho).1 rfl
    · exact absurd (hcall.symm.trans hp) (by simp)
  by_cases hnil : w.listeners.erase o = []
  · have heq : w.release o =
        { w.modify o fun obs => { obs with released := true } with listeners := [] }.stop := by
      simp [MongoDBWatcher.release, delete, MongoDBWatcher.modify, hnil]
    rw [heq]
    refine stopped (hs.shared.stop fun st s hst => closed_stop (fun st => (hs.shared.current st).2) hst) ?_ ?_ ?_
    · intro o' obs' hobs'
      by_cases hne : o' = o
      · subst hne
        rw [getElem?_modify_self hobs] at hobs'
        obtain rfl := Option.some.inj hobs'
        exact hk _ rfl rfl rfl hnil.symm
      · rw [getElem?_modify_ne hne] at hobs'
        have hnot : o' ∉ w.listeners := fun ho' => by
          have hmem := (List.mem_erase_of_ne hne).2 ho'
          rw [hnil] at hmem
          cases hmem
        exact (hs.kept o' obs' hobs').transfer (fun _ _ => rfl) (fun _ => Iff.rfl)
          (fun _ => Iff.rfl) rfl ⟨fun ho' => by simp at ho', fun ho' => absurd ho' hnot⟩
          (fun ho' => absurd ho' hnot)
          fun st collection rest hf ho => Or.inl ⟨st, collection, rest, hf, ho⟩
    · intro o' ho'
      rw [MongoDBWatcher.modify, List.length_modify]
      exact hs.indexed.captured o' ho'
    · intro st collection rest hf o' ho'
      rw [MongoDBWatcher.modify, List.length_modify]
      exact hs.indexed.fanned st collection rest hf o' ho'
  · have heq : w.release o = (w.modify o fun obs => { obs with released := true }).delete o := by
      simp [MongoDBWatcher.release, delete, MongoDBWatcher.modify, hnil]
    rw [heq]
    refine hs.remove hobs (fun p _ _ hp => ?_) (hk _ rfl rfl rfl rfl) fun _ => hnil
    exact absurd (hcall.symm.trans hp) (by simp)

/-- The subscriber of `o` is closed. -/
theorem close (hs : Sound w) (o : ℕ) : Sound (w.close o) := by
  rw [MongoDBWatcher.close]
  cases hobs : w.observations[o]? with
  | none => exact hs
  | some obs =>
      dsimp only
      have hk := (hs.kept o obs hobs).close
      have hshut := hs.modify (f := fun obs => { obs with closed := true }) hobs hk (Or.inl rfl)
      split_ifs with hclosed hattached
      · exact hs
      · exact hshut.release (getElem?_modify_self hobs) rfl hattached
      · exact hshut

/-! ### Errors -/

/-- The observation `o` is closed by its error, if it was not closed before. -/
def errored (w : MongoDBWatcher) (o : ℕ) : MongoDBWatcher :=
  w.modify o fun obs => { obs with errors := obs.errors + 1, closed := true }

theorem error_eq {obs : Observation} (hobs : w.observations[o]? = some obs) :
    w.error o = if obs.closed = false ∧ obs.call = .attached then (errored w o).release o
      else errored w o := by
  have hcounted : (w.modify o fun obs => { obs with errors := obs.errors + 1 }).observations[o]? =
      some { obs with errors := obs.errors + 1 } := getElem?_modify_self hobs
  have htwice : (w.modify o fun obs => { obs with errors := obs.errors + 1 }).modify o
      (fun obs => { obs with closed := true }) = errored w o := by
    simp only [errored, MongoDBWatcher.modify, List.modify_modify_eq]
    rfl
  have honce : obs.closed = true →
      (w.modify o fun obs => { obs with errors := obs.errors + 1 }) = errored w o := by
    intro hclosed
    have hlist : (w.observations.modify o fun obs => { obs with errors := obs.errors + 1 }) =
        w.observations.modify o fun obs => { obs with errors := obs.errors + 1, closed := true } := by
      refine List.ext_getElem? fun o' => ?_
      rw [List.getElem?_modify, List.getElem?_modify]
      by_cases heq : o = o'
      · subst heq
        simp [hobs, hclosed]
      · simp [heq]
    rw [errored, MongoDBWatcher.modify, MongoDBWatcher.modify, hlist]
  rw [MongoDBWatcher.error, MongoDBWatcher.close, hcounted]
  dsimp only
  by_cases hclosed : obs.closed = true
  · simp [hclosed, honce hclosed]
  · rw [htwice]
    simp [hclosed]

/-- A loop over listeners gives `o` its error. -/
theorem error (hs : Shared w.hub w.generation w.disposed w.streams) (hi : Indexed w)
    (hkept : ∀ o' obs, w.observations[o']? = some obs → o' ≠ o → Kept w.hub o' obs)
    (hself : ∀ obs, w.observations[o]? = some obs →
      Kept w.hub o { obs with errors := obs.errors + 1, closed := true }) :
    Sound (w.error o) := by
  have herrored : Sound (errored w o) := of_modify hs hi (fun _ _ => Or.inl rfl) hkept hself
  cases hobs : w.observations[o]? with
  | none =>
      have heq : w.error o = errored w o := by
        have hlength : w.observations.length ≤ o := by simpa using hobs
        simp [MongoDBWatcher.error, errored, MongoDBWatcher.modify, MongoDBWatcher.close,
          List.modify_eq_self hlength, hobs]
      rw [heq]
      exact herrored
  | some obs =>
      rw [error_eq hobs]
      split_ifs with hattached
      · exact herrored.release (getElem?_modify_self hobs) rfl hattached.2
      · exact herrored

/-! ### Loops over listeners -/

theorem capturedBy_of_pending (hs : Shared w.hub w.generation w.disposed w.streams) {st : ℕ}
    (hp : w.hub.Pending st o) : w.hub.CapturedBy st o := by
  rcases hp with ⟨listeners, hpump, ho⟩ | ⟨rest, hf, ho⟩
  · exact ⟨_, hpump, ho⟩
  · obtain ⟨-, listeners, hpump, hmem⟩ := hs.failing st rest hf
    exact ⟨_, hpump, hmem o ho⟩

/-- The disposal errors its next listener. -/
theorem disposeNext (hs : Sound w) {rest : List ℕ} (hd : w.disposing = some (o :: rest)) :
    Sound ({ w with disposing := some rest }.error o) := by
  have hnodup := hs.shared.disposingNodup _ hd
  have hshared : Shared { w.hub with disposing := some rest } w.generation w.disposed w.streams := by
    refine hs.shared.setDisposing (fun _ hnone => by simp at hnone) (fun _ => ?_) fun rest' hrest => ?_
    · exact hs.shared.disposed (by rw [hub, hd]; rfl)
    · obtain rfl := Option.some.inj hrest
      exact (List.nodup_cons.1 hnodup).2
  refine error hshared ⟨hs.indexed.known, hs.indexed.captured, hs.indexed.fanned,
    hs.indexed.creator⟩ (fun o' obs hobs hne => ?_) fun obs hobs => ?_
  · have hk := hs.kept o' obs hobs
    refine
      { errors := hk.errors, closed := hk.closed, released := hk.released, gone := hk.gone
        known := hk.known
        place := hk.place, stray := hk.stray, clean := fun hnone => by simp [hub] at hnone, due := ?_
        left := ?_, lost := ?_, pending := hk.pending, change := hk.change
        reads := fun l hl => ?_ }
    · intro rest' hrest ho'
      obtain rfl := Option.some.inj hrest
      exact hk.due _ hd (List.mem_cons_of_mem o ho')
    · intro rest' hrest ho'
      obtain rfl := Option.some.inj hrest
      exact (hk.left _ hd ho').imp_left fun hmem => List.mem_of_ne_of_mem hne hmem
    · intro st hst
      obtain ⟨hnot, hrest, hor⟩ := hk.lost st hst
      refine ⟨hnot, fun rest' hrest' ho' => ?_, hor⟩
      obtain rfl := Option.some.inj hrest'
      exact hrest _ hd (List.mem_cons_of_mem o ho')
    · have hr := hk.reads l hl
      exact ⟨hr.reading, hr.delivered, hr.idle, hr.running⟩
  · have hk := hs.kept o obs hobs
    have herrors := hk.due _ hd List.mem_cons_self
    have hfree : ∀ st, ¬w.hub.CapturedBy st o := fun st hst =>
      (hk.lost st hst).2.1 _ hd List.mem_cons_self
    have hone : obs.errors + 1 = 1 := by rw [herrors]
    refine
      { errors := Nat.le_of_eq hone, closed := fun _ => rfl, released := fun hr => ⟨rfl, (hk.released hr).2⟩
        gone := hk.gone, known := hk.known, place := Or.inr (Or.inl hone), stray := hk.stray
        clean := fun hnone => by simp [hub] at hnone, due := ?_, left := fun _ _ _ => Or.inr hone
        lost := fun st hst => absurd hst (hfree st)
        pending := fun st hst => absurd (capturedBy_of_pending hs.shared hst) (hfree st)
        change := fun _ _ _ _ _ => Or.inl rfl, reads := fun l hl => ?_ }
    · intro rest' hrest ho
      obtain rfl := Option.some.inj hrest
      exact absurd ho (List.nodup_cons.1 hnodup).1
    · have hr := hk.reads l hl
      exact ⟨hr.reading, hr.delivered, fun _ => Or.inl rfl, fun _ => Or.inl rfl⟩

/-- The disposal has errored everybody. -/
theorem disposeEnd (hs : Sound w) (hd : w.disposing = some []) :
    Sound { w with disposing := none, listeners := [] }.stop := by
  have hstop := hs.shared.stop fun st s hst => closed_stop (fun st => (hs.shared.current st).2) hst
  have hshared : Shared
      { w.hub with listeners := [], stream := none, opening := none, disposing := none }
      (w.generation + 1) w.disposed w.stop.streams :=
    hstop.setDisposing (fun _ _ => ⟨rfl, rfl, rfl⟩) (fun hsome => by simp at hsome)
      fun rest hrest => by simp at hrest
  refine stopped (w := { w with disposing := none }) hshared (fun o obs hobs => ?_)
    hs.indexed.captured hs.indexed.fanned
  have hk := hs.kept o obs hobs
  have hout : o ∈ w.listeners → obs.errors = 1 := fun ho =>
    (hk.left [] hd ho).resolve_left (by simp)
  have hclosed : o ∈ w.listeners → obs.closed = true := fun ho => hk.closed (hout ho)
  refine
    { errors := hk.errors, closed := hk.closed, released := hk.released
      gone := fun _ ho => by simp at ho
      known := hk.known, place := ?_, stray := fun _ _ _ _ ho => by simp at ho, clean := fun _ ho => by simp at ho
      due := fun _ hrest => by simp [hub] at hrest, left := fun _ hrest => by simp [hub] at hrest
      lost := fun st hst => ⟨by simp, by simp [hub], (hk.lost st hst).2.2⟩, pending := hk.pending
      change := fun st collection rest hf ho => ?_, reads := fun l hl => ?_ }
  · by_cases ho : o ∈ w.listeners
    · exact Or.inr (Or.inl (hout ho))
    · refine hk.place.imp_right (Or.imp_right (Or.imp_right fun hj => ?_))
      cases hcall : obs.call with
      | awaiting p =>
          rw [hcall] at hj
          change w.hub.Awaits o p (w.hub.start p) at hj
          change Hub.Awaits _ o p (w.hub.start p)
          cases hstart : w.hub.start p with
          | none => rw [hstart] at hj; exact hj
          | some start =>
              rw [hstart] at hj
              cases start with
              | awaiting g => exact absurd hj.1 ho
              | fulfilled => exact absurd hj.1 ho
              | rejected => trivial
      | granted => rw [hcall] at hj; exact absurd hj.1 ho
      | attached => rw [hcall] at hj; exact absurd hj.1 ho
      | rejected => trivial
      | finished => trivial
  · exact (hk.change st collection rest hf ho).elim Or.inl fun hin => Or.inl (hclosed hin.1)
  · have hr := hk.reads l hl
    refine ⟨hr.reading, hr.delivered, hr.idle, fun hp => ?_⟩
    rcases hr.running hp with hc | hc | hc
    · exact Or.inl hc
    · exact Or.inr (Or.inl hc)
    · exact Or.inl (hclosed hc.1)

/-- The rest of a failed stream's listeners is called after `o`. -/
theorem failNext (hs : Sound w) {st : ℕ} {rest : List ℕ} (hd : w.disposing = none)
    (hf : w.fanout = some (.failing st (o :: rest))) :
    Sound ({ w with fanout := some (.failing st rest) }.error o) := by
  obtain ⟨hnodup, listeners, hpump, hmem⟩ := hs.shared.failing _ _ hf
  have hshared : Shared { w.hub with fanout := some (.failing st rest) } w.generation w.disposed
      w.streams :=
    { nodup := hs.shared.nodup, current := hs.shared.current, joined := hs.shared.joined
      held := hs.shared.held, opened := hs.shared.opened, flying := hs.shared.flying
      shut := hs.shared.shut, disposed := hs.shared.disposed, running := hs.shared.running
      delivering := fun _ _ _ hf' => by simp at hf'
      failing := fun st' rest' hf' => by
        obtain ⟨rfl, rfl⟩ : st = st' ∧ rest = rest' := by simpa using hf'
        exact ⟨(List.nodup_cons.1 hnodup).2, listeners, hpump,
          fun o' ho' => hmem o' (List.mem_cons_of_mem o ho')⟩
      closing := hs.shared.closing, unique := hs.shared.unique
      disposingNodup := hs.shared.disposingNodup }
  have hself : w.hub.CapturedBy st o := ⟨_, hpump, hmem o List.mem_cons_self⟩
  refine error hshared ⟨hs.indexed.known, hs.indexed.captured, fun _ _ _ hf' => by simp at hf',
    hs.indexed.creator⟩ (fun o' obs hobs hne => ?_) fun obs hobs => ?_
  · refine (hs.kept o' obs hobs).transfer (fun _ _ => rfl) (fun _ => Iff.rfl) (fun st' => ?_) rfl
      Iff.rfl (fun _ => ⟨rfl, fun _ hp => hp⟩) fun _ _ _ hf' => by simp [hub] at hf'
    refine or_congr Iff.rfl ⟨?_, ?_⟩
    · rintro ⟨rest', hrest', ho'⟩
      obtain ⟨rfl, rfl⟩ : st = st' ∧ rest = rest' := by simpa [hub] using hrest'
      exact ⟨o :: rest, hf, List.mem_cons_of_mem o ho'⟩
    · rintro ⟨rest', hrest', ho'⟩
      obtain ⟨rfl, rfl⟩ : st = st' ∧ o :: rest = rest' := by simpa using hf.symm.trans hrest'
      exact ⟨rest, rfl, List.mem_of_ne_of_mem hne ho'⟩
  · have hk := hs.kept o obs hobs
    obtain ⟨hnot, -, -⟩ := hk.lost st hself
    have herrors := hk.pending st (Or.inr ⟨_, hf, List.mem_cons_self⟩)
    have hone : obs.errors + 1 = 1 := by rw [herrors]
    refine
      { errors := Nat.le_of_eq hone, closed := fun _ => rfl
        released := fun hr => ⟨rfl, (hk.released hr).2⟩, gone := hk.gone, known := hk.known
        place := Or.inr (Or.inl hone), stray := hk.stray, clean := fun _ ho => absurd ho hnot
        due := fun _ hrest => absurd (hd.symm.trans hrest) (by simp)
        left := fun _ _ ho => absurd ho hnot
        lost := fun st' hst' => ⟨hnot, (hk.lost st' hst').2.1, Or.inl hone⟩
        pending := fun st' hst' => ?_, change := fun _ _ _ _ _ => Or.inl rfl
        reads := fun l hl => ?_ }
    · exfalso
      rcases hst' with ⟨listeners', hpump', ho⟩ | ⟨rest', hrest', ho⟩
      · obtain rfl := hs.shared.unique o st st' hself ⟨_, hpump', ho⟩
        exact absurd (hpump.symm.trans hpump') (by simp)
      · obtain ⟨rfl, rfl⟩ : st = st' ∧ rest = rest' := by simpa [hub] using hrest'
        exact (List.nodup_cons.1 hnodup).1 ho
    · have hr := hk.reads l hl
      exact ⟨hr.reading, hr.delivered, fun _ => Or.inl rfl, fun _ => Or.inl rfl⟩

/-- Everybody has been told of the failed stream. -/
theorem failEnd (hs : Sound w) {st : ℕ} (hf : w.fanout = some (.failing st [])) :
    Sound ({ w with fanout := none }.leave st) := by
  obtain ⟨-, listeners, hpump, -⟩ := hs.shared.failing _ _ hf
  have hstream : w.stream ≠ some st := fun hst => by
    rcases hs.shared.running st hst with hp | hp <;>
      exact absurd (hpump.symm.trans hp) (by simp)
  have hleave : ({ w with fanout := none } : MongoDBWatcher).leave st = { w with fanout := none } :=
    if_neg hstream
  rw [hleave]
  refine ⟨?_, ⟨hs.indexed.known, hs.indexed.captured, fun _ _ _ hf' => by simp at hf',
    hs.indexed.creator⟩, fun o obs hobs => ?_⟩
  · exact
      { nodup := hs.shared.nodup, current := hs.shared.current, joined := hs.shared.joined
        held := hs.shared.held, opened := hs.shared.opened, flying := hs.shared.flying
        shut := hs.shared.shut, disposed := hs.shared.disposed, running := hs.shared.running
        delivering := fun _ _ _ hf' => by simp [hub] at hf'
        failing := fun _ _ hf' => by simp [hub] at hf'
        closing := hs.shared.closing, unique := hs.shared.unique
        disposingNodup := hs.shared.disposingNodup }
  · refine (hs.kept o obs hobs).transfer (fun _ _ => rfl) (fun _ => Iff.rfl) (fun st' => ?_) rfl
      Iff.rfl (fun _ => ⟨rfl, fun _ hp => hp⟩) fun _ _ _ hf' => by simp [hub] at hf'
    refine or_congr Iff.rfl ⟨fun ⟨rest', hrest', _⟩ => by simp [hub] at hrest', ?_⟩
    rintro ⟨rest', hrest', ho'⟩
    obtain ⟨-, rfl⟩ : st = st' ∧ [] = rest' := by simpa using hf.symm.trans hrest'
    cases ho'

/-- A change is passed on to `o`. -/
theorem changeNext (hs : Sound w) {st : ℕ} {collection : Option String} {rest : List ℕ}
    (hf : w.fanout = some (.change st collection (o :: rest))) :
    Sound ({ w with fanout := some (.change st collection rest) }.change o collection) := by
  have hshared : Shared { w.hub with fanout := some (.change st collection rest) } w.generation
      w.disposed w.streams :=
    { nodup := hs.shared.nodup, current := hs.shared.current, joined := hs.shared.joined
      held := hs.shared.held, opened := hs.shared.opened, flying := hs.shared.flying
      shut := hs.shared.shut, disposed := hs.shared.disposed, running := hs.shared.running
      delivering := fun st' _ _ hf' => by
        obtain ⟨rfl, -, -⟩ : st = st' ∧ _ ∧ _ := by simpa using hf'
        exact hs.shared.delivering _ _ _ hf
      failing := fun _ _ hf' => by simp at hf'
      closing := hs.shared.closing, unique := hs.shared.unique
      disposingNodup := hs.shared.disposingNodup }
  have hfanned : ∀ st' collection' rest',
      (some (.change st collection rest) : Option Fanout) = some (.change st' collection' rest') →
      rest = rest' := fun _ _ _ hf' => by
    simp only [Option.some.injEq, Fanout.change.injEq] at hf'
    exact hf'.2.2
  have hpopped : ∀ o' obs, w.observations[o']? = some obs →
      Kept { w.hub with fanout := some (.change st collection rest) } o' obs := by
    intro o' obs hobs
    refine (hs.kept o' obs hobs).transfer (fun _ _ => rfl) (fun _ => Iff.rfl) (fun st' => ?_) rfl
      Iff.rfl (fun _ => ⟨rfl, fun _ hp => hp⟩) fun st' collection' rest' hf' ho' => ?_
    · refine or_congr Iff.rfl ⟨fun ⟨_, hrest', _⟩ => by simp at hrest', ?_⟩
      rintro ⟨rest', hrest', -⟩
      exact absurd (hf.symm.trans hrest') (by simp)
    · obtain rfl := hfanned _ _ _ hf'
      exact Or.inl ⟨_, _, _, hf, List.mem_cons_of_mem o ho'⟩
  refine of_modify (w := { w with fanout := some (.change st collection rest) }) hshared
    ⟨hs.indexed.known, hs.indexed.captured, fun _ _ _ hf' o' ho' => ?_, hs.indexed.creator⟩
    (fun _ _ => Or.inl rfl) (fun o' obs hobs _ => hpopped o' obs hobs) fun obs hobs => ?_
  · obtain rfl := hfanned _ _ _ hf'
    exact hs.indexed.fanned _ _ _ hf o' (List.mem_cons_of_mem o ho')
  · have hin := (hs.kept o obs hobs).change _ _ _ hf List.mem_cons_self
    have hk := hpopped o obs hobs
    refine hk.setLoop fun l' hl' => ?_
    obtain ⟨l, hl, rfl⟩ := Option.map_eq_some_iff.1 hl'
    exact (hk.reads l hl).change hin collection

theorem unclosed_setPump (w : MongoDBWatcher) (st : ℕ) (pump : Pump) (st' : ℕ) :
    (∃ s, (w.setPump st pump).streams[st']? = some s ∧ s.closed = false) ↔
      ∃ s, w.streams[st']? = some s ∧ s.closed = false := by
  have hlookup : (w.setPump st pump).streams[st']? = (fun s : ChangeStream =>
      if st = st' then { s with pump := pump } else s) <$> w.streams[st']? :=
    List.getElem?_modify _ _ _ _
  rw [hlookup]
  cases w.streams[st']? with
  | none => simp
  | some s => by_cases heq : st = st' <;> simp [heq]

/-- The pump of a stream that has not failed goes on. -/
theorem pumped (hs : Sound w) {st : ℕ} {pump pump' : Pump} {fanout : Option Fanout}
    (hpump : w.pump? st = some pump) (hold : pump = .awaiting ∨ pump = .delivering)
    (hnew : pump' = .awaiting ∨ pump' = .delivering ∨ w.stream ≠ some st ∧ pump' = .done)
    (hfanout : ∀ st rest, w.fanout ≠ some (.failing st rest))
    (hfanout' : fanout = none ∨ pump' = .delivering ∧ w.stream = some st ∧
      ∃ collection, fanout = some (.change st collection w.listeners)) :
    Sound { w.setPump st pump' with fanout := fanout } := by
  have hcaptured : pump.captured = [] ∧ pump'.captured = [] := by
    refine ⟨?_, ?_⟩
    · rcases hold with rfl | rfl <;> rfl
    · rcases hnew with rfl | rfl | ⟨-, rfl⟩ <;> rfl
  have hunclosing : (∀ listeners, pump ≠ .closing listeners) ∧
      ∀ listeners, pump' ≠ .closing listeners := by
    refine ⟨fun listeners => ?_, fun listeners => ?_⟩
    · rcases hold with rfl | rfl <;> simp
    · rcases hnew with rfl | rfl | ⟨-, rfl⟩ <;> simp
  have hunfailing : ∀ st' rest, fanout ≠ some (.failing st' rest) := by
    rcases hfanout' with rfl | ⟨-, -, _, rfl⟩ <;> simp
  have hby : ∀ st' o, Hub.CapturedBy { w.hub with
        pump := Function.update w.hub.pump st (some pump'), fanout := fanout } st' o ↔
      w.hub.CapturedBy st' o :=
    Hub.capturedBy_update hpump (hcaptured.2.trans hcaptured.1.symm)
  have hhub : ({ w.setPump st pump' with fanout := fanout } : MongoDBWatcher).hub =
      { w.hub with pump := Function.update w.hub.pump st (some pump'), fanout := fanout } := by
    rw [hub]
    congr 1
    exact pump?_setPump hpump
  refine ⟨?_, ⟨hs.indexed.known, fun o ho => ?_, fun st' _ rest hf => ?_, hs.indexed.creator⟩,
    fun o obs hobs => ?_⟩
  · rw [hhub]
    refine hs.shared.setPump _ _ _ _ (fun st' => ?_) (fun hst => ?_) (fun o ho => ?_)
      (fun listeners hp => absurd hp (hunclosing.2 listeners)) (fun st' collection rest hf => ?_)
      fun st' rest hf => absurd hf (hunfailing st' rest)
    · exact (hs.shared.current st').trans (unclosed_setPump w st pump' st').symm
    · rcases hnew with rfl | rfl | ⟨hne, -⟩
      · exact Or.inl rfl
      · exact Or.inr rfl
      · exact absurd hst hne
    · rw [hcaptured.2] at ho
      cases ho
    · rcases hfanout' with rfl | ⟨hdelivering, -, _, rfl⟩
      · cases hf
      · simp only [Option.some.injEq, Fanout.change.injEq] at hf
        exact ⟨hf.1.symm, hdelivering⟩
  · rw [hhub] at ho
    obtain ⟨st', hst'⟩ := ho
    exact hs.indexed.captured o ⟨st', (hby st' o).1 hst'⟩
  · rcases hfanout' with rfl | ⟨-, -, _, rfl⟩
    · cases hf
    · simp only [Option.some.injEq, Fanout.change.injEq] at hf
      exact hf.2.2 ▸ hs.indexed.known
  · rw [hhub]
    refine (hs.kept o obs hobs).transfer (fun _ _ => rfl) (fun st' => hby st' o)
      (fun st' => Hub.pending_update hpump hunclosing.1 hunclosing.2 hfanout hunfailing st' o) rfl
      Iff.rfl (fun _ => ⟨rfl, fun _ hp => hp⟩) fun st' collection rest hf ho => ?_
    rcases hfanout' with rfl | ⟨-, hst, _, rfl⟩
    · cases hf
    · simp only [Option.some.injEq, Fanout.change.injEq] at hf
      obtain ⟨-, -, rfl⟩ := hf
      refine Or.inr ⟨ho, ?_⟩
      change w.stream.isSome = true
      rw [hst]
      rfl

/-- A stream that is not to be read any more is not the current one. -/
theorem stream_ne (hs : Sound w) {st : ℕ} (hd : w.disposing = none) (hlive : ¬w.live st = true) :
    w.stream ≠ some st := by
  intro hst
  have hdisposed : w.disposed = true := by simpa [live, hst] using hlive
  have hnone : w.stream = none := (hs.shared.shut hdisposed hd).2.1
  exact absurd (hst.symm.trans hnone) (by simp)

/-- Everybody has been given the change. -/
theorem changeEnd (hs : Sound w) {st : ℕ} {collection : Option String} (hd : w.disposing = none)
    (hf : w.fanout = some (.change st collection [])) :
    Sound (if ({ w with fanout := none } : MongoDBWatcher).live st then
      ({ w with fanout := none } : MongoDBWatcher).setPump st .awaiting
      else (({ w with fanout := none } : MongoDBWatcher).setPump st .done).leave st) := by
  have hpump := hs.shared.delivering _ _ _ hf
  have hunfailing : ∀ st rest, w.fanout ≠ some (.failing st rest) := by simp [hf]
  split_ifs with hlive
  · exact hs.pumped hpump (Or.inr rfl) (Or.inl rfl) hunfailing (Or.inl rfl)
  · have hne : w.stream ≠ some st := hs.stream_ne hd hlive
    have hleave : (({ w with fanout := none } : MongoDBWatcher).setPump st .done).leave st =
        ({ w with fanout := none } : MongoDBWatcher).setPump st .done := if_neg hne
    rw [hleave]
    exact hs.pumped hpump (Or.inr rfl) (Or.inr (Or.inr ⟨hne, rfl⟩)) hunfailing (Or.inl rfl)

/-- The pump of a stream that is not to be read any more ends. -/
theorem pumpEnd (hs : Sound w) {st : ℕ} (hd : w.disposing = none) (hf : w.fanout = none)
    (hpump : w.pump? st = some .awaiting) (hlive : ¬w.live st = true) :
    Sound ((w.setPump st .done).leave st) := by
  have hne := hs.stream_ne hd hlive
  have hleave : (w.setPump st .done).leave st =
      ({ w.setPump st .done with fanout := none } : MongoDBWatcher) := by
    rw [leave, if_neg (show (w.setPump st .done).stream ≠ some st from hne), ← hf]
    rfl
  rw [hleave]
  exact hs.pumped hpump (Or.inl rfl) (Or.inr (Or.inr ⟨hne, rfl⟩)) (by simp [hf]) (Or.inl rfl)

theorem next (hs : Sound w) {st : ℕ} {collection : Option String} {t : MongoDBWatcher}
    (hd : w.disposing = none) (hf : w.fanout = none) (ht : w.next st collection = some t) :
    Sound t := by
  unfold MongoDBWatcher.next at ht
  split at ht
  · next hpump =>
      obtain rfl := Option.some.inj ht
      split_ifs with hlive
      · have hst : w.stream = some st := by simpa using (Bool.and_eq_true_iff.1 hlive).1
        exact hs.pumped hpump (Or.inl rfl) (Or.inr (Or.inl rfl)) (by simp [hf])
          (Or.inr ⟨rfl, hst, collection, rfl⟩)
      · exact hs.pumpEnd hd hf hpump hlive
  · cases ht

/-- The current stream fails: its listeners are kept by the pump until it is closed. -/
theorem capture (hs : Sound w) {st : ℕ} (hd : w.disposing = none) (hf : w.fanout = none)
    (hpump : w.pump? st = some .awaiting) (hst : w.stream = some st) :
    Sound { w.setPump st (.closing w.listeners) with listeners := [] }.stop := by
  have hfree : ∀ o ∈ w.listeners, ∀ st', ¬w.hub.CapturedBy st' o := fun o ho st' hst' =>
    ((hs.kept o _ (List.getElem?_eq_getElem (hs.indexed.known o ho))).lost st' hst').1 ho
  have hstop := hs.shared.stop fun st s hst => closed_stop (fun st => (hs.shared.current st).2) hst
  have hhub : (w.setPump st (.closing w.listeners)).hub =
      { w.hub with pump := Function.update w.hub.pump st (some (.closing w.listeners)) } :=
    hub_setPump hpump
  have hby : ∀ st' o, (w.setPump st (.closing w.listeners)).hub.CapturedBy st' o ↔
      w.hub.CapturedBy st' o ∨ st' = st ∧ o ∈ w.listeners := by
    intro st' o
    rw [hhub]
    by_cases heq : st' = st
    · subst heq
      have hpump' : w.hub.pump st' = some .awaiting := hpump
      simp [Hub.CapturedBy, Pump.captured, hpump']
    · simp [Hub.CapturedBy, heq]
  have hpending : ∀ st' o, (w.setPump st (.closing w.listeners)).hub.Pending st' o ↔
      w.hub.Pending st' o ∨ st' = st ∧ o ∈ w.listeners := by
    intro st' o
    rw [hhub]
    by_cases heq : st' = st
    · subst heq
      have hpump' : w.hub.pump st' = some .awaiting := hpump
      have hfanout : w.hub.fanout = none := hf
      simp [Hub.Pending, hpump', hfanout]
    · simp [Hub.Pending, heq]
  refine stopped (w := w.setPump st (.closing w.listeners)) ?_ (fun o obs hobs => ?_)
    (fun o ho => ?_) fun st' _ rest hf' => absurd (hf.symm.trans hf') (by simp)
  · rw [hhub]
    have hpumped := hstop.setPump st (.closing w.listeners) w.fanout
      (w.setPump st (.closing w.listeners)).stop.streams ?_
      (fun hsome => by simp at hsome) (fun o ho st' hst' => absurd hst' (hfree o ho st'))
      (fun listeners hl => ?_) (fun _ _ _ hf' => by simp [hf] at hf')
      fun _ _ hf' => by simp [hf] at hf'
    · exact hpumped
    · intro st'
      refine ⟨fun hst' => by simp at hst', ?_⟩
      rintro ⟨s, hs', hopen⟩
      have hclosed := closed_stop (w := w.setPump st (.closing w.listeners))
        (fun st'' hunclosed => (hs.shared.current st'').2 ((unclosed_setPump w _ _ st'').1 hunclosed))
        hs'
      exact absurd (hclosed.symm.trans hopen) (by decide)
    · obtain rfl : w.listeners = listeners := by simpa using hl
      exact hs.shared.nodup
  · have hk := hs.kept o obs hobs
    by_cases ho : o ∈ w.listeners
    · have hnow : (w.setPump st (.closing w.listeners)).hub.Captured o :=
        ⟨st, (hby st o).2 (Or.inr ⟨rfl, ho⟩)⟩
      have herrors := hk.clean hd ho
      refine
        { errors := hk.errors, closed := hk.closed, released := hk.released
          gone := fun _ ho => by simp at ho
          known := hk.known
          place := Or.inr (Or.inr (Or.inl hnow)), stray := fun _ _ _ hsome => by simp at hsome
          clean := fun _ _ => herrors, due := fun _ hrest => absurd (hd.symm.trans hrest) (by simp)
          left := fun _ hrest => absurd (hd.symm.trans hrest) (by simp)
          lost := fun st' hst' => ⟨by simp, fun _ hrest => absurd (hd.symm.trans hrest) (by simp),
            ?_⟩
          pending := fun _ _ => herrors
          change := fun _ _ _ hf' => absurd (hf.symm.trans hf') (by simp)
          reads := fun l hl => ?_ }
      · rcases (hby st' o).1 hst' with hst' | hst'
        · exact absurd hst' (hfree o ho st')
        · exact Or.inr ((hpending st' o).2 (Or.inr hst'))
      · have hr := hk.reads l hl
        exact ⟨hr.reading, hr.delivered, fun _ => Or.inr (Or.inl hnow),
          fun _ => Or.inr (Or.inl hnow)⟩
    · refine hk.transfer (fun _ _ => rfl) (fun st' => (hby st' o).trans ?_)
        (fun st' => (hpending st' o).trans ?_) rfl ⟨fun ho' => by simp at ho', fun ho' => absurd ho' ho⟩
        (fun ho' => absurd ho' ho) fun _ _ _ hf' => absurd (hf.symm.trans hf') (by simp)
      · exact or_iff_left fun hin => ho hin.2
      · exact or_iff_left fun hin => ho hin.2
  · obtain ⟨st', hst'⟩ := ho
    rcases (hby st' o).1 hst' with hst' | ⟨-, ho⟩
    · exact hs.indexed.captured o ⟨st', hst'⟩
    · exact hs.indexed.known o ho

theorem fail (hs : Sound w) {st : ℕ} {t : MongoDBWatcher} (hd : w.disposing = none)
    (hf : w.fanout = none) (ht : w.fail st = some t) : Sound t := by
  unfold MongoDBWatcher.fail at ht
  split at ht
  · next hpump =>
      obtain rfl := Option.some.inj ht
      split_ifs with hlive
      · have hst : w.stream = some st := by simpa using (Bool.and_eq_true_iff.1 hlive).1
        exact hs.capture hd hf hpump hst
      · exact hs.pumpEnd hd hf hpump hlive
  · cases ht

theorem closeSettled (hs : Sound w) {st : ℕ} {t : MongoDBWatcher} (hf : w.fanout = none)
    (ht : w.closeSettled st = some t) : Sound t := by
  unfold MongoDBWatcher.closeSettled at ht
  split at ht
  · next listeners hpump =>
      obtain rfl := Option.some.inj ht
      have hfanout : w.hub.fanout = none := hf
      have hpump' : w.hub.pump st = some (.closing listeners) := hpump
      have hhub : ({ w.setPump st (.failed listeners) with
            fanout := some (.failing st listeners) } : MongoDBWatcher).hub =
          { w.hub with
            pump := Function.update w.hub.pump st (some (.failed listeners))
            fanout := some (.failing st listeners) } := by
        rw [hub]
        congr 1
        exact pump?_setPump hpump
      have hby : ∀ st' o, Hub.CapturedBy { w.hub with
            pump := Function.update w.hub.pump st (some (.failed listeners))
            fanout := some (.failing st listeners) } st' o ↔ w.hub.CapturedBy st' o :=
        Hub.capturedBy_update hpump' rfl
      refine ⟨?_, ⟨hs.indexed.known, fun o ho => ?_, fun _ _ _ hf' => by simp at hf',
        hs.indexed.creator⟩, fun o obs hobs => ?_⟩
      · rw [hhub]
        refine hs.shared.setPump _ _ _ _ (fun st' => ?_) (fun hst => ?_) (fun o ho st' hst' => ?_)
          (fun _ hl => by simp at hl) (fun _ _ _ hf' => by simp at hf') fun st' rest hf' => ?_
        · exact (hs.shared.current st').trans (unclosed_setPump w st _ st').symm
        · rcases hs.shared.running st hst with hp | hp <;>
            exact absurd (hpump'.symm.trans hp) (by simp)
        · exact hs.shared.unique o st' st hst' ⟨_, hpump', ho⟩
        · obtain ⟨rfl, rfl⟩ : st = st' ∧ listeners = rest := by simpa using hf'
          exact ⟨rfl, hs.shared.closing _ _ hpump', listeners, rfl, fun _ ho => ho⟩
      · rw [hhub] at ho
        obtain ⟨st', hst'⟩ := ho
        exact hs.indexed.captured o ⟨st', (hby st' o).1 hst'⟩
      · rw [hhub]
        refine (hs.kept o obs hobs).transfer (fun _ _ => rfl) (fun st' => hby st' o) (fun st' => ?_)
          rfl Iff.rfl (fun _ => ⟨rfl, fun _ hp => hp⟩) fun _ _ _ hf' => by simp at hf'
        by_cases heq : st' = st
        · subst heq
          simp [Hub.Pending, hpump', hfanout]
        · simp [Hub.Pending, heq, hfanout, Ne.symm heq]
  · cases ht

theorem dispose (hs : Sound w) : Sound w.dispose := by
  rw [MongoDBWatcher.dispose]
  split_ifs with hdisposed
  · exact hs
  have hd : w.disposing = none := by
    cases hd : w.disposing with
    | none => rfl
    | some rest => exact absurd (hs.shared.disposed (by rw [hub, hd]; rfl)) hdisposed
  refine ⟨?_, ⟨hs.indexed.known, hs.indexed.captured, hs.indexed.fanned, hs.indexed.creator⟩,
    fun o obs hobs => ?_⟩
  · refine hs.shared.setDisposing (fun _ hnone => by simp at hnone) (fun _ => rfl) fun rest hrest => ?_
    obtain rfl := Option.some.inj hrest
    exact hs.shared.nodup
  · have hk := hs.kept o obs hobs
    refine
      { errors := hk.errors, closed := hk.closed, released := hk.released, gone := hk.gone
        known := hk.known
        place := hk.place, stray := hk.stray, clean := fun hnone => by simp [hub] at hnone
        due := fun rest hrest ho => ?_, left := fun rest hrest ho => ?_
        lost := fun st hst => ?_, pending := hk.pending, change := hk.change
        reads := fun l hl => ?_ }
    · obtain rfl := Option.some.inj hrest
      exact hk.clean hd ho
    · obtain rfl := Option.some.inj hrest
      exact Or.inl ho
    · obtain ⟨hnot, -, hor⟩ := hk.lost st hst
      refine ⟨hnot, fun rest hrest => ?_, hor⟩
      obtain rfl := Option.some.inj hrest
      exact hnot
    · have hr := hk.reads l hl
      exact ⟨hr.reading, hr.delivered, hr.idle, hr.running⟩

end Sound

end MongoDBWatcher

end Arc.MongoDB
