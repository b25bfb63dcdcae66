import Arc.MongoDB.WatcherListeners

/-!
# The openings of a watcher

Subscribing, the answers to the calls of `listen`, the opening of the stream and the read
loops of `select` keep the invariants.
-/

namespace Arc.MongoDB

namespace MongoDBWatcher

variable {w : MongoDBWatcher} {o : ℕ}

namespace Sound

/-! ### Subscribing -/

/-- A new observation, against a hub of which it may be the last listener. -/
theorem kept_new {h : Hub} {n : ℕ} {names : Option (List String)} {call : Call}
    (hknown : ∀ p, call = .awaiting p → h.start p ≠ none) (hplace : h.Joins n call)
    (hstray : ∀ p, call = .awaiting p → h.start p ≠ some .rejected)
    (hleft : ∀ rest, h.disposing = some rest → n ∉ h.listeners)
    (hfree : ¬h.Captured n)
    (hchange : ∀ st collection rest, h.fanout = some (.change st collection rest) → n ∉ rest) :
    Kept h n (.new names call) where
  errors := Nat.zero_le 1
  closed herrors := by simp [Observation.new] at herrors
  released hr := by simp [Observation.new] at hr
  gone hr := by simp [Observation.new] at hr
  known := hknown
  place := Or.inr (Or.inr (Or.inr hplace))
  stray p hcall hrejected := absurd hrejected (hstray p hcall)
  clean _ _ := rfl
  due _ _ _ := rfl
  left rest hrest ho := absurd ho (hleft rest hrest)
  lost st hst := absurd ⟨st, hst⟩ hfree
  pending _ _ := rfl
  change st collection rest hf ho := absurd ho (hchange st collection rest hf)
  reads l hl := by
    obtain ⟨names, -, rfl⟩ := Option.map_eq_some_iff.1 hl
    exact ⟨fun _ hp => by simp at hp, fun hp => by simp at hp,
      fun _ => Or.inr (Or.inr ⟨rfl, Or.inr ⟨rfl, rfl⟩⟩), fun hp => absurd rfl hp⟩

theorem getElem?_append_one {α : Type*} {l : List α} {a : α} {i : ℕ} {b : α}
    (h : (l ++ [a])[i]? = some b) : l[i]? = some b ∨ i = l.length ∧ a = b := by
  rcases Nat.lt_trichotomy i l.length with hlt | rfl | hgt
  · rw [List.getElem?_append_left hlt] at h
    exact Or.inl h
  · refine Or.inr ⟨rfl, ?_⟩
    simpa using h
  · rw [List.getElem?_eq_none (by simp; omega)] at h
    cases h

theorem getElem?_append_of_some {α : Type*} {l : List α} {a b : α} {i : ℕ} (h : l[i]? = some b) :
    (l ++ [a])[i]? = some b := by
  rw [List.getElem?_append_left (List.getElem?_eq_some_iff.1 h).1]
  exact h

/-- An observation is added; the others find the hub as it was. -/
theorem append (hs : Sound w) {t : MongoDBWatcher} {names : Option (List String)} {call : Call}
    (hobservations : t.observations = w.observations ++ [.new names call])
    (hshared : Shared t.hub t.generation t.disposed t.streams)
    (hnew : Kept t.hub w.observations.length (.new names call))
    (hstart : ∀ p, w.hub.start p ≠ none → t.hub.start p = w.hub.start p)
    (hpump : t.hub.pump = w.hub.pump) (hfanout : t.fanout = w.fanout)
    (hdisposing : t.disposing = w.disposing) (hstream : t.stream = w.stream)
    (hmem : ∀ o, o ∈ t.listeners → o ∈ w.listeners ∨ o = w.observations.length)
    (hkept : ∀ o ∈ w.listeners, o ∈ t.listeners)
    (hopening : ∀ p, w.opening = some p → t.opening = some p)
    (hcreator : ∀ p, t.opening = some p → w.opening ≠ some p →
      w.observations.length ∈ t.listeners ∧ call = .awaiting p) : Sound t := by
  have hold : ∀ o, o < w.observations.length → o ∈ t.listeners → o ∈ w.listeners := fun o hlt ho =>
    (hmem o ho).resolve_right (Nat.ne_of_lt hlt)
  have hby : ∀ st o, t.hub.CapturedBy st o ↔ w.hub.CapturedBy st o := fun st o => by
    rw [Hub.CapturedBy, Hub.CapturedBy, hpump]
  have hfanout' : t.hub.fanout = w.hub.fanout := hfanout
  refine ⟨hshared, ⟨fun o ho => ?_, fun o ho => ?_, fun st collection rest hf o ho => ?_,
    fun p hp hnone => ?_⟩, fun o obs hobs => ?_⟩
  · rw [hobservations, List.length_append]
    rcases hmem o ho with ho | rfl
    · exact Nat.lt_succ_of_lt (hs.indexed.known o ho)
    · exact Nat.lt_succ_self _
  · rw [hobservations, List.length_append]
    obtain ⟨st, hst⟩ := ho
    exact Nat.lt_succ_of_lt (hs.indexed.captured o ⟨st, (hby st o).1 hst⟩)
  · rw [hobservations, List.length_append]
    exact Nat.lt_succ_of_lt (hs.indexed.fanned st collection rest (hfanout ▸ hf) o ho)
  · by_cases hwas : w.opening = some p
    · obtain ⟨o, ho, hcall⟩ := hs.indexed.creator p hwas (hstream ▸ hnone)
      refine ⟨o, hkept o ho, ?_⟩
      obtain ⟨obs, hobs, heq⟩ := Option.map_eq_some_iff.1 hcall
      rw [call?, hobservations, getElem?_append_of_some hobs, Option.map_some, heq]
    · obtain ⟨hin, rfl⟩ := hcreator p hp hwas
      refine ⟨_, hin, ?_⟩
      simp [call?, hobservations, Observation.new]
  · rw [hobservations] at hobs
    rcases getElem?_append_one hobs with hobs | ⟨rfl, rfl⟩
    · have hlt := (List.getElem?_eq_some_iff.1 hobs).1
      have hk := hs.kept o obs hobs
      exact hk.transfer (fun p hcall => hstart p (hk.known p hcall)) (fun st => hby st o)
        (fun st => by rw [Hub.Pending, Hub.Pending, hpump, hfanout']) hdisposing
        ⟨hold o hlt, hkept o⟩ (fun _ => ⟨hstream, hopening⟩)
        fun st collection rest hf ho => Or.inl ⟨st, collection, rest, hfanout' ▸ hf, ho⟩
    · exact hnew

theorem subscribe (hs : Sound w) (names : Option (List String)) : Sound (w.subscribe names) := by
  have hunknown : w.observations.length ∉ w.listeners := fun ho =>
    Nat.lt_irrefl _ (hs.indexed.known _ ho)
  have hfree : ¬w.hub.Captured w.observations.length := fun ho =>
    Nat.lt_irrefl _ (hs.indexed.captured _ ho)
  have hunfanned : ∀ st collection rest, w.hub.fanout = some (.change st collection rest) →
      w.observations.length ∉ rest := fun st collection rest hf ho =>
    Nat.lt_irrefl _ (hs.indexed.fanned st collection rest hf _ ho)
  rw [MongoDBWatcher.subscribe]
  by_cases hdisposed : w.disposed = true
  · rw [if_pos hdisposed]
    exact hs.append rfl hs.shared (kept_new (fun p hp => by cases hp) trivial (fun p hp => by cases hp)
      (fun _ _ => hunknown) hfree hunfanned) (fun _ _ => rfl) rfl rfl rfl rfl
      (fun _ ho => Or.inl ho) (fun _ ho => ho) (fun _ hp => hp) fun p hp hnot => absurd hp hnot
  rw [if_neg hdisposed]
  have hd : w.disposing = none := by
    cases hd : w.disposing with
    | none => rfl
    | some rest => exact absurd (hs.shared.disposed (by rw [hub, hd]; rfl)) hdisposed
  have hundisposing : ∀ (listeners rest : List ℕ), w.hub.disposing = some rest →
      w.observations.length ∉ listeners := fun _ rest hrest =>
    absurd (hd.symm.trans hrest) (by simp)
  have hnodup : (w.listeners ++ [w.observations.length]).Nodup :=
    List.nodup_append.2 ⟨hs.shared.nodup, List.nodup_singleton _, fun o ho o' ho' => by
      obtain rfl := List.mem_singleton.1 ho'
      exact fun heq => hunknown (heq ▸ ho)⟩
  have hmem : ∀ o, o ∈ w.listeners ++ [w.observations.length] →
      o ∈ w.listeners ∨ o = w.observations.length := fun o ho => by
    simpa [or_comm] using ho
  have hin : w.observations.length ∈ w.listeners ++ [w.observations.length] := by simp
  dsimp only
  split
  · next p hopening =>
      have hstart := hs.shared.opened p hopening
      have hplace : Hub.Joins { w.hub with listeners := w.listeners ++ [w.observations.length] }
          w.observations.length (.awaiting p) := by
        change Hub.Awaits _ _ _ (w.hub.start p)
        split_ifs at hstart with hstream
        · rw [hstart]
          exact ⟨hin, hstream⟩
        · rw [hstart]
          exact ⟨hin, hopening⟩
      refine hs.append rfl ?_ (kept_new (fun p' hp' => ?_) hplace (fun p' hp' => ?_)
        (hundisposing _) hfree hunfanned) (fun _ _ => rfl) rfl rfl rfl rfl hmem
        (fun o ho => List.mem_append_left _ ho) (fun _ hp => hp) fun p hp hnot => absurd hp hnot
      · exact
          { nodup := hnodup, current := hs.shared.current, joined := fun _ => by simp [hub]
            held := hs.shared.held, opened := hs.shared.opened, flying := hs.shared.flying
            shut := fun hdis => absurd hdis hdisposed, disposed := hs.shared.disposed
            running := hs.shared.running, delivering := hs.shared.delivering
            failing := hs.shared.failing, closing := hs.shared.closing
            unique := hs.shared.unique, disposingNodup := hs.shared.disposingNodup }
      · obtain rfl : p = p' := by simpa using hp'
        intro hnone
        change w.hub.start p = none at hnone
        split_ifs at hstart <;> exact absurd (hstart.symm.trans hnone) (by simp)
      · obtain rfl : p = p' := by simpa using hp'
        intro hrejected
        change w.hub.start p = _ at hrejected
        split_ifs at hstart <;> exact absurd (hstart.symm.trans hrejected) (by simp)
  · next hopening =>
      have hstream : w.stream = none := by
        cases hst : w.stream with
        | none => rfl
        | some st =>
            have hheld : w.opening.isSome = true := hs.shared.held (by rw [hub, hst]; rfl)
            rw [hopening] at hheld
            cases hheld
      have hself : (w.starts ++ [Start.awaiting w.generation])[w.starts.length]? =
          some (.awaiting w.generation) := by simp
      have hbefore : ∀ p, w.hub.start p ≠ none →
          (w.starts ++ [Start.awaiting w.generation])[p]? = w.hub.start p := fun p hp => by
        obtain ⟨start, hstart⟩ := Option.ne_none_iff_exists'.1 hp
        exact (getElem?_append_of_some hstart).trans hstart.symm
      refine hs.append rfl ?_ (kept_new (fun p' hp' => ?_) ?_ (fun p' hp' => ?_)
        (hundisposing _) hfree hunfanned) hbefore rfl rfl rfl rfl hmem
        (fun o ho => List.mem_append_left _ ho) (fun p hp => absurd (hopening.symm.trans hp) (by simp))
        fun p hp _ => ⟨hin, ?_⟩
      · refine
          { nodup := hnodup, current := hs.shared.current, joined := fun _ => by simp [hub]
            held := fun _ => rfl, opened := fun p hp => ?_, flying := fun p g hp => ?_
            shut := fun hdis => absurd hdis hdisposed, disposed := hs.shared.disposed
            running := hs.shared.running, delivering := hs.shared.delivering
            failing := hs.shared.failing, closing := hs.shared.closing
            unique := hs.shared.unique, disposingNodup := hs.shared.disposingNodup }
        · obtain rfl := Option.some.inj hp
          rw [if_neg (by simp [hub, hstream])]
          exact hself
        · rcases getElem?_append_one hp with hp | ⟨rfl, heq⟩
          · obtain ⟨hle, hcurrent⟩ := hs.shared.flying p g hp
            exact ⟨hle, fun hg => absurd (hopening.symm.trans (hcurrent hg)) (by simp)⟩
          · obtain rfl : w.generation = g := by simpa using heq
            exact ⟨Nat.le_refl _, fun _ => rfl⟩
      · obtain rfl : w.starts.length = p' := by simpa using hp'
        exact fun hnone => absurd (hself.symm.trans hnone) (by simp)
      · change Hub.Awaits _ _ _ ((w.starts ++ [Start.awaiting w.generation])[w.starts.length]?)
        rw [hself]
        exact ⟨hin, rfl⟩
      · obtain rfl : w.starts.length = p' := by simpa using hp'
        exact fun hrejected => absurd (hself.symm.trans hrejected) (by simp)
      · rw [Option.some.inj hp]

/-- An opening that is awaited is under way while there is no stream. -/
theorem not_settled (hs : Sound w) {p : ℕ} {start : Start} (hp : w.opening = some p)
    (hnone : w.stream = none) (hstart : w.starts[p]? = some start) :
    start = .awaiting w.generation := by
  have hopened := hs.shared.opened p hp
  rw [if_neg (by simp [hub, hnone])] at hopened
  exact Option.some.inj (hstart.symm.trans hopened)

/-- The call of `listen` of `o` is rejected. -/
theorem listenRejected (hs : Sound w) {obs : Observation} {p : ℕ} {start : Start}
    (hobs : w.observations[o]? = some obs) (hcall : obs.call = .awaiting p)
    (hstart : w.starts[p]? = some start) (hsettled : start ≠ .awaiting w.generation)
    (hf : w.fanout = none) (hout : w.stream.isSome = true → o ∉ w.listeners) :
    Sound ((w.setCall o .rejected).delete o) := by
  have hk := hs.kept o obs hobs
  refine hs.remove hobs (fun p' hp' hnone hcall' => ?_) ?_ fun hsome => ?_
  · obtain rfl : p = p' := by simpa using hcall.symm.trans hcall'
    exact hsettled (hs.not_settled hp' hnone hstart)
  · refine hk.leave rfl rfl rfl ?_ rfl rfl rfl (fun hr => ?_) (fun p' hp' => by simp at hp')
      (Or.inr trivial) ?_
    · exact fun ho => (hs.shared.nodup.mem_erase_iff.1 ho).1 rfl
    · exact absurd ((hk.released hr).2.symm.trans hcall) (by simp)
    · cases hclosed : obs.closed with
      | true => exact Or.inl rfl
      | false =>
          refine Or.inr ⟨hf, fun l hl hp => ?_⟩
          rcases (hk.reads l hl).running hp with hc | hc | hc
          · exact absurd (hclosed.symm.trans hc) (by decide)
          · exact hc
          · exact absurd hc.1 (hout hc.2)
  · rw [List.erase_of_not_mem (hout hsome)]
    exact hs.shared.joined hsome

theorem resumeListen (hs : Sound w) {t : MongoDBWatcher} (hd : w.disposing = none)
    (hf : w.fanout = none) (ht : w.resumeListen o = some t) : Sound t := by
  unfold MongoDBWatcher.resumeListen at ht
  split at ht
  · next p hcall =>
      obtain ⟨obs, hobs, hawaits⟩ := Option.map_eq_some_iff.1 hcall
      have hk := hs.kept o obs hobs
      split at ht
      · next hstart =>
          obtain rfl := Option.some.inj ht
          split_ifs with hdisposed
          · obtain ⟨-, hstream, -⟩ := hs.shared.shut hdisposed hd
            have hnone : w.stream = none := hstream
            exact hs.listenRejected hobs hawaits hstart (by simp) hf (by simp [hnone])
          · refine hs.modify hobs ?_ (Or.inr fun p' hp' hnone hcall' => ?_)
            · refine hk.setCall (fun hr => ?_) (fun _ hp => by simp at hp) fun hj => ?_
              · exact absurd ((hk.released hr).2.symm.trans hawaits) (by simp)
              · rw [hawaits] at hj
                change w.hub.Awaits o p (w.starts[p]?) at hj
                rw [hstart] at hj
                exact hj
            · obtain rfl : p = p' := by simpa using hawaits.symm.trans hcall'
              exact absurd (hs.not_settled hp' hnone hstart) (by simp)
      · next hstart =>
          obtain rfl := Option.some.inj ht
          exact hs.listenRejected hobs hawaits hstart (by simp) hf
            fun hsome => hk.stray p hawaits hstart hsome
      · cases ht
  · cases ht

theorem resumeThen (hs : Sound w) {t : MongoDBWatcher} (ht : w.resumeThen o = some t) :
    Sound t := by
  unfold MongoDBWatcher.resumeThen at ht
  split at ht
  · cases ht
  next obs hobs =>
  have hk := hs.kept o obs hobs
  split at ht
  · next hcall =>
      obtain rfl := Option.some.inj ht
      have hunreleased : obs.released ≠ true := fun hr =>
        absurd ((hk.released hr).2.symm.trans hcall) (by simp)
      have hattached : Kept w.hub o { obs with call := .attached } :=
        hk.setCall hunreleased (fun _ hp => by simp at hp) fun hj => by
          rw [hcall] at hj
          exact hj
      have hcreator : ∀ p, w.opening = some p → w.stream = none → obs.call ≠ .awaiting p :=
        fun p _ _ hp => absurd (hcall.symm.trans hp) (by simp)
      split_ifs with hclosed
      · have hset := hs.modify (f := fun obs => { obs with call := .attached }) hobs hattached
          (Or.inr hcreator)
        exact hset.release (getElem?_modify_self hobs) hclosed rfl
      · have hset := hs.modify (f := fun obs => { obs with call := .attached }) hobs hattached
          (Or.inr hcreator)
        refine hset.modify (getElem?_modify_self hobs) (hattached.setLoop fun l' hl' => ?_) (Or.inl rfl)
        obtain ⟨l, hl, rfl⟩ := Option.map_eq_some_iff.1 hl'
        have hin : w.hub.Captured o ∨ w.hub.Attached o :=
          (hattached.place.resolve_left hunreleased).resolve_left
            fun herrors => hclosed (hk.closed herrors)
        have hr := hk.reads l hl
        cases hphase : l.phase with
        | idle =>
            have hread : l.read false = l.startRead := by simp [ReadLoop.read, hphase]
            rw [hread]
            refine ⟨fun since hp _ => ?_, fun hp => ?_, fun hp => ?_, fun _ => Or.inr hin⟩
            · simpa [ReadLoop.startRead] using hp.symm
            · simp [ReadLoop.startRead] at hp
            · simp [ReadLoop.startRead] at hp
        | reading since =>
            have hread : l.read false = l := by simp [ReadLoop.read, hphase]
            rw [hread]
            exact hr
        | delivered =>
            have hread : l.read false = l := by simp [ReadLoop.read, hphase]
            rw [hread]
            exact hr
  · next hcall =>
      obtain rfl := Option.some.inj ht
      have hset : Sound (w.setCall o .finished) := by
        refine hs.modify hobs ?_ (Or.inr fun p _ _ hp => absurd (hcall.symm.trans hp) (by simp))
        refine hk.setCall (fun hr => ?_) (fun _ hp => by simp at hp) fun _ => trivial
        exact absurd ((hk.released hr).2.symm.trans hcall) (by simp)
      exact hset.close o
  · cases ht

/-! ### Opening the stream -/

theorem hub_settleStart {p generation : ℕ} {start : Start}
    (hflying : w.starts[p]? = some (.awaiting generation)) :
    (w.settleStart p start).hub =
      { w.hub with start := Function.update w.hub.start p (some start) } := by
  rw [← start_settleStart hflying]
  rfl

/-- While an opening is under way there is no stream. -/
theorem stream_none (hs : Sound w) {p generation : ℕ}
    (hflying : w.starts[p]? = some (.awaiting generation)) (hp : w.opening = some p) :
    w.stream = none := by
  have hflying' : w.hub.start p = some (.awaiting generation) := hflying
  have hopened := hs.shared.opened p hp
  split_ifs at hopened with hsome
  · exact absurd (hflying'.symm.trans hopened) (by simp)
  · have hnone : ¬w.stream.isSome = true := hsome
    simpa using hnone

/-- An opening that is not the current one, or is that of a disposed watcher, settles. -/
theorem settleStale (hs : Sound w) {p generation : ℕ} (hd : w.disposing = none)
    (hf : w.fanout = none) (hflying : w.starts[p]? = some (.awaiting generation))
    (hstale : w.disposed = true ∨ generation ≠ w.generation) :
    Sound (w.settleStart p .fulfilled) := by
  have hflying' : w.hub.start p = some (.awaiting generation) := hflying
  have hne : w.opening ≠ some p := by
    intro hp
    rcases hstale with hdisposed | hgeneration
    · have hnone : w.opening = none := (hs.shared.shut hdisposed hd).2.2
      exact absurd (hp.symm.trans hnone) (by simp)
    · have hopened := hs.shared.opened p hp
      split_ifs at hopened
      · exact absurd (hflying'.symm.trans hopened) (by simp)
      · exact hgeneration (by simpa using hflying'.symm.trans hopened)
  refine ⟨?_, ⟨hs.indexed.known, hs.indexed.captured, hs.indexed.fanned, hs.indexed.creator⟩,
    fun o obs hobs => ?_⟩
  · rw [hub_settleStart hflying]
    refine
      { nodup := hs.shared.nodup, current := hs.shared.current, joined := hs.shared.joined
        held := hs.shared.held, opened := fun q hq => ?_, flying := fun q g hq => ?_
        shut := hs.shared.shut, disposed := hs.shared.disposed, running := hs.shared.running
        delivering := hs.shared.delivering, failing := hs.shared.failing
        closing := hs.shared.closing, unique := hs.shared.unique
        disposingNodup := hs.shared.disposingNodup }
    · have hqp : q ≠ p := fun heq => hne (heq ▸ hq)
      change if w.hub.stream.isSome then Function.update w.hub.start p _ q = _
        else Function.update w.hub.start p _ q = some (.awaiting w.generation)
      rw [Function.update_of_ne hqp]
      exact hs.shared.opened q hq
    · have hqp : q ≠ p := by
        rintro rfl
        simp at hq
      exact hs.shared.flying q g (by simpa [Function.update_of_ne hqp] using hq)
  · have hk := hs.kept o obs hobs
    rw [hub_settleStart hflying]
    refine hk.settle (p := p) rfl (fun _ => Iff.rfl) (fun _ => Iff.rfl) rfl rfl hf id (fun _ _ hq => hq)
      (fun _ hawaits => ?_) fun q hcall hrejected hsome => ?_
    · rw [hflying'] at hawaits
      exact absurd hawaits.2 hne
    · have hqp : q ≠ p := by
        rintro rfl
        simp at hrejected
      exact hk.stray q hcall (by simpa [Function.update_of_ne hqp] using hrejected) hsome

/-- An opening fails. -/
theorem startFailed (hs : Sound w) {p generation : ℕ} (hd : w.disposing = none)
    (hf : w.fanout = none) (hflying : w.starts[p]? = some (.awaiting generation)) :
    Sound (w.startFailed p generation) := by
  have hflying' : w.hub.start p = some (.awaiting generation) := hflying
  -- while a stream is current, no opening is under way
  have hstream : w.hub.stream.isSome = true → w.hub.opening ≠ some p := fun hsome hp => by
    have hnone : w.hub.stream = none := hs.stream_none hflying hp
    rw [hnone] at hsome
    cases hsome
  have hcurrent : generation = w.generation → w.hub.opening = some p :=
    (hs.shared.flying p generation hflying').2
  have hother : ∀ q, q ≠ p → w.hub.opening = some q →
      (if generation = w.generation then none else w.opening) = some q := fun q hqp hq => by
    split_ifs with hgeneration
    · exact absurd (Option.some.inj (hq.symm.trans (hcurrent hgeneration))) hqp
    · exact hq
  have hhub : (w.startFailed p generation).hub =
      { w.hub with
        start := Function.update w.hub.start p (some .rejected)
        opening := if generation = w.generation then none else w.opening } := by
    rw [← start_settleStart hflying]
    rfl
  refine ⟨?_, ⟨hs.indexed.known, hs.indexed.captured, hs.indexed.fanned, fun q hq hnone => ?_⟩,
    fun o obs hobs => ?_⟩
  · rw [hhub]
    refine
      { nodup := hs.shared.nodup, current := hs.shared.current, joined := hs.shared.joined
        held := fun hsome => ?_, opened := fun q hq => ?_, flying := fun q g hq => ?_
        shut := fun hdis hnone => ?_, disposed := hs.shared.disposed
        running := hs.shared.running, delivering := hs.shared.delivering
        failing := hs.shared.failing, closing := hs.shared.closing
        unique := hs.shared.unique, disposingNodup := hs.shared.disposingNodup }
    · change (if generation = w.generation then none else w.opening).isSome = true
      split_ifs with hgeneration
      · exact absurd (hcurrent hgeneration) (hstream hsome)
      · exact hs.shared.held hsome
    · change (if generation = w.generation then none else w.opening) = some q at hq
      split_ifs at hq with hgeneration
      have hopened := hs.shared.opened q hq
      have hqp : q ≠ p := by
        rintro rfl
        split_ifs at hopened
        · exact absurd (hflying'.symm.trans hopened) (by simp)
        · exact hgeneration (by simpa using hflying'.symm.trans hopened)
      change if w.hub.stream.isSome then Function.update w.hub.start p _ q = _
        else Function.update w.hub.start p _ q = some (.awaiting w.generation)
      rw [Function.update_of_ne hqp]
      exact hopened
    · have hqp : q ≠ p := by
        rintro rfl
        simp at hq
      obtain ⟨hle, himp⟩ := hs.shared.flying q g (by simpa [Function.update_of_ne hqp] using hq)
      exact ⟨hle, fun hg => hother q hqp (himp hg)⟩
    · obtain ⟨hlisteners, hnostream, hnoopening⟩ := hs.shared.shut hdis hnone
      refine ⟨hlisteners, hnostream, ?_⟩
      have hnoopening' : w.opening = none := hnoopening
      simp [hnoopening']
  · change (if generation = w.generation then none else w.opening) = some q at hq
    split_ifs at hq
    exact hs.indexed.creator q hq hnone
  · have hk := hs.kept o obs hobs
    rw [hhub]
    refine hk.settle (p := p) rfl (fun _ => Iff.rfl) (fun _ => Iff.rfl) rfl rfl hf id hother
      (fun _ _ => trivial) fun q hcall hrejected hsome ho => ?_
    by_cases hqp : q = p
    · subst hqp
      rcases hk.place with hr | herrors | ⟨st, hst⟩ | hj
      · exact absurd ((hk.released hr).2.symm.trans hcall) (by simp)
      · exact absurd (herrors.symm.trans (hk.clean hd ho)) (by decide)
      · exact (hk.lost st hst).1 ho
      · rw [hcall] at hj
        change w.hub.Awaits o q (w.hub.start q) at hj
        rw [hflying'] at hj
        exact hstream hsome hj.2
    · exact hk.stray q hcall (by simpa [Function.update_of_ne hqp] using hrejected) hsome ho

/-- The stream is opened. -/
theorem opened (hs : Sound w) {p generation : ℕ} (hf : w.fanout = none)
    (hdisposed : w.disposed = false) (hlisteners : w.listeners ≠ [])
    (hflying : w.starts[p]? = some (.awaiting generation)) (hgeneration : generation = w.generation)
    (hjoining : w.joining = false) :
    Sound { w.settleStart p .fulfilled with
      stream := some w.streams.length, streams := w.streams ++ [⟨false, .awaiting⟩] } := by
  have hflying' : w.hub.start p = some (.awaiting generation) := hflying
  have hopening : w.hub.opening = some p := (hs.shared.flying p generation hflying').2 hgeneration
  have hnone : w.hub.stream = none := hs.stream_none hflying hopening
  have hpump : ({ w.settleStart p .fulfilled with
      stream := some w.streams.length
      streams := w.streams ++ [⟨false, .awaiting⟩] } : MongoDBWatcher).pump? =
      Function.update w.hub.pump w.streams.length (some .awaiting) := by
    funext st
    by_cases heq : st = w.streams.length
    · subst heq
      simp [pump?]
    · rw [Function.update_of_ne heq]
      rcases Nat.lt_or_gt_of_ne heq with hlt | hgt
      · simp [pump?, hub, List.getElem?_append_left hlt]
      · have hlong : w.streams.length ≤ st := Nat.le_of_lt hgt
        have hbeyond : (w.streams ++ [(⟨false, .awaiting⟩ : ChangeStream)])[st]? = none :=
          List.getElem?_eq_none (by simp; omega)
        simp [pump?, hub, List.getElem?_eq_none hlong, hbeyond]
  have hnew : w.hub.pump w.streams.length = none := by simp [hub, pump?]
  have hby : ∀ st o, Hub.CapturedBy { w.hub with
        start := Function.update w.hub.start p (some .fulfilled), stream := some w.streams.length
        pump := Function.update w.hub.pump w.streams.length (some .awaiting) } st o ↔
      w.hub.CapturedBy st o := by
    intro st o
    by_cases heq : st = w.streams.length
    · subst heq
      simp [Hub.CapturedBy, hnew, Pump.captured]
    · simp [Hub.CapturedBy, heq]
  have hpending : ∀ st o, Hub.Pending { w.hub with
        start := Function.update w.hub.start p (some .fulfilled), stream := some w.streams.length
        pump := Function.update w.hub.pump w.streams.length (some .awaiting) } st o ↔
      w.hub.Pending st o := by
    intro st o
    by_cases heq : st = w.streams.length
    · subst heq
      simp [Hub.Pending, hnew]
    · simp [Hub.Pending, heq]
  have hhub : ({ w.settleStart p .fulfilled with
        stream := some w.streams.length
        streams := w.streams ++ [⟨false, .awaiting⟩] } : MongoDBWatcher).hub =
      { w.hub with
        start := Function.update w.hub.start p (some .fulfilled), stream := some w.streams.length
        pump := Function.update w.hub.pump w.streams.length (some .awaiting) } := by
    rw [hub]
    congr 1
    exact start_settleStart hflying
  have hclosed : ∀ st, w.hub.stream ≠ some st := fun st hst => by
    rw [hnone] at hst
    cases hst
  refine ⟨?_, ⟨hs.indexed.known, fun o ho => ?_, hs.indexed.fanned, fun _ _ hno => by simp at hno⟩,
    fun o obs hobs => ?_⟩
  · rw [hhub]
    refine
      { nodup := hs.shared.nodup, current := fun st => ?_, joined := fun _ => hlisteners
        held := fun _ => by rw [hopening]; rfl, opened := fun q hq => ?_
        flying := fun q g hq => ?_
        shut := fun hdis => absurd (hdisposed.symm.trans hdis) (by decide)
        disposed := hs.shared.disposed, running := fun st hst => ?_
        delivering := fun _ _ _ hf' => absurd (hf.symm.trans hf') (by simp)
        failing := fun _ _ hf' => absurd (hf.symm.trans hf') (by simp)
        closing := fun st listeners hp => ?_
        unique := fun o st st' hst hst' => hs.shared.unique o st st' ((hby st o).1 hst) ((hby st' o).1 hst')
        disposingNodup := hs.shared.disposingNodup }
    · constructor
      · intro hst
        obtain rfl : w.streams.length = st := Option.some.inj hst
        exact ⟨⟨false, .awaiting⟩, by simp, rfl⟩
      · rintro ⟨s, hs', hopen⟩
        rcases getElem?_append_one hs' with hs' | ⟨rfl, -⟩
        · exact absurd ((hs.shared.current st).2 ⟨s, hs', hopen⟩) (hclosed st)
        · rfl
    · obtain rfl : p = q := Option.some.inj (hopening.symm.trans hq)
      simp
    · have hqp : q ≠ p := by
        rintro rfl
        simp at hq
      exact hs.shared.flying q g (by simpa [Function.update_of_ne hqp] using hq)
    · obtain rfl : w.streams.length = st := Option.some.inj hst
      exact Or.inl (by simp)
    · by_cases heq : st = w.streams.length
      · subst heq
        simp at hp
      · exact hs.shared.closing st listeners (by simpa [Function.update_of_ne heq] using hp)
  · rw [hhub] at ho
    obtain ⟨st, hst⟩ := ho
    exact hs.indexed.captured o ⟨st, (hby st o).1 hst⟩
  · have hk := hs.kept o obs hobs
    rw [hhub]
    refine hk.settle (p := p) rfl (fun st => hby st o) (fun st => hpending st o) rfl rfl hf
      (fun ho => ⟨ho.1, rfl⟩) (fun _ _ hq => hq) (fun _ hawaits => ?_)
      fun q hcall hrejected _ => ?_
    · rw [hflying'] at hawaits
      exact ⟨hawaits.1, rfl⟩
    · have hqp : q ≠ p := by
        rintro rfl
        simp at hrejected
      have hq : w.starts[q]? = some .rejected := by
        have hupdated : Function.update w.hub.start p (some .fulfilled) q = some .rejected := hrejected
        rwa [Function.update_of_ne hqp] at hupdated
      have hmem : obs ∈ w.observations := List.mem_of_getElem? hobs
      have hall := List.any_eq_false.1 hjoining obs hmem
      simp [hcall, hq] at hall

theorem hello (hs : Sound w) {p : ℕ} {answer : Hello} {t : MongoDBWatcher}
    (hd : w.disposing = none) (hf : w.fanout = none) (ht : w.hello p answer = some t) :
    Sound t := by
  unfold MongoDBWatcher.hello at ht
  split at ht
  · next generation hflying =>
      split_ifs at ht with hjoining
      obtain rfl := Option.some.inj ht
      cases answer with
      | failed => exact hs.startFailed hd hf hflying
      | operationTime watchThrows =>
          rw [helloed]
          split_ifs with hstale hempty hthrows
          · refine hs.settleStale hd hf hflying ?_
            simpa using hstale
          · obtain ⟨-, hgeneration⟩ : w.disposed = false ∧ generation = w.generation := by
              simpa using hstale
            have hopening := (hs.shared.flying p generation hflying).2 hgeneration
            obtain ⟨o, ho, -⟩ := hs.indexed.creator p hopening (hs.stream_none hflying hopening)
            rw [List.isEmpty_iff.1 hempty] at ho
            cases ho
          · exact hs.startFailed hd hf hflying
          · obtain ⟨hdisposed, hgeneration⟩ : w.disposed = false ∧ generation = w.generation := by
              simpa using hstale
            exact hs.opened hf hdisposed (by simpa using hempty) hflying hgeneration
              (by simpa using hjoining)
  · cases ht

/-! ### Reads -/

theorem setLoop (hs : Sound w) {obs : Observation} {l : ReadLoop}
    (hobs : w.observations[o]? = some obs) (hr : Reads w.hub o obs.closed l) :
    Sound (w.setLoop o l) := by
  refine hs.modify hobs ((hs.kept o obs hobs).setLoop fun l' hl' => ?_) (Or.inl rfl)
  obtain rfl := Option.some.inj hl'
  exact hr

/-- The read loop of `o` ends: the observation is closed, or is up to date. -/
theorem endLoop (hs : Sound w) (hlatest : ∀ obs l, w.observations[o]? = some obs →
    obs.loop = some l → obs.closed = true ∨ w.hub.Captured o ∨ l.Latest) : Sound (w.endLoop o) := by
  refine of_modify hs.shared hs.indexed (fun _ _ => Or.inl rfl)
    (fun o' obs hobs _ => hs.kept o' obs hobs) fun obs hobs => ?_
  refine (hs.kept o obs hobs).setLoop fun l' hl' => ?_
  obtain ⟨l, hl, rfl⟩ := Option.map_eq_some_iff.1 hl'
  exact ⟨fun _ hp => by simp at hp, fun hp => by simp at hp, fun _ => hlatest obs l hobs hl,
    fun hp => absurd rfl hp⟩

/-- A loop that is not idle has lost its watcher, or is one of its listeners. -/
theorem latest_of_running (hs : Sound w) {obs : Observation} {l : ReadLoop}
    (hd : w.disposing = none) (hobs : w.observations[o]? = some obs) (hl : obs.loop = some l)
    (hp : l.phase ≠ .idle) (hlatest : obs.closed = false → w.disposed = false → l.Latest) :
    obs.closed = true ∨ w.hub.Captured o ∨ l.Latest := by
  rcases ((hs.kept o obs hobs).reads l hl).running hp with hc | hc | ⟨hin, -⟩
  · exact Or.inl hc
  · exact Or.inr (Or.inl hc)
  · cases hclosed : obs.closed with
    | true => exact Or.inl rfl
    | false =>
        cases hdisposed : w.disposed with
        | false => exact Or.inr (Or.inr (hlatest hclosed hdisposed))
        | true =>
            have hlisteners : w.listeners = [] := (hs.shared.shut hdisposed hd).1
            have hin' : o ∈ w.listeners := hin
            rw [hlisteners] at hin'
            cases hin'

theorem closed_of_close {obs : Observation} (hobs : (w.close o).observations[o]? = some obs) :
    obs.closed = true := by
  cases hwas : w.observations[o]? with
  | none => simp [MongoDBWatcher.close, hwas] at hobs
  | some obs' =>
      have hset : (w.modify o fun obs => { obs with closed := true }).observations[o]? =
          some { obs' with closed := true } := getElem?_modify_self hwas
      rw [MongoDBWatcher.close, hwas] at hobs
      dsimp only at hobs
      split_ifs at hobs with hclosed hattached
      · obtain rfl := Option.some.inj (hwas.symm.trans hobs)
        exact hclosed
      · have hreleased : ((w.modify o fun obs => { obs with closed := true }).modify o
            fun obs => { obs with released := true }).observations[o]? = some obs := by
          rw [MongoDBWatcher.release] at hobs
          split_ifs at hobs <;> exact hobs
        rw [getElem?_modify_self hset] at hreleased
        obtain rfl := Option.some.inj hreleased
        rfl
      · obtain rfl := Option.some.inj (hset.symm.trans hobs)
        rfl

theorem resumeReads (hs : Sound w) {failing : Bool} {t : MongoDBWatcher} (hd : w.disposing = none)
    (ht : w.resumeReads o failing = some t) : Sound t := by
  unfold MongoDBWatcher.resumeReads at ht
  split at ht
  · next call closed released errors l hobs =>
      split at ht
      · next since hphase =>
          obtain rfl := Option.some.inj ht
          have hr := (hs.kept o _ hobs).reads l rfl
          have hrunning : l.phase ≠ .idle := by simp [hphase]
          split_ifs with hfailing hdropped
          · exact (hs.close o).endLoop fun obs _ hobs' _ => Or.inl (closed_of_close hobs')
          · refine hs.endLoop fun obs l' hobs' hl' => ?_
            obtain rfl := Option.some.inj (hobs.symm.trans hobs')
            obtain rfl := Option.some.inj hl'
            refine hs.latest_of_running hd hobs rfl hrunning fun hopen hdisposed => ?_
            have hopen' : closed = false := hopen
            simp [hopen', hdisposed] at hdropped
          · refine hs.setLoop hobs ⟨fun _ hp => by simp at hp, fun _ hclean => ?_,
              fun hp => by simp at hp, fun _ => hr.running hrunning⟩
            rw [hr.reading since hphase hclean]
            simp
      · cases ht
  · cases ht

theorem resumeLoop (hs : Sound w) {t : MongoDBWatcher} (hd : w.disposing = none)
    (ht : w.resumeLoop o = some t) : Sound t := by
  unfold MongoDBWatcher.resumeLoop at ht
  split at ht
  · next call closed released errors l hobs =>
      split at ht
      · next hphase =>
          obtain rfl := Option.some.inj ht
          have hr := (hs.kept o _ hobs).reads l rfl
          have hrunning : l.phase ≠ .idle := by simp [hphase]
          split_ifs with hagain
          · refine hs.setLoop hobs ⟨fun since hp _ => ?_, fun hp => ?_, fun hp => ?_,
              fun _ => hr.running hrunning⟩
            · simpa [ReadLoop.startRead] using hp.symm
            · simp [ReadLoop.startRead] at hp
            · simp [ReadLoop.startRead] at hp
          · refine hs.endLoop fun obs l' hobs' hl' => ?_
            obtain rfl := Option.some.inj (hobs.symm.trans hobs')
            obtain rfl := Option.some.inj hl'
            refine hs.latest_of_running hd hobs rfl hrunning fun hopen hdisposed => ?_
            have hopen' : closed = false := hopen
            have hclean : l.dirty = false := by simpa [hopen', hdisposed] using hagain
            exact ⟨hclean, Or.inl (hr.delivered hphase hclean)⟩
      · cases ht
  · cases ht

end Sound

end MongoDBWatcher

end Arc.MongoDB
