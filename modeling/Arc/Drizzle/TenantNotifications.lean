import Arc.Drizzle.RegisteredListeners

/-!
# Tenant-exact notifications

`Fact.Allowed` is the order in which runs settle, changes are notified and publications are made.
`Running` says how the frames follow the log and `Publishes` what the loops in progress have
still to publish; with the registrations they are kept by every call, from whatever context it
comes and whatever a listener does in between.
-/

namespace Arc.Drizzle

variable {τ κ χ : Type}

/-! ### What is allowed when -/

/-- The run of the tenant that a context joins: it is active, and no other one is. -/
def Outermost (before : List (Fact τ κ)) (context : FrameContext τ) (tenant : τ) (frame : ℕ) :
    Prop :=
  (tenant, frame) ∈ context ∧ .settled frame ∉ before ∧
    ∀ other, (tenant, other) ∈ context → other ≠ frame → .settled other ∈ before

/-- No run of the tenant around the context is active. -/
def Outside (before : List (Fact τ κ)) (context : FrameContext τ) (tenant : τ) : Prop :=
  ∀ frame, (tenant, frame) ∈ context → .settled frame ∈ before

/-- What a run has to publish once it has settled, and a notification at once. -/
def Due (before : List (Fact τ κ)) : Cause → τ → κ → Prop
  | .run frame, tenant, table =>
      .settled frame ∈ before ∧ ∃ context, .notified context tenant frame table ∈ before
  | .notification identity, tenant, table => ∃ context, .raised context tenant identity table ∈ before

/-- What must have happened, and what must not, before a fact. -/
def Fact.Allowed (before : List (Fact τ κ)) : Fact τ κ → Prop
  | .listened listener _ _ =>
      (∀ tenant table, .listened listener tenant table ∉ before) ∧ .released listener ∉ before
  | .released listener =>
      (∃ tenant table, .listened listener tenant table ∈ before) ∧ .released listener ∉ before
  | .opened context tenant frame =>
      (∀ context tenant, .opened context tenant frame ∉ before) ∧ Outside before context tenant
  | .joined context tenant frame => Outermost before context tenant frame
  | .notified context tenant frame _ => Outermost before context tenant frame
  | .raised context tenant identity _ => Outside before context tenant ∧
      ∀ tenant table called, .published (.notification identity) tenant table called ∉ before
  | .settled frame =>
      (∃ context tenant, .opened context tenant frame ∈ before) ∧ .settled frame ∉ before
  | .published cause tenant table called => Due before cause tenant table ∧
      (∀ called, .published cause tenant table called ∉ before) ∧ called.Nodup ∧
      ∀ listener, listener ∈ called ↔
        .listened listener tenant table ∈ before ∧ .released listener ∉ before
  | .completed cause => .completed cause ∉ before ∧
      ∀ tenant table, Due before cause tenant table →
        ∃ called, .published cause tenant table called ∈ before

namespace DrizzleChangeNotifications

open History

/-! ### Invariants -/

/-- The frames and the contexts follow the log. -/
structure Running [DecidableEq τ] (s : DrizzleChangeNotifications τ κ χ) : Prop where
  settled : ∀ f, .settled f ∈ s.log ↔ ∃ frame, s.frames[f]? = some frame ∧ frame.active = false
  opened : ∀ f frame, s.frames[f]? = some frame → ∃ c, .opened c frame.tenant f ∈ s.log
  openedLt : ∀ c t f, .opened c t f ∈ s.log → f < s.frames.length
  contexts : ∀ c ∈ s.contexts, ∀ t f, (t, f) ∈ c → ∃ frame, s.frames[f]? = some frame ∧
    frame.tenant = t ∧ (frame.active = true → c.lookup t = some f)
  pending : ∀ f frame, s.frames[f]? = some frame → frame.active = true →
    frame.pending.Nodup ∧ ∀ T, T ∈ frame.pending ↔ ∃ c, .notified c frame.tenant f T ∈ s.log
  notified : ∀ c t f T, .notified c t f T ∈ s.log →
    ∃ frame, s.frames[f]? = some frame ∧ frame.tenant = t

/-- The loop over what is to be published has begun. -/
def Begun (s : DrizzleChangeNotifications τ κ χ) : Cause → Prop
  | .run frame => .settled frame ∈ s.log
  | .notification identity => identity < s.notifications

/-- What is due has been published, or remains in a loop in progress. -/
structure Publishes (s : DrizzleChangeNotifications τ κ χ) : Prop where
  causes : (s.publishing.map (·.cause)).Nodup
  begun : ∀ p ∈ s.publishing, s.Begun p.cause ∧ .completed p.cause ∉ s.log
  remaining : ∀ p ∈ s.publishing, p.remaining.Nodup ∧ ∀ T ∈ p.remaining,
    Due s.log p.cause p.tenant T ∧ ∀ called, .published p.cause p.tenant T called ∉ s.log
  due : ∀ p ∈ s.publishing, ∀ t T, Due s.log p.cause t T →
    (∃ called, .published p.cause t T called ∈ s.log) ∨ t = p.tenant ∧ T ∈ p.remaining
  finished : ∀ cause, s.Begun cause → cause ∉ s.publishing.map (·.cause) →
    .completed cause ∈ s.log ∧ ∀ t T, Due s.log cause t T →
      ∃ called, .published cause t T called ∈ s.log
  raised : ∀ c t n T, .raised c t n T ∈ s.log → n < s.notifications
  published : ∀ cause t T called, .published cause t T called ∈ s.log → s.Begun cause
  completed : ∀ cause, .completed cause ∈ s.log → s.Begun cause

variable [DecidableEq τ] [DecidableEq κ] [DecidableEq χ]
  {s : DrizzleChangeNotifications τ κ χ} {c : FrameContext τ} {t : τ} {T : κ} {f k : ℕ}

/-- What every call keeps. -/
structure Sound (s : DrizzleChangeNotifications τ κ χ) : Prop extends
    Registered s, Running s, Publishes s where
  ordered : Ordered Fact.Allowed s.log

/-! ### Sets of tables -/

theorem mem_addAll {set items : List κ} : T ∈ addAll set items ↔ T ∈ set ∨ T ∈ items := by
  induction items generalizing set with
  | nil => simp [addAll]
  | cons item items ih =>
      change T ∈ addAll (if item ∈ set then set else set ++ [item]) items ↔ _
      rw [ih]
      split_ifs with hmem
      · constructor
        · rintro (h | h)
          · exact .inl h
          · exact .inr (List.mem_cons_of_mem item h)
        · rintro (h | h)
          · exact .inl h
          · rcases List.mem_cons.1 h with rfl | h
            · exact .inl hmem
            · exact .inr h
      · simp [or_assoc]

theorem nodup_addAll {set items : List κ} (h : set.Nodup) : (addAll set items).Nodup := by
  induction items generalizing set with
  | nil => exact h
  | cons item items ih =>
      change (addAll (if item ∈ set then set else set ++ [item]) items).Nodup
      refine ih ?_
      split_ifs with hmem
      · exact h
      · refine List.nodup_append.2 ⟨h, List.nodup_singleton item, fun a ha b hb => ?_⟩
        rw [List.mem_singleton.1 hb]
        rintro rfl
        exact hmem ha

/-! ### Frames -/

namespace Running

variable {frame : Frame τ κ}

theorem activeFrame_some (hs : s.Running) (hc : c ∈ s.contexts)
    (h : s.activeFrame c t = some (f, frame)) :
    s.frames[f]? = some frame ∧ frame.active = true ∧ frame.tenant = t ∧
      Outermost s.log c t f := by
  obtain ⟨f', hlookup, hf⟩ := Option.bind_eq_some_iff.1 h
  obtain ⟨frame', hframe, heq⟩ := Option.map_eq_some_iff.1 hf
  obtain ⟨hframe, hactive⟩ := Option.filter_eq_some_iff.1 hframe
  obtain ⟨rfl, rfl⟩ := Prod.mk.inj heq
  have hmem : (t, f') ∈ c := by
    obtain ⟨l, r, hsplit, -⟩ := List.lookup_eq_some_iff.1 hlookup
    rw [hsplit]
    simp
  obtain ⟨frame, hframe', htenant, -⟩ := hs.contexts c hc t f' hmem
  obtain rfl : frame' = frame := Option.some.inj (hframe.symm.trans hframe')
  refine ⟨hframe, hactive, htenant, hmem, ?_, fun g hg hne => (hs.settled g).2 ?_⟩
  · rw [hs.settled]
    rintro ⟨frame, hframe'', hinactive⟩
    obtain rfl : frame' = frame := Option.some.inj (hframe.symm.trans hframe'')
    rw [hactive] at hinactive
    cases hinactive
  · obtain ⟨other, hother, -, hlatest⟩ := hs.contexts c hc t g hg
    cases hg' : other.active with
    | false => exact ⟨other, hother, hg'⟩
    | true => exact absurd (Option.some.inj ((hlatest hg').symm.trans hlookup)) hne

theorem activeFrame_none (hs : s.Running) (hc : c ∈ s.contexts) (h : s.activeFrame c t = none) :
    Outside s.log c t := by
  intro g hg
  rw [hs.settled]
  obtain ⟨other, hother, -, hlatest⟩ := hs.contexts c hc t g hg
  cases hg' : other.active with
  | false => exact ⟨other, hother, hg'⟩
  | true =>
      unfold activeFrame at h
      rw [hlatest hg', Option.bind_some, hother] at h
      simp [hg'] at h

/-- Only what the frames are is looked at. -/
theorem congr {s' : DrizzleChangeNotifications τ κ χ} (hs : s.Running)
    (hframes : s'.frames = s.frames) (hcontexts : s'.contexts = s.contexts)
    (hsettled : ∀ f, .settled f ∈ s'.log ↔ .settled f ∈ s.log)
    (hopened : ∀ c t f, .opened c t f ∈ s'.log ↔ .opened c t f ∈ s.log)
    (hnotified : ∀ c t f T, .notified c t f T ∈ s'.log ↔ .notified c t f T ∈ s.log) :
    s'.Running := by
  constructor
  case settled => simpa only [hsettled, hframes] using hs.settled
  case opened => simpa only [hopened, hframes] using hs.opened
  case openedLt => simpa only [hopened, hframes] using hs.openedLt
  case contexts => simpa only [hcontexts, hframes] using hs.contexts
  case pending => simpa only [hnotified, hframes] using hs.pending
  case notified => simpa only [hnotified, hframes] using hs.notified

end Running

namespace Publishes

/-- Only what is due and published is looked at. -/
theorem congr {s' : DrizzleChangeNotifications τ κ χ} (hs : s.Publishes)
    (hpublishing : s'.publishing = s.publishing) (hnotifications : s'.notifications = s.notifications)
    (hsettled : ∀ f, .settled f ∈ s'.log ↔ .settled f ∈ s.log)
    (hraised : ∀ c t n T, .raised c t n T ∈ s'.log ↔ .raised c t n T ∈ s.log)
    (hdue : ∀ cause t T, Due s'.log cause t T ↔ Due s.log cause t T)
    (hpublished : ∀ cause t T called,
      .published cause t T called ∈ s'.log ↔ .published cause t T called ∈ s.log)
    (hcompleted : ∀ cause, .completed cause ∈ s'.log ↔ .completed cause ∈ s.log) :
    s'.Publishes := by
  have hbegun : ∀ cause, s'.Begun cause ↔ s.Begun cause := by
    intro cause
    cases cause with
    | run f => exact hsettled f
    | notification n => rw [Begun, Begun, hnotifications]
  constructor
  case causes => simpa only [hpublishing] using hs.causes
  case begun => simpa only [hpublishing, hbegun, hcompleted] using hs.begun
  case remaining => simpa only [hpublishing, hdue, hpublished] using hs.remaining
  case due => simpa only [hpublishing, hdue, hpublished] using hs.due
  case finished =>
    simpa only [hpublishing, hbegun, hcompleted, hdue, hpublished] using hs.finished
  case raised => simpa only [hraised, hnotifications] using hs.raised
  case published => simpa only [hpublished, hbegun] using hs.published
  case completed => simpa only [hcompleted, hbegun] using hs.completed

/-- A loop begins over what has just become due. -/
theorem push {s' : DrizzleChangeNotifications τ κ χ} {p : Publishing τ κ} (hs : s.Publishes)
    (hpublishing : s'.publishing = p :: s.publishing)
    (hnew : ¬ s.Begun p.cause)
    (hbegun : ∀ cause, s'.Begun cause ↔ s.Begun cause ∨ cause = p.cause)
    (hremaining : p.remaining.Nodup)
    (hdue : ∀ cause t T, Due s'.log cause t T ↔
      if cause = p.cause then t = p.tenant ∧ T ∈ p.remaining else Due s.log cause t T)
    (hraised : ∀ c t n T, .raised c t n T ∈ s'.log → n < s'.notifications)
    (hpublished : ∀ cause t T called,
      .published cause t T called ∈ s'.log ↔ .published cause t T called ∈ s.log)
    (hcompleted : ∀ cause, .completed cause ∈ s'.log ↔ .completed cause ∈ s.log) :
    s'.Publishes := by
  have hne : ∀ q ∈ s.publishing, q.cause ≠ p.cause := by
    intro q hq heq
    exact hnew (heq ▸ (hs.begun q hq).1)
  constructor
  case causes =>
    rw [hpublishing, List.map_cons, List.nodup_cons]
    refine ⟨fun hmem => ?_, hs.causes⟩
    obtain ⟨q, hq, heq⟩ := List.mem_map.1 hmem
    exact hne q hq heq
  case begun =>
    intro q hq
    rw [hpublishing, List.mem_cons] at hq
    rw [hbegun, hcompleted]
    rcases hq with rfl | hq
    · exact ⟨.inr rfl, fun hmem => hnew (hs.completed _ hmem)⟩
    · exact ⟨.inl (hs.begun q hq).1, (hs.begun q hq).2⟩
  case remaining =>
    intro q hq
    rw [hpublishing, List.mem_cons] at hq
    simp only [hdue, hpublished]
    rcases hq with rfl | hq
    · refine ⟨hremaining, fun T hT => ⟨by rw [if_pos rfl]; exact ⟨rfl, hT⟩, fun called hmem => ?_⟩⟩
      exact hnew (hs.published _ _ _ _ hmem)
    · simpa only [if_neg (hne q hq)] using hs.remaining q hq
  case due =>
    intro q hq t T
    rw [hpublishing, List.mem_cons] at hq
    simp only [hdue, hpublished]
    rcases hq with rfl | hq
    · rw [if_pos rfl]
      exact .inr
    · rw [if_neg (hne q hq)]
      exact hs.due q hq t T
  case finished =>
    intro cause hcause hnot
    rw [hpublishing, List.map_cons, List.mem_cons, not_or] at hnot
    simp only [hdue, hpublished, hcompleted, if_neg hnot.1]
    exact hs.finished cause (((hbegun cause).1 hcause).resolve_right hnot.1) hnot.2
  case raised => exact hraised
  case published =>
    intro cause t T called hmem
    rw [hpublished] at hmem
    exact (hbegun cause).2 (.inl (hs.published cause t T called hmem))
  case completed =>
    intro cause hmem
    rw [hcompleted] at hmem
    exact (hbegun cause).2 (.inl (hs.completed cause hmem))

end Publishes

/-! ### Every call keeps them -/

/-- What is due depends on what was settled, notified and raised. -/
theorem due_congr {log log' : List (Fact τ κ)}
    (hsettled : ∀ f, .settled f ∈ log' ↔ .settled f ∈ log)
    (hnotified : ∀ c t f T, .notified c t f T ∈ log' ↔ .notified c t f T ∈ log)
    (hraised : ∀ c t n T, .raised c t n T ∈ log' ↔ .raised c t n T ∈ log) (cause : Cause) (t : τ)
    (T : κ) : Due log' cause t T ↔ Due log cause t T := by
  cases cause with
  | run f => simp only [Due, hsettled, hnotified]
  | notification n => simp only [Due, hraised]

namespace Sound

theorem listen (hs : s.Sound) (t : τ) (T : κ) : (s.listen t T).Sound where
  toRegistered := hs.toRegistered.listen t T
  toRunning := hs.toRunning.congr rfl rfl (by simp [DrizzleChangeNotifications.listen])
    (by simp [DrizzleChangeNotifications.listen]) (by simp [DrizzleChangeNotifications.listen])
  toPublishes := hs.toPublishes.congr rfl rfl (by simp [DrizzleChangeNotifications.listen])
    (by simp [DrizzleChangeNotifications.listen])
    (due_congr (by simp [DrizzleChangeNotifications.listen])
      (by simp [DrizzleChangeNotifications.listen]) (by simp [DrizzleChangeNotifications.listen]))
    (by simp [DrizzleChangeNotifications.listen]) (by simp [DrizzleChangeNotifications.listen])
  ordered := ordered_concat.2 ⟨hs.ordered,
    fun _ _ hmem => absurd (hs.listened_lt hmem) (Nat.lt_irrefl _),
    fun hmem => absurd (hs.released_lt hmem) (Nat.lt_irrefl _)⟩

theorem release {l : Listener τ κ} (hs : s.Sound) (hl : s.registered[k]? = some l)
    (hr : l.released = false) : (s.release k l).Sound where
  toRegistered := hs.toRegistered.release hl hr
  toRunning := hs.toRunning.congr rfl rfl (by simp [DrizzleChangeNotifications.release])
    (by simp [DrizzleChangeNotifications.release]) (by simp [DrizzleChangeNotifications.release])
  toPublishes := hs.toPublishes.congr rfl rfl (by simp [DrizzleChangeNotifications.release])
    (by simp [DrizzleChangeNotifications.release])
    (due_congr (by simp [DrizzleChangeNotifications.release])
      (by simp [DrizzleChangeNotifications.release]) (by simp [DrizzleChangeNotifications.release]))
    (by simp [DrizzleChangeNotifications.release]) (by simp [DrizzleChangeNotifications.release])
  ordered := by
    refine ordered_concat.2 ⟨hs.ordered, ⟨_, _, (hs.listened k _ _).2 ⟨l, hl, rfl, rfl⟩⟩, ?_⟩
    rw [hs.released]
    rintro ⟨l', hl', hr'⟩
    obtain rfl : l = l' := Option.some.inj (hl.symm.trans hl')
    rw [hr] at hr'
    cases hr'

/-- A run of a tenant that no run around it is active for. -/
theorem opens (hs : s.Sound) (hc : c ∈ s.contexts) (h : s.activeFrame c t = none) :
    (s.run c t).Sound := by
  have hrun : s.run c t =
      { s with
        frames := s.frames ++ [{ tenant := t }]
        contexts := s.contexts ++ [(t, s.frames.length) :: c]
        log := s.log ++ [.opened c t s.frames.length] } := by
    rw [run, h]
  have hgrown : ∀ (f : ℕ) frame, s.frames[f]? = some frame →
      (s.frames ++ [{ tenant := t }])[f]? = some frame := by
    intro f frame hf
    rw [List.getElem?_append_left (List.getElem?_eq_some_iff.1 hf).1, hf]
  have hcases : ∀ (f : ℕ) frame, (s.frames ++ [{ tenant := t }])[f]? = some frame →
      s.frames[f]? = some frame ∨ f = s.frames.length ∧ frame = { tenant := t } := by
    intro f frame hf
    rw [List.getElem?_append] at hf
    split_ifs at hf with hlt
    · exact .inl hf
    · have hf' : f - s.frames.length = 0 := by
        by_contra hne
        rw [List.getElem?_singleton, if_neg hne] at hf
        cases hf
      rw [hf'] at hf
      exact .inr ⟨by omega, (Option.some.inj hf).symm⟩
  rw [hrun]
  refine ⟨hs.toRegistered.frame rfl rfl rfl rfl rfl (by simp) (by simp), ?_,
    hs.toPublishes.congr rfl rfl (by simp) (by simp) (due_congr (by simp) (by simp) (by simp))
      (by simp) (by simp), ordered_concat.2 ⟨hs.ordered, ?_, hs.toRunning.activeFrame_none hc h⟩⟩
  · constructor
    case settled =>
      intro f
      simp only [List.mem_append, List.mem_singleton, reduceCtorEq, or_false, hs.settled]
      constructor
      · rintro ⟨frame, hf, hinactive⟩
        exact ⟨frame, hgrown f frame hf, hinactive⟩
      · rintro ⟨frame, hf, hinactive⟩
        rcases hcases f frame hf with hf | ⟨-, rfl⟩
        · exact ⟨frame, hf, hinactive⟩
        · cases hinactive
    case opened =>
      intro f frame hf
      rcases hcases f frame hf with hf | ⟨rfl, rfl⟩
      · obtain ⟨c', hc'⟩ := hs.opened f frame hf
        exact ⟨c', List.mem_append_left _ hc'⟩
      · exact ⟨c, List.mem_concat_self⟩
    case openedLt =>
      intro c' t' f hmem
      change f < (s.frames ++ [_]).length
      rw [List.length_append, List.length_singleton]
      rcases List.mem_append.1 hmem with hmem | hmem
      · exact Nat.lt_succ_of_lt (hs.openedLt c' t' f hmem)
      · cases List.mem_singleton.1 hmem
        exact Nat.lt_succ_self _
    case contexts =>
      intro c' hc' t' f hmem
      rcases List.mem_append.1 hc' with hc' | hc'
      · obtain ⟨frame, hf, htenant, hlatest⟩ := hs.contexts c' hc' t' f hmem
        exact ⟨frame, hgrown f frame hf, htenant, hlatest⟩
      · obtain rfl := List.mem_singleton.1 hc'
        rcases List.mem_cons.1 hmem with heq | hold
        · cases heq
          exact ⟨{ tenant := t }, List.getElem?_concat_length, rfl,
            fun _ => List.lookup_cons_self⟩
        · obtain ⟨frame, hf, htenant, hlatest⟩ := hs.contexts c hc t' f hold
          refine ⟨frame, hgrown f frame hf, htenant, fun hactive => ?_⟩
          by_cases ht : t' = t
          · -- The frames of the tenant that the new one hides have all settled.
            subst ht
            obtain ⟨frame', hf', hinactive⟩ :=
              (hs.settled f).1 (hs.toRunning.activeFrame_none hc h f hold)
            obtain rfl : frame = frame' := Option.some.inj (hf.symm.trans hf')
            rw [hactive] at hinactive
            cases hinactive
          · rw [List.lookup_cons, beq_false_of_ne ht]
            exact hlatest hactive
    case pending =>
      intro f frame hf hactive
      simp only [List.mem_append, List.mem_singleton, reduceCtorEq, or_false]
      rcases hcases f frame hf with hf | ⟨rfl, rfl⟩
      · exact hs.pending f frame hf hactive
      · refine ⟨List.nodup_nil, fun T => ⟨fun hT => absurd hT List.not_mem_nil, ?_⟩⟩
        rintro ⟨c', hc'⟩
        obtain ⟨frame, hf, -⟩ := hs.notified c' t s.frames.length T hc'
        exact absurd (List.getElem?_eq_some_iff.1 hf).1 (Nat.lt_irrefl _)
    case notified =>
      intro c' t' f T hmem
      simp only [List.mem_append, List.mem_singleton, reduceCtorEq, or_false] at hmem
      obtain ⟨frame, hf, htenant⟩ := hs.notified c' t' f T hmem
      exact ⟨frame, hgrown f frame hf, htenant⟩
  · intro c' t' hmem
    exact absurd (hs.openedLt c' t' _ hmem) (Nat.lt_irrefl _)

theorem run (hs : s.Sound) (hc : c ∈ s.contexts) : (s.run c t).Sound := by
  cases h : s.activeFrame c t with
  | none => exact hs.opens hc h
  | some found =>
      obtain ⟨f, frame⟩ := found
      have hrun : s.run c t = { s with log := s.log ++ [.joined c t f] } := by
        rw [DrizzleChangeNotifications.run, h]
      rw [hrun]
      exact ⟨hs.toRegistered.frame rfl rfl rfl rfl rfl (by simp) (by simp),
        hs.toRunning.congr rfl rfl (by simp) (by simp) (by simp),
        hs.toPublishes.congr rfl rfl (by simp) (by simp) (due_congr (by simp) (by simp) (by simp))
          (by simp) (by simp),
        ordered_concat.2 ⟨hs.ordered, (hs.toRunning.activeFrame_some hc h).2.2.2⟩⟩

/-- A run settles: what it has pending is due from now on. -/
theorem settle {s' : DrizzleChangeNotifications τ κ χ} (hs : s.Sound) (h : s.settle f = some s') :
    s'.Sound := by
  obtain ⟨frame, hfound, rfl⟩ := Option.map_eq_some_iff.1 h
  obtain ⟨hframe, hactive⟩ := Option.filter_eq_some_iff.1 hfound
  have hlt := (List.getElem?_eq_some_iff.1 hframe).1
  have hself : (s.frames.set f { frame with active := false, pending := [] })[f]? =
      some { frame with active := false, pending := [] } := List.getElem?_set_self hlt
  have hother : ∀ g, g ≠ f → (s.frames.set f { frame with active := false, pending := [] })[g]? =
      s.frames[g]? := fun g hg => List.getElem?_set_ne (Ne.symm hg)
  have hnew : .settled f ∉ s.log := by
    rw [hs.settled]
    rintro ⟨frame', hframe', hinactive⟩
    obtain rfl : frame = frame' := Option.some.inj (hframe.symm.trans hframe')
    rw [hactive] at hinactive
    cases hinactive
  obtain ⟨hnodup, hpending⟩ := hs.pending f frame hframe hactive
  refine ⟨hs.toRegistered.frame rfl rfl rfl rfl rfl (by simp) (by simp), ?_, ?_,
    ordered_concat.2 ⟨hs.ordered, ?_, hnew⟩⟩
  · constructor
    case settled =>
      intro g
      rw [List.mem_append, hs.settled]
      by_cases hg : g = f
      · subst hg
        simp [hself]
      · simp [hother g hg, hg]
    case opened =>
      intro g frame' hg
      by_cases hsame : g = f
      · subst hsame
        rw [hself] at hg
        cases hg
        obtain ⟨c, hc⟩ := hs.opened g frame hframe
        exact ⟨c, List.mem_append_left _ hc⟩
      · rw [hother g hsame] at hg
        obtain ⟨c, hc⟩ := hs.opened g frame' hg
        exact ⟨c, List.mem_append_left _ hc⟩
    case openedLt =>
      intro c t g hmem
      rw [List.length_set]
      simp only [List.mem_append, List.mem_singleton, reduceCtorEq, or_false] at hmem
      exact hs.openedLt c t g hmem
    case contexts =>
      intro c hc t g hmem
      obtain ⟨frame', hg, htenant, hlatest⟩ := hs.contexts c hc t g hmem
      by_cases hsame : g = f
      · subst hsame
        obtain rfl : frame = frame' := Option.some.inj (hframe.symm.trans hg)
        refine ⟨_, hself, htenant, fun hactive' => ?_⟩
        cases hactive'
      · exact ⟨frame', (hother g hsame).trans hg, htenant, hlatest⟩
    case pending =>
      intro g frame' hg hactive'
      simp only [List.mem_append, List.mem_singleton, reduceCtorEq, or_false]
      by_cases hsame : g = f
      · subst hsame
        rw [hself] at hg
        cases hg
        cases hactive'
      · rw [hother g hsame] at hg
        exact hs.pending g frame' hg hactive'
    case notified =>
      intro c t g T hmem
      simp only [List.mem_append, List.mem_singleton, reduceCtorEq, or_false] at hmem
      obtain ⟨frame', hg, htenant⟩ := hs.notified c t g T hmem
      by_cases hsame : g = f
      · subst hsame
        obtain rfl : frame = frame' := Option.some.inj (hframe.symm.trans hg)
        exact ⟨_, hself, htenant⟩
      · exact ⟨frame', (hother g hsame).trans hg, htenant⟩
  · refine hs.toPublishes.push (p := ⟨.run f, frame.tenant, frame.pending⟩) rfl hnew ?_ hnodup ?_
      ?_ (by simp) (by simp)
    · intro cause
      cases cause with
      | run g => simp [Begun]
      | notification n => simp [Begun]
    · intro cause t T
      cases cause with
      | run g =>
          by_cases hsame : g = f
          · subst hsame
            rw [if_pos rfl]
            simp only [Due, List.mem_append, List.mem_singleton, reduceCtorEq, or_false, or_true,
              true_and, hpending]
            constructor
            · rintro ⟨c, hc⟩
              obtain ⟨frame', hg, rfl⟩ := hs.notified c t g T hc
              obtain rfl : frame = frame' := Option.some.inj (hframe.symm.trans hg)
              exact ⟨rfl, c, hc⟩
            · rintro ⟨rfl, c, hc⟩
              exact ⟨c, hc⟩
          · simp [Due, hsame]
      | notification n => simp [Due]
    · intro c t n T hmem
      simp only [List.mem_append, List.mem_singleton, reduceCtorEq, or_false] at hmem
      exact hs.raised c t n T hmem
  · obtain ⟨c, hc⟩ := hs.opened f frame hframe
    exact ⟨c, _, hc⟩

/-- A notification inside an active run waits for it. -/
theorem queue {resolved : List κ} {frame : Frame τ κ} (hs : s.Sound) (hc : c ∈ s.contexts)
    (h : s.activeFrame c t = some (f, frame)) :
    Sound { s with
      frames := s.frames.set f { frame with pending := addAll frame.pending resolved }
      log := s.log ++ (addAll [] resolved).map (.notified c t f) } := by
  obtain ⟨hframe, hactive, htenant, houtermost⟩ := hs.toRunning.activeFrame_some hc h
  have hlt := (List.getElem?_eq_some_iff.1 hframe).1
  have hself : (s.frames.set f { frame with pending := addAll frame.pending resolved })[f]? =
      some { frame with pending := addAll frame.pending resolved } := List.getElem?_set_self hlt
  have hother : ∀ g, g ≠ f →
      (s.frames.set f { frame with pending := addAll frame.pending resolved })[g]? =
        s.frames[g]? := fun g hg => List.getElem?_set_ne (Ne.symm hg)
  have hnotified : ∀ c' t' g T, .notified c' t' g T ∈
      s.log ++ (addAll [] resolved).map (Fact.notified c t f) ↔
        .notified c' t' g T ∈ s.log ∨ c' = c ∧ t' = t ∧ g = f ∧ T ∈ resolved := by
    intro c' t' g T
    rw [List.mem_append, List.mem_map]
    refine or_congr_right ⟨?_, ?_⟩
    · rintro ⟨T', hT', heq⟩
      cases heq
      exact ⟨rfl, rfl, rfl, by simpa [mem_addAll] using hT'⟩
    · rintro ⟨rfl, rfl, rfl, hT⟩
      exact ⟨T, by simpa [mem_addAll] using hT, rfl⟩
  obtain ⟨hnodup, hpending⟩ := hs.pending f frame hframe hactive
  refine ⟨hs.toRegistered.frame rfl rfl rfl rfl rfl (by simp) (by simp), ?_,
    hs.toPublishes.congr rfl rfl (by simp) (by simp) ?_ (by simp) (by simp), ?_⟩
  · constructor
    case settled =>
      intro g
      simp only [List.mem_append, List.mem_map, reduceCtorEq, and_false, exists_false, or_false]
      rw [hs.settled]
      by_cases hg : g = f
      · subst hg
        simp [hself, hframe]
      · simp [hother g hg]
    case opened =>
      intro g frame' hg
      by_cases hsame : g = f
      · subst hsame
        rw [hself] at hg
        cases hg
        obtain ⟨c', hc'⟩ := hs.opened g frame hframe
        exact ⟨c', List.mem_append_left _ hc'⟩
      · rw [hother g hsame] at hg
        obtain ⟨c', hc'⟩ := hs.opened g frame' hg
        exact ⟨c', List.mem_append_left _ hc'⟩
    case openedLt =>
      intro c' t' g hmem
      rw [List.length_set]
      simp only [List.mem_append, List.mem_map, reduceCtorEq, and_false, exists_false,
        or_false] at hmem
      exact hs.openedLt c' t' g hmem
    case contexts =>
      intro c' hc' t' g hmem
      obtain ⟨frame', hg, htenant', hlatest⟩ := hs.contexts c' hc' t' g hmem
      by_cases hsame : g = f
      · subst hsame
        obtain rfl : frame = frame' := Option.some.inj (hframe.symm.trans hg)
        exact ⟨_, hself, htenant', hlatest⟩
      · exact ⟨frame', (hother g hsame).trans hg, htenant', hlatest⟩
    case pending =>
      intro g frame' hg hactive'
      simp only [hnotified]
      by_cases hsame : g = f
      · subst hsame
        rw [hself] at hg
        cases hg
        refine ⟨nodup_addAll hnodup, fun T => ?_⟩
        change T ∈ addAll frame.pending resolved ↔ _
        rw [mem_addAll, hpending]
        constructor
        · rintro (⟨c', hc'⟩ | hT)
          · exact ⟨c', .inl hc'⟩
          · exact ⟨c, .inr ⟨rfl, htenant, rfl, hT⟩⟩
        · rintro ⟨c', hc' | ⟨-, -, -, hT⟩⟩
          · exact .inl ⟨c', hc'⟩
          · exact .inr hT
      · rw [hother g hsame] at hg
        simp only [hsame, false_and, and_false, or_false]
        exact hs.pending g frame' hg hactive'
    case notified =>
      intro c' t' g T hmem
      rw [hnotified] at hmem
      rcases hmem with hmem | ⟨-, rfl, rfl, -⟩
      · obtain ⟨frame', hg, htenant'⟩ := hs.notified c' t' g T hmem
        by_cases hsame : g = f
        · subst hsame
          obtain rfl : frame = frame' := Option.some.inj (hframe.symm.trans hg)
          exact ⟨_, hself, htenant'⟩
        · exact ⟨frame', (hother g hsame).trans hg, htenant'⟩
      · exact ⟨_, hself, htenant⟩
  · intro cause t' T
    cases cause with
    | run g =>
        simp only [Due, hnotified]
        simp only [List.mem_append, List.mem_map, reduceCtorEq, and_false, exists_false, or_false]
        refine and_congr_right fun hsettled => exists_congr fun c' => ?_
        refine or_iff_left fun hnew => houtermost.2.1 ?_
        rwa [hnew.2.2.1] at hsettled
    | notification n => simp [Due]
  · refine hs.ordered.append fun before e after hsplit => ?_
    have he : ∃ T, e = .notified c t f T := by
      have hmem : e ∈ (addAll [] resolved).map (Fact.notified c t f) := by
        rw [hsplit]
        simp
      obtain ⟨T, -, rfl⟩ := List.mem_map.1 hmem
      exact ⟨T, rfl⟩
    have hbefore : ∀ g, Fact.settled g ∈ s.log ++ before ↔ .settled g ∈ s.log := by
      intro g
      rw [List.mem_append, or_iff_left]
      intro hmem
      have hmem' : Fact.settled g ∈ (addAll [] resolved).map (Fact.notified c t f) := by
        rw [hsplit]
        exact List.mem_append_left _ hmem
      obtain ⟨T, -, heq⟩ := List.mem_map.1 hmem'
      cases heq
    obtain ⟨T, rfl⟩ := he
    change Outermost (s.log ++ before) c t f
    simp only [Outermost, hbefore]
    exact houtermost

/-- A notification outside any active run is due at once. -/
theorem raise {resolved : List κ} (hs : s.Sound) (hc : c ∈ s.contexts)
    (h : s.activeFrame c t = none) :
    Sound { s with
      notifications := s.notifications + 1
      publishing := ⟨.notification s.notifications, t, addAll [] resolved⟩ :: s.publishing
      log := s.log ++ (addAll [] resolved).map (.raised c t s.notifications) } := by
  have houtside := hs.toRunning.activeFrame_none hc h
  have hraised : ∀ c' t' n T, .raised c' t' n T ∈
      s.log ++ (addAll [] resolved).map (Fact.raised c t s.notifications) ↔
        .raised c' t' n T ∈ s.log ∨
          c' = c ∧ t' = t ∧ n = s.notifications ∧ T ∈ addAll [] resolved := by
    intro c' t' n T
    rw [List.mem_append, List.mem_map]
    refine or_congr_right ⟨?_, ?_⟩
    · rintro ⟨T', hT', heq⟩
      cases heq
      exact ⟨rfl, rfl, rfl, hT'⟩
    · rintro ⟨rfl, rfl, rfl, hT⟩
      exact ⟨T, hT, rfl⟩
  refine ⟨hs.toRegistered.frame rfl rfl rfl rfl rfl (by simp) (by simp),
    hs.toRunning.congr rfl rfl (by simp) (by simp) (by simp), ?_, ?_⟩
  · refine hs.toPublishes.push (p := ⟨.notification s.notifications, t, addAll [] resolved⟩) rfl
      (Nat.lt_irrefl _) ?_ (nodup_addAll List.nodup_nil) ?_ ?_ (by simp) (by simp)
    · intro cause
      cases cause with
      | run g => simp [Begun]
      | notification n =>
          simp only [Begun, Cause.notification.injEq]
          omega
    · intro cause t' T
      cases cause with
      | run g => simp [Due]
      | notification n =>
          simp only [Due, hraised, Cause.notification.injEq]
          by_cases hn : n = s.notifications
          · subst hn
            rw [if_pos rfl]
            constructor
            · rintro ⟨c', hold | ⟨-, ht, -, hT⟩⟩
              · exact absurd (hs.raised c' t' _ T hold) (Nat.lt_irrefl _)
              · exact ⟨ht, hT⟩
            · rintro ⟨ht, hT⟩
              exact ⟨c, .inr ⟨rfl, ht, rfl, hT⟩⟩
          · rw [if_neg hn]
            simp only [hn, false_and, and_false, or_false]
    · intro c' t' n T hmem
      rcases (hraised c' t' n T).1 hmem with hold | ⟨-, -, rfl, -⟩
      · exact Nat.lt_succ_of_lt (hs.raised c' t' n T hold)
      · exact Nat.lt_succ_self _
  · refine hs.ordered.append fun before e after hsplit => ?_
    have hkind : ∀ e' ∈ before ++ e :: after, ∃ T, e' = .raised c t s.notifications T := by
      intro e' hmem
      rw [← hsplit] at hmem
      obtain ⟨T, -, rfl⟩ := List.mem_map.1 hmem
      exact ⟨T, rfl⟩
    obtain ⟨T, rfl⟩ := hkind e (by simp)
    constructor
    · intro g hg
      exact List.mem_append_left _ (houtside g hg)
    · intro t' T' called hmem
      rcases List.mem_append.1 hmem with hmem | hmem
      · exact absurd (hs.published _ _ _ _ hmem) (Nat.lt_irrefl _)
      · obtain ⟨T, heq⟩ := hkind _ (List.mem_append_left _ hmem)
        cases heq

theorem notify (hs : s.Sound) (hc : c ∈ s.contexts) (targets : List (Target κ χ)) :
    (s.notify c t targets).Sound := by
  unfold DrizzleChangeNotifications.notify
  split
  · exact hs
  · split_ifs
    · exact hs
    · split
      · exact hs.queue hc ‹_›
      · exact hs.raise hc ‹_›

/-- The innermost loop has published all its tables. -/
theorem finish {cause : Cause} {outer : List (Publishing τ κ)} (hs : s.Sound)
    (h : s.publishing = ⟨cause, t, []⟩ :: outer) :
    Sound { s with publishing := outer, log := s.log ++ [.completed cause] } := by
  have hhead : (⟨cause, t, []⟩ : Publishing τ κ) ∈ s.publishing := by
    rw [h]
    exact List.mem_cons_self
  have htail : ∀ p ∈ outer, p ∈ s.publishing := by
    intro p hp
    rw [h]
    exact List.mem_cons_of_mem _ hp
  have hcauses := hs.causes
  rw [h, List.map_cons, List.nodup_cons] at hcauses
  have hne : ∀ p ∈ outer, p.cause ≠ cause := fun p hp heq =>
    hcauses.1 (List.mem_map.2 ⟨p, hp, heq⟩)
  have hdue : ∀ cause' t' T', Due (s.log ++ [.completed cause]) cause' t' T' ↔
      Due s.log cause' t' T' := due_congr (by simp) (by simp) (by simp)
  have hpublished : ∀ cause' t' T called,
      .published cause' t' T called ∈ s.log ++ [.completed cause] ↔
        .published cause' t' T called ∈ s.log := by simp
  have hall : ∀ t' T, Due s.log cause t' T → ∃ called, .published cause t' T called ∈ s.log := by
    intro t' T hdue'
    refine (hs.due _ hhead t' T hdue').resolve_right ?_
    rintro ⟨-, hT⟩
    cases hT
  refine ⟨hs.toRegistered.frame rfl rfl rfl rfl rfl (by simp) (by simp),
    hs.toRunning.congr rfl rfl (by simp) (by simp) (by simp), ?_,
    ordered_concat.2 ⟨hs.ordered, (hs.begun _ hhead).2, hall⟩⟩
  have hbegun : ∀ cause', Begun { s with
      publishing := outer
      log := s.log ++ [.completed cause] } cause' ↔ s.Begun cause' := by
    intro cause'
    cases cause' <;> simp [Begun]
  constructor
  case causes => exact hcauses.2
  case begun =>
    intro p hp
    rw [hbegun]
    refine ⟨(hs.begun p (htail p hp)).1, fun hmem => ?_⟩
    rcases List.mem_append.1 hmem with hmem | hmem
    · exact (hs.begun p (htail p hp)).2 hmem
    · cases List.mem_singleton.1 hmem
      exact hne p hp rfl
  case remaining =>
    intro p hp
    simp only [hdue, hpublished]
    exact hs.remaining p (htail p hp)
  case due =>
    intro p hp
    simp only [hdue, hpublished]
    exact hs.due p (htail p hp)
  case finished =>
    intro cause' hcause' hnot
    rw [hbegun] at hcause'
    simp only [hdue, hpublished]
    by_cases hsame : cause' = cause
    · subst hsame
      exact ⟨List.mem_concat_self, hall⟩
    · have hnot' : cause' ∉ s.publishing.map (·.cause) := by
        rw [h, List.map_cons, List.mem_cons, not_or]
        exact ⟨hsame, hnot⟩
      obtain ⟨hcompleted, hall'⟩ := hs.finished cause' hcause' hnot'
      exact ⟨List.mem_append_left _ hcompleted, hall'⟩
  case raised =>
    intro c t' n T hmem
    simp only [List.mem_append, List.mem_singleton, reduceCtorEq, or_false] at hmem
    exact hs.raised c t' n T hmem
  case published =>
    intro cause' t' T called hmem
    rw [hpublished] at hmem
    exact (hbegun cause').2 (hs.published cause' t' T called hmem)
  case completed =>
    intro cause' hmem
    rw [hbegun]
    rcases List.mem_append.1 hmem with hmem | hmem
    · exact hs.completed cause' hmem
    · cases List.mem_singleton.1 hmem
      exact (hs.begun _ hhead).1

/-- The innermost loop publishes a table. -/
theorem publishes {cause : Cause} {remaining : List κ} {outer : List (Publishing τ κ)}
    (hs : s.Sound) (h : s.publishing = ⟨cause, t, T :: remaining⟩ :: outer) :
    Sound { s with
      publishing := ⟨cause, t, remaining⟩ :: outer
      log := s.log ++ [.published cause t T (s.listenersOf t T)] } := by
  have hhead : (⟨cause, t, T :: remaining⟩ : Publishing τ κ) ∈ s.publishing := by
    rw [h]
    exact List.mem_cons_self
  have htail : ∀ p ∈ outer, p ∈ s.publishing := by
    intro p hp
    rw [h]
    exact List.mem_cons_of_mem _ hp
  have hcauses := hs.causes
  rw [h, List.map_cons, List.nodup_cons] at hcauses
  have hne : ∀ p ∈ outer, p.cause ≠ cause := fun p hp heq =>
    hcauses.1 (List.mem_map.2 ⟨p, hp, heq⟩)
  obtain ⟨hnodup, hremaining⟩ := hs.remaining _ hhead
  obtain ⟨hfirst, hrest⟩ := List.nodup_cons.1 hnodup
  have hdue : ∀ cause' t' T', Due (s.log ++ [.published cause t T (s.listenersOf t T)]) cause' t' T' ↔
      Due s.log cause' t' T' := due_congr (by simp) (by simp) (by simp)
  have hpublished : ∀ cause' t' T' called, .published cause' t' T' called ∈
      s.log ++ [.published cause t T (s.listenersOf t T)] ↔
        .published cause' t' T' called ∈ s.log ∨
          cause' = cause ∧ t' = t ∧ T' = T ∧ called = s.listenersOf t T := by simp
  have hcompleted : ∀ cause', .completed cause' ∈
      s.log ++ [.published cause t T (s.listenersOf t T)] ↔ .completed cause' ∈ s.log := by simp
  refine ⟨hs.toRegistered.frame rfl rfl rfl rfl rfl (by simp) (by simp),
    hs.toRunning.congr rfl rfl (by simp) (by simp) (by simp), ?_,
    ordered_concat.2 ⟨hs.ordered, (hremaining T List.mem_cons_self).1,
      (hremaining T List.mem_cons_self).2, hs.toRegistered.nodup_listenersOf,
      fun _ => hs.toRegistered.mem_listenersOf⟩⟩
  have hbegun : ∀ cause', Begun { s with
      publishing := ⟨cause, t, remaining⟩ :: outer
      log := s.log ++ [.published cause t T (s.listenersOf t T)] } cause' ↔ s.Begun cause' := by
    intro cause'
    cases cause' <;> simp [Begun]
  constructor
  case causes =>
    have hsame := hs.causes
    rwa [h] at hsame
  case begun =>
    intro p hp
    rw [hbegun, hcompleted]
    rcases List.mem_cons.1 hp with heq | hp
    · have hcause : p.cause = cause := by rw [heq]
      rw [hcause]
      exact hs.begun _ hhead
    · exact hs.begun p (htail p hp)
  case remaining =>
    intro p hp
    simp only [hdue, hpublished]
    rcases List.mem_cons.1 hp with rfl | hp
    · refine ⟨hrest, fun T' hT' => ?_⟩
      obtain ⟨hdue', hnot⟩ := hremaining T' (List.mem_cons_of_mem T hT')
      refine ⟨hdue', fun called => not_or.2 ⟨hnot called, ?_⟩⟩
      rintro ⟨-, -, rfl, -⟩
      exact hfirst hT'
    · obtain ⟨hnodup', hp'⟩ := hs.remaining p (htail p hp)
      refine ⟨hnodup', fun T' hT' => ?_⟩
      obtain ⟨hdue', hnot⟩ := hp' T' hT'
      exact ⟨hdue', fun called => not_or.2 ⟨hnot called, fun hsame => hne p hp hsame.1⟩⟩
  case due =>
    intro p hp t' T' hdue'
    rw [hdue] at hdue'
    simp only [hpublished]
    rcases List.mem_cons.1 hp with rfl | hp
    · rcases hs.due _ hhead t' T' hdue' with ⟨called, hcalled⟩ | ⟨rfl, hT'⟩
      · exact .inl ⟨called, .inl hcalled⟩
      · rcases List.mem_cons.1 hT' with rfl | hT'
        · exact .inl ⟨_, .inr ⟨rfl, rfl, rfl, rfl⟩⟩
        · exact .inr ⟨rfl, hT'⟩
    · rcases hs.due p (htail p hp) t' T' hdue' with ⟨called, hcalled⟩ | hleft
      · exact .inl ⟨called, .inl hcalled⟩
      · exact .inr hleft
  case finished =>
    intro cause' hcause' hnot
    rw [hbegun] at hcause'
    have hnot' : cause' ∉ s.publishing.map (·.cause) := by
      rw [h]
      exact hnot
    obtain ⟨hcompleted', hall⟩ := hs.finished cause' hcause' hnot'
    rw [hcompleted]
    refine ⟨hcompleted', fun t' T' hdue' => ?_⟩
    rw [hdue] at hdue'
    obtain ⟨called, hcalled⟩ := hall t' T' hdue'
    exact ⟨called, (hpublished _ _ _ _).2 (.inl hcalled)⟩
  case raised =>
    intro c t' n T' hmem
    simp only [List.mem_append, List.mem_singleton, reduceCtorEq, or_false] at hmem
    exact hs.raised c t' n T' hmem
  case published =>
    intro cause' t' T' called hmem
    rw [hbegun]
    rcases (hpublished _ _ _ _).1 hmem with hmem | ⟨rfl, -⟩
    · exact hs.published cause' t' T' called hmem
    · exact (hs.begun _ hhead).1
  case completed =>
    intro cause' hmem
    rw [hcompleted] at hmem
    exact (hbegun cause').2 (hs.completed cause' hmem)

theorem publish {s' : DrizzleChangeNotifications τ κ χ} (hs : s.Sound) (h : s.publish = some s') :
    s'.Sound := by
  unfold DrizzleChangeNotifications.publish at h
  split at h
  · cases h
  · obtain rfl := Option.some.inj h
    exact hs.finish ‹_›
  · obtain rfl := Option.some.inj h
    exact hs.publishes ‹_›

/-- Whatever is called next. -/
theorem step {s' : DrizzleChangeNotifications τ κ χ} {event : Event τ κ χ} (hs : s.Sound)
    (h : s.step event = some s') : s'.Sound := by
  cases event with
  | notify context tenant targets =>
      obtain ⟨c, hc, heq⟩ := Option.bind_eq_some_iff.1 h
      obtain rfl := Option.some.inj heq
      exact hs.notify (List.mem_of_getElem? hc) targets
  | run context tenant =>
      obtain ⟨c, hc, heq⟩ := Option.bind_eq_some_iff.1 h
      obtain rfl := Option.some.inj heq
      exact hs.run (List.mem_of_getElem? hc)
  | settle frame => exact hs.settle h
  | listen tenant table =>
      obtain rfl := Option.some.inj h
      exact hs.listen tenant table
  | release identity =>
      obtain ⟨l, hl, hrelease⟩ := Option.bind_eq_some_iff.1 h
      cases hr : l.released with
      | true =>
          rw [hr] at hrelease
          cases hrelease
      | false =>
          rw [hr] at hrelease
          obtain rfl := Option.some.inj hrelease
          exact hs.release hl hr
  | publish => exact hs.publish h

theorem init (tables : InsertionMap χ κ) (enabled : Bool) :
    (machine (τ := τ) tables enabled).init.Sound := by
  refine ⟨?_, ?_, ?_, ordered_nil⟩
  · constructor <;> simp [machine, Serves]
  · constructor <;> simp [machine]
  · constructor
    case finished =>
      intro cause h
      cases cause with
      | run f => exact absurd h List.not_mem_nil
      | notification n => exact absurd h (Nat.not_lt_zero n)
    all_goals simp [machine]

theorem reachable {tables : InsertionMap χ κ} {enabled : Bool}
    (h : (machine tables enabled).Reachable s) : s.Sound :=
  Machine.Reachable.invariant _ (init tables enabled)
    (fun _ _ _ hs hstep => Sound.step hs hstep) h

end Sound

/-! ### Tenant-exact notifications -/

/-- A loop whose listeners call nothing back publishes its tables one after the other. -/
theorem exec_publish (tables : InsertionMap χ κ) (enabled : Bool) {cause : Cause}
    {remaining : List κ} {outer : List (Publishing τ κ)}
    (h : s.publishing = ⟨cause, t, remaining⟩ :: outer) :
    (machine tables enabled).exec s (List.replicate (remaining.length + 1) .publish) =
      some { s with
        publishing := outer
        log := s.log ++ (remaining.map fun T => .published cause t T (s.listenersOf t T)) ++
          [.completed cause] } := by
  induction remaining generalizing s with
  | nil =>
      refine (Machine.exec_cons_eq_some_iff _).2 ⟨_, ?_, rfl⟩
      change s.publish = _
      rw [publish, h, List.map_nil, List.append_nil]
  | cons T remaining ih =>
      refine (Machine.exec_cons_eq_some_iff _).2 ⟨{ s with
        publishing := ⟨cause, t, remaining⟩ :: outer
        log := s.log ++ [.published cause t T (s.listenersOf t T)] }, ?_, ?_⟩
      · change s.publish = _
        rw [publish, h]
      · refine (ih rfl).trans ?_
        simp [listenersOf]

/-- What a notification does: it waits for the active run of its tenant, or is published at once,
and a bus that is not enabled publishes nothing. -/
structure Notifies (s : DrizzleChangeNotifications τ κ χ) (c : FrameContext τ) (t : τ)
    (targets : List (Target κ χ)) : Prop where
  disabled : s.enabled = false → s.notify c t targets = s
  unknown : targets.mapM s.resolve = none → s.notify c t targets = s
  inside : ∀ resolved f, s.enabled = true → targets.mapM s.resolve = some resolved →
    (t, f) ∈ c → .settled f ∉ s.log →
      (s.notify c t targets).publishing = s.publishing ∧
        ∀ T ∈ resolved, .notified c t f T ∈ (s.notify c t targets).log
  outside : ∀ resolved, s.enabled = true → targets.mapM s.resolve = some resolved →
    Outside s.log c t → ∃ n tables, tables.Nodup ∧ (∀ T, T ∈ tables ↔ T ∈ resolved) ∧
      (s.notify c t targets).log = s.log ++ tables.map (.raised c t n) ∧
      (s.notify c t targets).publishing = ⟨.notification n, t, tables⟩ :: s.publishing

theorem Sound.notifies (hs : s.Sound) (hc : c ∈ s.contexts) (targets : List (Target κ χ)) :
    s.Notifies c t targets := by
  constructor
  case disabled =>
    intro h
    unfold DrizzleChangeNotifications.notify
    cases targets.mapM s.resolve with
    | none => rfl
    | some resolved => simp [h]
  case unknown =>
    intro h
    rw [DrizzleChangeNotifications.notify, h]
  case inside =>
    intro resolved f henabled hresolved hf hnot
    cases hactive : s.activeFrame c t with
    | none => exact absurd (hs.toRunning.activeFrame_none hc hactive f hf) hnot
    | some found =>
        obtain ⟨f', frame⟩ := found
        obtain ⟨-, -, -, -, -, hothers⟩ := hs.toRunning.activeFrame_some hc hactive
        obtain rfl : f = f' := by
          by_contra hne
          exact hnot (hothers f hf hne)
        unfold DrizzleChangeNotifications.notify
        rw [hresolved, henabled, hactive]
        refine ⟨rfl, fun T hT => List.mem_append_right _ (List.mem_map_of_mem ?_)⟩
        exact mem_addAll.2 (.inr hT)
  case outside =>
    intro resolved henabled hresolved houtside
    cases hactive : s.activeFrame c t with
    | some found =>
        obtain ⟨f', frame⟩ := found
        obtain ⟨-, -, -, hmem, hnot, -⟩ := hs.toRunning.activeFrame_some hc hactive
        exact absurd (houtside f' hmem) hnot
    | none =>
        refine ⟨s.notifications, addAll [] resolved, nodup_addAll List.nodup_nil,
          fun T => by simp [mem_addAll], ?_⟩
        unfold DrizzleChangeNotifications.notify
        rw [hresolved, henabled, hactive]
        exact ⟨rfl, rfl⟩

/-- What holds of the bus in every state. -/
structure TenantExact (tables : InsertionMap χ κ) (enabled : Bool)
    (s : DrizzleChangeNotifications τ κ χ) : Prop where
  /-- Runs join, settle and publish, and listeners are called, only as the rules say. -/
  ordered : Ordered Fact.Allowed s.log
  /-- What is due has been published, or a loop in progress is going to. -/
  due : ∀ cause t T, Due s.log cause t T →
    (∃ called, .published cause t T called ∈ s.log) ∨
      ∃ p ∈ s.publishing, p.cause = cause ∧ p.tenant = t ∧ T ∈ p.remaining
  notifies : ∀ c ∈ s.contexts, ∀ t targets, s.Notifies c t targets
  /-- A settled run and a notification publish before anything else happens but what the
  listeners do. -/
  publishes : ∀ cause t remaining outer, s.publishing = ⟨cause, t, remaining⟩ :: outer →
    (machine tables enabled).exec s (List.replicate (remaining.length + 1) .publish) =
      some { s with
        publishing := outer
        log := s.log ++ (remaining.map fun T => .published cause t T (s.listenersOf t T)) ++
          [.completed cause] }
  listeners : ∀ t T, (s.listenersOf t T).Nodup ∧ ∀ listener, listener ∈ s.listenersOf t T ↔
    .listened listener t T ∈ s.log ∧ .released listener ∉ s.log

/-- Two tables, each known by a class. -/
def twoTables : InsertionMap ℕ ℕ := ⟨[(10, 0), (11, 1)], by decide⟩

/-- The runs of two tenants, one in the other, with a notification that outlives its run. -/
def nestedRuns : List (Event ℕ ℕ ℕ) :=
  [.listen 0 0, .run 0 0, .run 1 1, .notify 2 0 [.model 10, .table 0], .notify 2 1 [.table 1],
    .settle 1, .publish, .publish, .notify 2 1 [.table 1], .publish, .publish, .run 2 0, .settle 0,
    .publish, .release 0, .publish]

end DrizzleChangeNotifications

end Arc.Drizzle
