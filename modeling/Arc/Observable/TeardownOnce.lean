import Arc.Observable.SessionTeardown

/-!
# A session is torn down once

`Allowed` is the order in which a teardown may act on the world, and `Sound` says how
the fields of a session follow its log. Every step keeps both, whatever fails. What
can go wrong is that a teardown ends early: `Complete` asks that everything has been
done when an entry point settles, which fails exactly when the release of the
admission throws at its very beginning.
-/

namespace Arc.Observable

/-- What must have happened, and what must not, before an effect. -/
def Effect.Allowed (before : List Effect) : Effect → Prop
  | .onRelease => .onRelease ∉ before
  | .scopeDispose => .scopeDispose ∉ before ∧
      (.coordinated ∈ before → ∀ n, .admitted n ∈ before → .settled n ∈ before)
  | .endSubscription => .endSubscription ∉ before
  | .onClose => .onClose ∉ before ∧ .onRelease ∈ before ∧ .scopeSettled ∈ before
  | .admitted _ => .coordinated ∉ before
  | _ => True

/-- What must have happened before an entry point settles. -/
def Effect.Complete (before : List Effect) : Effect → Prop
  | .tornDown _ => .onRelease ∈ before ∧ .scopeDispose ∈ before ∧ .endSubscription ∈ before ∧
      .onClose ∈ before
  | _ => True

/-- The scope has been told to dispose itself. -/
def ScopePhase.isDisposed : ScopePhase → Bool
  | .disposing | .settled _ => true
  | _ => false

def ScopePhase.isSettled : ScopePhase → Bool
  | .settled _ => true
  | _ => false

namespace SessionTeardown

open History

/-- The fields of a session follow its log. -/
structure Sound (s : SessionTeardown) : Prop where
  ordered : Ordered Effect.Allowed s.log
  released : .onRelease ∈ s.log ↔ s.released = true
  ended : .endSubscription ∈ s.log ↔ s.subscriptionEnded = true
  disposed : .scopeDispose ∈ s.log ↔ s.scopeClosed.isDisposed = true
  settled : .scopeSettled ∈ s.log ↔ s.scopeClosed.isSettled = true
  closed : .onClose ∈ s.log ↔ s.scopeClosed.isSettled = true
  coordinated : .coordinated ∈ s.log ↔ s.transaction = true
  draining : s.transaction = true → s.draining = true
  pending : ∀ n, .admitted n ∈ s.log → n ∈ s.operations ∨ .settled n ∈ s.log
  waiting : ∀ operations, s.scopeClosed = .waiting operations →
    s.transaction = true ∧ s.operations ⊆ operations
  held : s.scopeClosed ≠ .opened → s.released = true
  torn : s.scopeClosed.isSettled = true → s.subscriptionEnded = true
  closing : s.closed ≠ .opened → s.released = true

namespace Sound

variable {c : Callbacks} {s : SessionTeardown}

/-- Where the stream and the waiting entry points are does not matter. -/
theorem frame (hs : s.Sound) (stream : StreamPhase) (joining : List JoinPhase) (finishing : ℕ)
    (producerClosing : Bool) :
    Sound { s with
      stream := stream, joining := joining, finishing := finishing
      producerClosing := producerClosing } :=
  ⟨hs.ordered, hs.released, hs.ended, hs.disposed, hs.settled, hs.closed, hs.coordinated,
    hs.draining, hs.pending, hs.waiting, hs.held, hs.torn, hs.closing⟩

theorem frameClosed (hs : s.Sound) (h : s.released = true) (closed : ClosePhase) :
    Sound { s with closed := closed } :=
  ⟨hs.ordered, hs.released, hs.ended, hs.disposed, hs.settled, hs.closed, hs.coordinated,
    hs.draining, hs.pending, hs.waiting, hs.held, hs.torn, fun _ => h⟩

/-- An effect no field follows. -/
theorem noteTornDown (hs : s.Sound) (entry : TeardownEntry) : (s.note (.tornDown entry)).Sound := by
  obtain ⟨h1, h2, h3, h4, h5, h6, h7, h8, h9, h10, h11, h12, h13⟩ := hs
  constructor
  case ordered => exact ordered_concat.2 ⟨h1, trivial⟩
  all_goals simp_all [note]

theorem releaseAdmission (hs : s.Sound) : s.releaseAdmission.Sound := by
  rw [SessionTeardown.releaseAdmission]
  split_ifs with hreleased
  · exact hs
  · obtain ⟨h1, h2, h3, h4, h5, h6, h7, h8, h9, h10, h11, h12, h13⟩ := hs
    constructor
    case ordered => exact ordered_concat.2 ⟨h1, fun hmem => hreleased (h2.1 hmem)⟩
    all_goals simp_all [note]

theorem endSubscription (hs : s.Sound) : s.endSubscription.Sound := by
  rw [SessionTeardown.endSubscription]
  split_ifs with hended
  · exact hs
  · obtain ⟨h1, h2, h3, h4, h5, h6, h7, h8, h9, h10, h11, h12, h13⟩ := hs
    constructor
    case ordered => exact ordered_concat.2 ⟨h1, fun hmem => hended (h3.1 hmem)⟩
    all_goals simp_all [note]

theorem releaseProducer (hs : s.Sound) : s.releaseProducer.Sound := by
  rw [SessionTeardown.releaseProducer]
  split_ifs
  · exact hs
  · obtain ⟨h1, h2, h3, h4, h5, h6, h7, h8, h9, h10, h11, h12, h13⟩ := hs
    constructor
    case ordered => exact ordered_concat.2 ⟨h1, trivial⟩
    all_goals simp_all [note]

theorem returnIterator (hs : s.Sound) : s.returnIterator.Sound := by
  rw [SessionTeardown.returnIterator]
  split
  · exact hs.frame _ _ _ _
  · exact hs.frame _ _ _ _
  · exact hs

@[simp] theorem released_releaseAdmission (s : SessionTeardown) :
    s.releaseAdmission.released = true := by
  rw [SessionTeardown.releaseAdmission]
  split_ifs with hreleased
  · exact hreleased
  · rfl

@[simp] theorem scopeClosed_releaseAdmission (s : SessionTeardown) :
    s.releaseAdmission.scopeClosed = s.scopeClosed := by
  rw [SessionTeardown.releaseAdmission]
  split_ifs <;> rfl

@[simp] theorem transaction_releaseAdmission (s : SessionTeardown) :
    s.releaseAdmission.transaction = s.transaction := by
  rw [SessionTeardown.releaseAdmission]
  split_ifs <;> rfl

@[simp] theorem operations_releaseAdmission (s : SessionTeardown) :
    s.releaseAdmission.operations = s.operations := by
  rw [SessionTeardown.releaseAdmission]
  split_ifs <;> rfl

/-- The scope is disposed once the admission is released and, under a transaction, once
the operations have settled. -/
theorem noteScopeDispose (hs : s.Sound) (hreleased : s.released = true)
    (hscope : s.scopeClosed.isDisposed = false)
    (hsettled : s.transaction = true → s.operations = ∅) :
    (note { s with scopeClosed := .disposing } .scopeDispose).Sound := by
  obtain ⟨h1, h2, h3, h4, h5, h6, h7, h8, h9, h10, h11, h12, h13⟩ := hs
  have hopen : s.scopeClosed.isSettled = false := by
    cases hphase : s.scopeClosed <;> simp_all [ScopePhase.isDisposed, ScopePhase.isSettled]
  constructor
  case ordered =>
    refine ordered_concat.2 ⟨h1, fun hmem => ?_, fun hcoordinated n hn => ?_⟩
    · rw [h4.1 hmem] at hscope
      cases hscope
    · have hempty := hsettled (h7.1 hcoordinated)
      exact (h9 n hn).resolve_left (by rw [hempty]; exact Finset.notMem_empty n)
  all_goals simp_all [note, ScopePhase.isDisposed, ScopePhase.isSettled]

theorem disposeScope (hs : s.Sound) : (s.disposeScope c).1.Sound := by
  rw [SessionTeardown.disposeScope]
  split_ifs with hscope hthrows htransaction
  · exact hs
  · exact hs.releaseAdmission
  · have hopen : s.scopeClosed = .opened := by simpa using hscope
    have hreleased := hs.releaseAdmission
    refine ⟨hreleased.ordered, hreleased.released, hreleased.ended, ?_, ?_, ?_,
      hreleased.coordinated, hreleased.draining, hreleased.pending, ?_, fun _ => by simp, ?_,
      hreleased.closing⟩
    · rw [hreleased.disposed]
      simp [hopen, ScopePhase.isDisposed]
    · rw [hreleased.settled]
      simp [hopen, ScopePhase.isSettled]
    · rw [hreleased.closed]
      simp [hopen, ScopePhase.isSettled]
    · intro operations hwaiting
      obtain rfl := ScopePhase.waiting.inj hwaiting
      simp [htransaction]
    · intro hsettled
      cases hsettled
  · have hopen : s.scopeClosed = .opened := by simpa using hscope
    exact hs.releaseAdmission.noteScopeDispose (by simp) (by simp [hopen, ScopePhase.isDisposed])
      (by simp [htransaction])

theorem scopeDisposed {failed : Bool} {t : SessionTeardown} (hs : s.Sound)
    (ht : s.scopeDisposed c failed = some t) : t.Sound := by
  rw [SessionTeardown.scopeDisposed] at ht
  split at ht
  · rename_i operations hwaiting
    split_ifs at ht with hsettled
    obtain rfl := Option.some.inj ht
    obtain ⟨-, hsub⟩ := hs.waiting operations hwaiting
    refine hs.noteScopeDispose (hs.held (by simp [hwaiting])) (by simp [hwaiting, ScopePhase.isDisposed])
      fun _ => ?_
    rwa [Finset.inter_eq_right.2 hsub] at hsettled
  · rename_i hdisposing
    obtain rfl := Option.some.inj ht
    rw [finishDisposal, SessionTeardown.endSubscription]
    obtain ⟨h1, h2, h3, h4, h5, h6, h7, h8, h9, h10, h11, h12, h13⟩ := hs
    have hreleased : .onRelease ∈ s.log := h2.2 (h11 (by simp [hdisposing]))
    have hopen : .onClose ∉ s.log := by simp [h6, hdisposing, ScopePhase.isSettled]
    split_ifs with hended
    · constructor
      case ordered =>
        refine ordered_concat.2 ⟨ordered_concat.2 ⟨h1, trivial⟩, ?_⟩
        simp [Effect.Allowed, note, hreleased, hopen]
      all_goals simp_all [note, ScopePhase.isDisposed, ScopePhase.isSettled]
    · constructor
      case ordered =>
        refine ordered_concat.2 ⟨ordered_concat.2 ⟨ordered_concat.2 ⟨h1, trivial⟩, ?_⟩, ?_⟩
        · simpa [Effect.Allowed, note, h3] using hended
        · simp [Effect.Allowed, note, hreleased, hopen]
      all_goals simp_all [note, ScopePhase.isDisposed, ScopePhase.isSettled]
  · cases ht

theorem released_disposeScope (hs : s.Sound) : (s.disposeScope c).1.released = true := by
  rw [SessionTeardown.disposeScope]
  split_ifs with hscope
  · exact hs.held hscope
  all_goals simp [note]

theorem closeDisposes (hs : s.Sound) : (s.closeDisposes c).Sound :=
  hs.disposeScope.frameClosed hs.released_disposeScope _

@[simp] theorem released_returnIterator (s : SessionTeardown) :
    s.returnIterator.released = s.released := by
  rw [SessionTeardown.returnIterator]
  split <;> rfl

@[simp] theorem released_releaseProducer (s : SessionTeardown) :
    s.releaseProducer.released = s.released := by
  rw [SessionTeardown.releaseProducer]
  split_ifs <;> rfl

theorem close (hs : s.Sound) : (s.close c).Sound := by
  rw [SessionTeardown.close, closeUncoordinated]
  split_ifs
  · exact hs
  · exact hs.releaseAdmission.noteTornDown _
  · exact hs.releaseAdmission.closeDisposes
  · exact hs.releaseAdmission.returnIterator.frameClosed (by simp) _
  · exact hs.releaseAdmission
  · exact hs.releaseAdmission.releaseProducer.frameClosed (by simp) _

theorem resumeClose {t : SessionTeardown} (hs : s.Sound) (ht : s.resumeClose c = some t) :
    t.Sound := by
  rw [SessionTeardown.resumeClose] at ht
  split at ht
  · split_ifs at ht
    obtain rfl := Option.some.inj ht
    exact hs.closeDisposes
  · rename_i hclosed
    split at ht
    · obtain rfl := Option.some.inj ht
      exact (hs.frameClosed (hs.closing (by simp [hclosed])) _).noteTornDown _
    · cases ht
  · obtain rfl := Option.some.inj ht
    exact hs.releaseAdmission.frameClosed (by simp) _
  · cases ht

theorem finishScope (hs : s.Sound) : (s.finishScope c).Sound := by
  rw [SessionTeardown.finishScope]
  split_ifs
  · exact hs.disposeScope.noteTornDown _
  · exact hs.disposeScope.frame _ _ _ _

theorem resumeFinish {t : SessionTeardown} (hs : s.Sound) (ht : s.resumeFinish = some t) :
    t.Sound := by
  rw [SessionTeardown.resumeFinish] at ht
  split at ht
  · split_ifs at ht
    obtain rfl := Option.some.inj ht
    exact (hs.frame _ _ _ _).noteTornDown _
  · cases ht

theorem resumeJoin {join : ℕ} {t : SessionTeardown} (hs : s.Sound)
    (ht : s.resumeJoin c join = some t) : t.Sound := by
  rw [SessionTeardown.resumeJoin] at ht
  split at ht
  · split_ifs at ht
    · obtain rfl := Option.some.inj ht
      exact (hs.frame _ _ _ _).close
    · obtain rfl := Option.some.inj ht
      exact hs.returnIterator.frame _ _ _ _
  · split_ifs at ht
    obtain rfl := Option.some.inj ht
    exact (hs.frame _ _ _ _).close
  · cases ht

theorem coordinateShutdown (hs : s.Sound) (hdraining : s.draining = true) :
    s.coordinateShutdown.Sound := by
  rw [SessionTeardown.coordinateShutdown]
  split_ifs with htransaction
  · exact hs
  · refine Sound.releaseProducer ?_
    obtain ⟨h1, h2, h3, h4, h5, h6, h7, h8, h9, h10, h11, h12, h13⟩ := hs
    constructor
    case ordered => exact ordered_concat.2 ⟨h1, trivial⟩
    all_goals simp_all [note]

theorem run (hs : s.Sound) : s.run.Sound := by
  rw [SessionTeardown.run]
  split_ifs with hdraining
  · exact hs
  · obtain ⟨h1, h2, h3, h4, h5, h6, h7, h8, h9, h10, h11, h12, h13⟩ := hs
    have huncoordinated : s.transaction = false := by
      by_contra htransaction
      exact hdraining (h8 (by simpa using htransaction))
    constructor
    case ordered => exact ordered_concat.2 ⟨h1, by simp [Effect.Allowed, h7, huncoordinated]⟩
    case pending =>
      intro n hn
      simp only [note, List.mem_append, List.mem_singleton, Effect.admitted.injEq] at hn ⊢
      rcases hn with hn | rfl
      · rcases h9 n hn with hpending | hsettled
        · exact Or.inl (Finset.mem_insert_of_mem hpending)
        · exact Or.inr (Or.inl hsettled)
      · exact Or.inl (Finset.mem_insert_self _ _)
    all_goals simp_all [note]

theorem operationSettled {operation : ℕ} {t : SessionTeardown} (hs : s.Sound)
    (ht : s.operationSettled operation = some t) : t.Sound := by
  rw [SessionTeardown.operationSettled] at ht
  split_ifs at ht
  obtain rfl := Option.some.inj ht
  obtain ⟨h1, h2, h3, h4, h5, h6, h7, h8, h9, h10, h11, h12, h13⟩ := hs
  constructor
  case ordered => exact ordered_concat.2 ⟨h1, trivial⟩
  case pending =>
    intro n hn
    simp only [note, List.mem_append, List.mem_singleton, reduceCtorEq, or_false,
      Effect.settled.injEq] at hn ⊢
    by_cases hsame : n = operation
    · exact Or.inr (Or.inr hsame)
    · rcases h9 n hn with hpending | hsettled
      · exact Or.inl (Finset.mem_erase.2 ⟨hsame, hpending⟩)
      · exact Or.inr (Or.inl hsettled)
  case waiting =>
    intro operations hwaiting
    obtain ⟨htransaction, hsub⟩ := h10 operations hwaiting
    exact ⟨htransaction, (Finset.erase_subset _ _).trans hsub⟩
  all_goals simp_all [note]

theorem resumeStream {t : SessionTeardown} (hs : s.Sound) (ht : s.resumeStream c = some t) :
    t.Sound := by
  rw [SessionTeardown.resumeStream] at ht
  split at ht
  · obtain rfl := Option.some.inj ht
    rw [closeScope]
    split_ifs
    · exact hs.releaseAdmission.frame _ _ _ _
    · exact (hs.disposeScope.frame _ _ _ _).noteTornDown _
    · exact hs.disposeScope.frame _ _ _ _
  · split at ht
    · obtain rfl := Option.some.inj ht
      exact (hs.frame _ _ _ _).noteTornDown _
    · cases ht
  · cases ht

/-- Every step keeps the fields in line with the log. -/
theorem step {e : TeardownEvent} {t : SessionTeardown} (hs : s.Sound) (ht : s.step c e = some t) :
    t.Sound := by
  cases e with
  | close =>
      obtain rfl := Option.some.inj ht
      exact hs.close
  | resumeClose => exact hs.resumeClose ht
  | finishScope =>
      obtain rfl := Option.some.inj ht
      exact hs.finishScope
  | resumeFinish => exact hs.resumeFinish ht
  | joinWork =>
      obtain rfl := Option.some.inj ht
      exact hs.frame _ _ _ _
  | resumeJoin join => exact hs.resumeJoin ht
  | drain =>
      obtain rfl := Option.some.inj ht
      exact ⟨hs.ordered, hs.released, hs.ended, hs.disposed, hs.settled, hs.closed, hs.coordinated,
        fun _ => rfl, hs.pending, hs.waiting, hs.held, hs.torn, hs.closing⟩
  | coordinateShutdown =>
      simp only [SessionTeardown.step] at ht
      split_ifs at ht with hdraining
      obtain rfl := Option.some.inj ht
      exact hs.coordinateShutdown hdraining
  | releaseProducer =>
      obtain rfl := Option.some.inj ht
      exact hs.releaseProducer
  | scopeClosedByRegistry =>
      simp only [SessionTeardown.step] at ht
      split_ifs at ht
      obtain rfl := Option.some.inj ht
      exact hs.endSubscription
  | run =>
      obtain rfl := Option.some.inj ht
      exact hs.run
  | operationSettled operation => exact hs.operationSettled ht
  | scopeDisposed failed => exact hs.scopeDisposed ht
  | results | next | yields | ends =>
      simp only [SessionTeardown.step] at ht
      split_ifs at ht
      obtain rfl := Option.some.inj ht
      exact hs.frame _ _ _ _
  | consumerReturn =>
      obtain rfl := Option.some.inj ht
      exact hs.returnIterator
  | resumeStream => exact hs.resumeStream ht

theorem new : SessionTeardown.new.Sound := by
  constructor
  case ordered => exact ordered_nil
  all_goals simp [SessionTeardown.new, ScopePhase.isDisposed, ScopePhase.isSettled]

end Sound

theorem Sound.reachable {c : Callbacks} {s : SessionTeardown} (hs : (machine c).Reachable s) :
    s.Sound :=
  hs.invariant (P := Sound) _ Sound.new fun _ _ _ hbefore ht => hbefore.step ht

/-! ### Complete teardowns -/

/-- Whatever has settled in the log had everything done. -/
def Completed (s : SessionTeardown) : Prop := Ordered Effect.Complete s.log

section Completed

variable {c : Callbacks} {s : SessionTeardown}

theorem completed_tornDown {entry : TeardownEntry} :
    (s.note (.tornDown entry)).Completed ↔
      s.Completed ∧ Effect.Complete s.log (.tornDown entry) :=
  ordered_concat

theorem completed_releaseAdmission : s.releaseAdmission.Completed ↔ s.Completed := by
  rw [releaseAdmission]
  split_ifs
  · rfl
  · exact ordered_concat.trans (and_iff_left trivial)

theorem completed_endSubscription : s.endSubscription.Completed ↔ s.Completed := by
  rw [endSubscription]
  split_ifs
  · rfl
  · exact ordered_concat.trans (and_iff_left trivial)

theorem completed_releaseProducer : s.releaseProducer.Completed ↔ s.Completed := by
  rw [releaseProducer]
  split_ifs
  · rfl
  · exact ordered_concat.trans (and_iff_left trivial)

theorem completed_returnIterator : s.returnIterator.Completed ↔ s.Completed := by
  rw [returnIterator]
  split <;> rfl

theorem completed_disposeScope : (s.disposeScope c).1.Completed ↔ s.Completed := by
  rw [disposeScope]
  split_ifs
  · rfl
  · exact completed_releaseAdmission
  · exact completed_releaseAdmission
  · exact (ordered_concat.trans (and_iff_left trivial)).trans completed_releaseAdmission

theorem completed_finishDisposal {failed : Bool} :
    (s.finishDisposal c failed).Completed ↔ s.Completed := by
  rw [finishDisposal]
  refine (ordered_concat.trans (and_iff_left trivial)).trans ?_
  refine completed_endSubscription.trans ?_
  exact ordered_concat.trans (and_iff_left trivial)

/-- Once the disposal of the scope has settled everything has been done. -/
theorem Sound.complete (hs : s.Sound) {failed : Bool} (h : s.scopeClosed = .settled failed)
    (entry : TeardownEntry) : Effect.Complete s.log (.tornDown entry) := by
  have hsettled : s.scopeClosed.isSettled = true := by rw [h]; rfl
  refine ⟨hs.released.2 (hs.held (by simp [h])), hs.disposed.2 ?_,
    hs.ended.2 (hs.torn hsettled), hs.closed.2 hsettled⟩
  rw [h]
  rfl

/-- Where the release throws nothing else has been done. -/
theorem Sound.not_complete (hs : s.Sound) (h : s.releaseThrows c = true) (entry : TeardownEntry) :
    ¬ Effect.Complete s.releaseAdmission.log (.tornDown entry) := by
  rintro ⟨-, hdispose, -, -⟩
  simp only [releaseThrows, Bool.and_eq_true, Bool.not_eq_true'] at h
  have hopen : s.scopeClosed = .opened := by
    by_contra hscope
    cases h.2.symm.trans (hs.held hscope)
  rw [hs.releaseAdmission.disposed, Sound.scopeClosed_releaseAdmission, hopen] at hdispose
  cases hdispose

/-- The call of `disposeScope` throws when the release of the admission does. -/
theorem Sound.disposeScope_throws (hs : s.Sound) :
    (s.disposeScope c).2 = s.releaseThrows c := by
  rw [SessionTeardown.disposeScope]
  split_ifs with hscope hthrows
  · simp [releaseThrows, hs.held hscope]
  · exact hthrows.symm
  all_goals simpa using hthrows

theorem disposeScope_of_throws (hs : s.Sound) (h : s.releaseThrows c = true) :
    (s.disposeScope c).1 = s.releaseAdmission := by
  have hopen : s.scopeClosed = .opened := by
    by_contra hscope
    simp [releaseThrows, hs.held hscope] at h
  simp [disposeScope, hopen, h]

/-- A teardown that starts without a transaction, or for its last phase, does not start
with a release that throws. -/
def ReleaseHeld (c : Callbacks) (s : SessionTeardown) : TeardownEvent → Prop
  | .close => s.transaction = false → s.releaseThrows c = false
  | .resumeJoin join => s.joining[join]? = some .returning ∨ s.stream = .unopened →
      s.transaction = false → s.releaseThrows c = false
  | .resumeStream => s.stream = .leaving → s.transaction = false → s.releaseThrows c = false
  | .finishScope => s.releaseThrows c = false
  | _ => True

instance (c : Callbacks) (s : SessionTeardown) : ∀ e, Decidable (ReleaseHeld c s e)
  | .close => inferInstanceAs (Decidable (s.transaction = false → s.releaseThrows c = false))
  | .resumeJoin join => inferInstanceAs (Decidable
      (s.joining[join]? = some .returning ∨ s.stream = .unopened →
        s.transaction = false → s.releaseThrows c = false))
  | .resumeStream => inferInstanceAs (Decidable
      (s.stream = .leaving → s.transaction = false → s.releaseThrows c = false))
  | .finishScope => inferInstanceAs (Decidable (s.releaseThrows c = false))
  | .resumeClose | .resumeFinish | .joinWork | .drain | .coordinateShutdown | .releaseProducer
  | .scopeClosedByRegistry | .run | .operationSettled _ | .scopeDisposed _ | .results | .next
  | .yields | .ends | .consumerReturn => isTrue trivial

theorem completed_close (hs : s.Sound) :
    (s.close c).Completed ↔
      s.Completed ∧ (s.transaction = false → s.releaseThrows c = false) := by
  rw [close]
  split_ifs with hclosed htransaction hthrows
  · refine (and_iff_left fun _ => ?_).symm
    simp [releaseThrows, hs.closing hclosed]
  · have huncoordinated : s.transaction = false := by simpa using htransaction
    simp only [huncoordinated, forall_const]
    rw [closeUncoordinated]
    split_ifs with hthrows
    · rw [completed_tornDown, completed_releaseAdmission, hthrows]
      exact and_congr_right fun _ => iff_of_false (hs.not_complete hthrows _) (by decide)
    · refine (completed_disposeScope.trans completed_releaseAdmission).trans (and_iff_left ?_).symm
      simpa using hthrows
    · refine (completed_returnIterator.trans completed_releaseAdmission).trans
        (and_iff_left ?_).symm
      simpa using hthrows
  · have hcoordinated : s.transaction = true := by simpa using htransaction
    rw [completed_releaseAdmission]
    simp [hcoordinated]
  · have hcoordinated : s.transaction = true := by simpa using htransaction
    refine (completed_releaseProducer.trans completed_releaseAdmission).trans ?_
    simp [hcoordinated]

theorem completed_finishScope (hs : s.Sound) :
    (s.finishScope c).Completed ↔ s.Completed ∧ s.releaseThrows c = false := by
  rw [finishScope, hs.disposeScope_throws]
  split_ifs with hthrows
  · rw [completed_tornDown, completed_disposeScope, disposeScope_of_throws hs hthrows, hthrows]
    exact and_congr_right fun _ => iff_of_false (hs.not_complete hthrows _) (by decide)
  · refine completed_disposeScope.trans (and_iff_left ?_).symm
    simpa using hthrows

theorem completed_resumeStream (hs : s.Sound) {t : SessionTeardown}
    (ht : s.resumeStream c = some t) :
    t.Completed ↔ s.Completed ∧
      (s.stream = .leaving → s.transaction = false → s.releaseThrows c = false) := by
  rw [resumeStream] at ht
  split at ht
  · rename_i hleaving
    obtain rfl := Option.some.inj ht
    simp only [hleaving, forall_const]
    rw [closeScope]
    split_ifs with htransaction hthrows
    · refine completed_releaseAdmission.trans ?_
      simp [htransaction]
    · rw [hs.disposeScope_throws] at hthrows
      have huncoordinated : s.transaction = false := by simpa using htransaction
      rw [completed_tornDown]
      have hlog : Effect.Complete (s.disposeScope c).1.log (.tornDown .stream) ↔ False := by
        rw [disposeScope_of_throws hs hthrows]
        exact iff_false_intro (hs.not_complete hthrows _)
      simp only [huncoordinated, hthrows, forall_const, Bool.true_eq_false, and_false]
      exact iff_false_intro fun h => hlog.1 h.2
    · rw [hs.disposeScope_throws] at hthrows
      refine completed_disposeScope.trans (and_iff_left fun _ => ?_).symm
      simpa using hthrows
  · rename_i hdisposing
    split at ht
    · rename_i failed hsettled
      obtain rfl := Option.some.inj ht
      rw [completed_tornDown]
      simp only [hdisposing, reduceCtorEq, false_implies, and_true]
      exact and_iff_left (hs.complete hsettled _)
    · cases ht
  · cases ht

/-- A step completes every teardown that settles with it exactly when it does not end one
by a release that throws. -/
theorem completed_step {e : TeardownEvent} {t : SessionTeardown} (hs : s.Sound)
    (ht : s.step c e = some t) : t.Completed ↔ s.Completed ∧ ReleaseHeld c s e := by
  cases e with
  | close =>
      obtain rfl := Option.some.inj ht
      exact completed_close hs
  | resumeClose =>
      refine Iff.trans ?_ (and_iff_left trivial).symm
      simp only [step, resumeClose] at ht
      split at ht
      · split_ifs at ht
        obtain rfl := Option.some.inj ht
        exact completed_disposeScope
      · split at ht
        · rename_i failed hsettled
          obtain rfl := Option.some.inj ht
          exact completed_tornDown.trans (and_iff_left (hs.complete hsettled _))
        · cases ht
      · obtain rfl := Option.some.inj ht
        exact completed_releaseAdmission
      · cases ht
  | finishScope =>
      obtain rfl := Option.some.inj ht
      exact completed_finishScope hs
  | resumeFinish =>
      refine Iff.trans ?_ (and_iff_left trivial).symm
      simp only [step, resumeFinish] at ht
      split at ht
      · rename_i failed hsettled
        split_ifs at ht
        obtain rfl := Option.some.inj ht
        exact completed_tornDown.trans (and_iff_left (hs.complete hsettled _))
      · cases ht
  | resumeJoin join =>
      simp only [step, resumeJoin] at ht
      simp only [ReleaseHeld]
      split at ht
      · rename_i operations hwaiting
        split_ifs at ht with hoperations hstream
        · obtain rfl := Option.some.inj ht
          rw [completed_close (hs.frame _ _ _ _)]
          simp only [hstream, or_true, forall_const]
          rfl
        · obtain rfl := Option.some.inj ht
          refine completed_returnIterator.trans (and_iff_left ?_).symm
          simp [hwaiting, hstream]
      · rename_i hreturning
        split_ifs at ht with hcompleted
        obtain rfl := Option.some.inj ht
        rw [completed_close (hs.frame _ _ _ _)]
        simp only [hreturning, true_or, forall_const]
        rfl
      · cases ht
  | resumeStream => exact completed_resumeStream hs ht
  | coordinateShutdown =>
      refine Iff.trans ?_ (and_iff_left trivial).symm
      simp only [step] at ht
      split_ifs at ht
      obtain rfl := Option.some.inj ht
      rw [coordinateShutdown]
      split_ifs
      · rfl
      · exact completed_releaseProducer.trans (ordered_concat.trans (and_iff_left trivial))
  | releaseProducer =>
      obtain rfl := Option.some.inj ht
      exact completed_releaseProducer.trans (and_iff_left trivial).symm
  | scopeClosedByRegistry =>
      simp only [step] at ht
      split_ifs at ht
      obtain rfl := Option.some.inj ht
      exact completed_endSubscription.trans (and_iff_left trivial).symm
  | run =>
      obtain rfl := Option.some.inj ht
      refine Iff.trans ?_ (and_iff_left trivial).symm
      rw [run]
      split_ifs
      · rfl
      · exact ordered_concat.trans (and_iff_left trivial)
  | operationSettled operation =>
      simp only [step, operationSettled] at ht
      split_ifs at ht
      obtain rfl := Option.some.inj ht
      exact (ordered_concat.trans (and_iff_left trivial)).trans (and_iff_left trivial).symm
  | scopeDisposed failed =>
      refine Iff.trans ?_ (and_iff_left trivial).symm
      simp only [step, scopeDisposed] at ht
      split at ht
      · split_ifs at ht
        obtain rfl := Option.some.inj ht
        exact ordered_concat.trans (and_iff_left trivial)
      · obtain rfl := Option.some.inj ht
        exact completed_finishDisposal
      · cases ht
  | results | next | yields | ends =>
      simp only [step] at ht
      split_ifs at ht
      obtain rfl := Option.some.inj ht
      exact (and_iff_left trivial).symm
  | joinWork | drain =>
      obtain rfl := Option.some.inj ht
      exact (and_iff_left trivial).symm
  | consumerReturn =>
      obtain rfl := Option.some.inj ht
      exact completed_returnIterator.trans (and_iff_left trivial).symm

end Completed

/-! ### Runs -/

/-- What a session never does, in whatever order it is torn down. -/
structure ExactlyOnce (log : List Effect) : Prop where
  onRelease : log.count .onRelease ≤ 1
  scopeDispose : log.count .scopeDispose ≤ 1
  endSubscription : log.count .endSubscription ≤ 1
  onClose : log.count .onClose ≤ 1
  closesLast : ∀ before after, log = before ++ .onClose :: after →
    .onRelease ∈ before ∧ .scopeSettled ∈ before
  waits : ∀ before after, log = before ++ .scopeDispose :: after → .coordinated ∈ before →
    ∀ operation, .admitted operation ∈ log → .settled operation ∈ before

theorem ExactlyOnce.of_ordered {log : List Effect} (h : Ordered Effect.Allowed log) :
    ExactlyOnce log where
  onRelease := h.count_le_one fun _ hallowed => hallowed
  scopeDispose := h.count_le_one fun _ hallowed => hallowed.1
  endSubscription := h.count_le_one fun _ hallowed => hallowed
  onClose := h.count_le_one fun _ hallowed => hallowed.1
  closesLast := fun before after hlog => (h before .onClose after hlog).2
  waits := by
    intro before after hlog hcoordinated operation hadmitted
    refine (h before .scopeDispose after hlog).2 hcoordinated operation ?_
    rw [hlog, List.mem_append, List.mem_cons] at hadmitted
    rcases hadmitted with hbefore | hsame | hafter
    · exact hbefore
    · cases hsame
    · obtain ⟨first, last, hafter⟩ := List.append_of_mem hafter
      refine absurd ?_ (h (before ++ .scopeDispose :: first) (.admitted operation) last ?_)
      · exact List.mem_append_left _ hcoordinated
      · rw [hlog, hafter, List.append_assoc, List.cons_append]

/-- In every run nothing is done twice or out of order; and everything has been done
whenever a close without a transaction, a last phase or the end of a stream settles,
exactly when none of them starts with a release that throws. -/
theorem session_teardown (c : Callbacks) (events : List TeardownEvent) (s : SessionTeardown)
    (hrun : (machine c).exec (machine c).init events = some s) :
    ExactlyOnce s.log ∧
      ((∀ before entry after, s.log = before ++ .tornDown entry :: after →
          .onRelease ∈ before ∧ .scopeDispose ∈ before ∧ .endSubscription ∈ before ∧
            .onClose ∈ before) ↔
        (machine c).Within (ReleaseHeld c) (machine c).init events) := by
  have hs : s.Sound := Sound.reachable ⟨events, hrun⟩
  have hiff := (machine c).exec_iff (I := Sound) (P := Completed)
    (fun _ _ _ hbefore ht => hbefore.step ht)
    (fun _ _ _ hbefore ht => completed_step hbefore ht) Sound.new hrun
  have hinit : SessionTeardown.new.Completed := ordered_nil
  refine ⟨ExactlyOnce.of_ordered hs.ordered, Iff.trans ?_ (hiff.trans (and_iff_right hinit))⟩
  constructor
  · intro h before e after hlog
    cases e with
    | tornDown entry => exact h before entry after hlog
    | _ => trivial
  · exact fun h before entry after hlog => h before (.tornDown entry) after hlog

/-- A stream is closed at a yield while the server shuts down, and both the disposal of the
scope and the callbacks after it fail. -/
def closedAtYield : List TeardownEvent :=
  [.run, .results, .next, .yields, .close, .drain, .coordinateShutdown, .ends, .resumeStream,
    .resumeClose, .operationSettled 0, .scopeDisposed true, .scopeDisposed true, .resumeClose,
    .finishScope, .resumeFinish]

theorem session_teardown_closed_at_yield :
    ∃ s, (machine { endThrows := true, onCloseThrows := true }).exec .new closedAtYield = some s ∧
      ExactlyOnce s.log ∧
      ∀ before entry after, s.log = before ++ .tornDown entry :: after →
        .onRelease ∈ before ∧ .scopeDispose ∈ before ∧ .endSubscription ∈ before ∧
          .onClose ∈ before := by
  have hteardown := session_teardown { endThrows := true, onCloseThrows := true } closedAtYield _ rfl
  refine ⟨_, rfl, hteardown.1, hteardown.2.2 ?_⟩
  decide +kernel

/-- A release that throws ends a close before anything else has been done. -/
theorem close_ends_at_release :
    ((machine { onReleaseThrows := true }).exec .new [.close]).map SessionTeardown.log =
      some [.onRelease, .tornDown .close] := by
  decide +kernel

end SessionTeardown

end Arc.Observable
