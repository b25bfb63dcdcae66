import Mathlib.Algebra.Order.Group.Nat
import Arc.MongoDB.MongoObservable

/-!
# Steps of an opening

A stream counts its closes by the phase of its opening, and the value an iteration emitted last by
where the iteration is suspended. Both are kept by every step that does not finish an initial read
after an abort, open a stream after the disposal of the scope began, or fail to drain a stream
because it was closed while its subscriber waits.
-/

namespace Arc.MongoDB

/-- A change that was taken and that the iteration has not seen. -/
def Iteration.inFlight : Iteration → ℕ
  | .waiting (some .change) => 1
  | .draining (some .change) => 1
  | _ => 0

/-- No change was consumed since the last value was read. -/
def Iteration.isCurrent : Iteration → Bool
  | .unstarted | .yielded | .taken | .waiting _ => true
  | _ => false

def Iteration.isLeaving : Iteration → Bool
  | .finishing _ | .ended _ => true
  | _ => false

/-- The error an iteration leaves with. -/
def Iteration.error : Iteration → Option ObservationError
  | .finishing error | .ended error => error
  | _ => none

def CollectionScope.isActive : CollectionScope → Bool
  | .active => true
  | _ => false

/-- The observations that the disposal of the scope awaits. -/
def CollectionScope.awaited : CollectionScope → List ℕ
  | .disposing awaited => awaited
  | _ => []

def CollectionScope.isDisposed : CollectionScope → Bool
  | .disposed _ => true
  | _ => false

theorem Iteration.error_of_isLeaving {iteration : Iteration}
    (h : iteration.isLeaving = false) : iteration.error = none := by
  cases iteration <;> first | rfl | cases h

theorem CollectionScope.isActive_of_isDisposed {scope : CollectionScope}
    (h : scope.isDisposed = true) : scope.isActive = false := by
  cases scope <;> first | rfl | cases h

namespace Opening

/-- The subscriber is closed. -/
def isUnsubscribed (o : Opening) : Bool := o.subscriber.any Subscriber.closed

/-- The events of an opening that the code is prepared for. -/
def Calm (aborted : Bool) (scope : CollectionScope) (o : Opening) : OpeningEvent → Prop
  | .hello true => scope.isActive = true
  | .initialRead true => aborted = false
  | .tryNext (.fails _) => o.isOver aborted = true → o.isUnsubscribed = true
  | _ => True

instance decidableCalm (aborted : Bool) (scope : CollectionScope) (o : Opening) :
    ∀ event, Decidable (o.Calm aborted scope event)
  | .hello true => inferInstanceAs (Decidable (scope.isActive = true))
  | .initialRead true => inferInstanceAs (Decidable (aborted = false))
  | .tryNext (.fails _) =>
      inferInstanceAs (Decidable (o.isOver aborted = true → o.isUnsubscribed = true))
  | .hello false | .initialRead false | .tryNext .change | .tryNext .none | .abortThrown
  | .catchSettles | .closeSettles _ | .change | .next _ | .read _ | .resume | .opened | .consume
  | .finish | .closingDone | .unsubscribe | .disposalResumes => isTrue trivial

/-- The stream is closed once when it is over, and released then. -/
@[grind cases]
structure Owned (aborted : Bool) (scope : CollectionScope) (o : Opening) : Prop where
  greeting : o.phase = .hello → o.watched = false ∧ o.closes = 0
  reading : o.phase = .reading → o.watched = true ∧ o.closes = 0 ∧ scope.isActive = true
  aborting : o.phase ≠ .aborting
  failing : o.phase = .failing → o.watched = true ∧ o.closes = 1
  failed : o.phase = .failed → o.closes = o.watched.toNat
  opened : o.phase = .opened ↔ o.built = true
  built : o.built = true →
    o.watched = true ∧ o.closes = o.closed.toNat ∧ o.tracked = o.closeOutcome.isNone
  unbuilt : o.built = false → o.closed = false ∧ o.tracked = false ∧ o.closeOutcome = none
  released : o.releases = o.closeOutcome.isSome.toNat
  settled : o.closeOutcome.isSome = true → o.closed = true
  aborts : aborted = true → o.built = true → o.closed = true
  inactive : scope.isActive = false → o.built = true → o.closed = true
  disposed : scope.isDisposed = true → o.built = true → o.closeOutcome.isSome = true

/-- The value emitted last is the latest one while the iteration waits. -/
@[grind cases]
structure Current (aborted : Bool) (o : Opening) : Prop where
  started : o.iteration ≠ .unstarted → o.built = true
  flow : o.iteration.isLeaving = false →
    o.delivered = o.consumed + o.queued + o.iteration.inFlight
  current : o.iteration.isCurrent = true → o.emittedFrom = o.consumed
  snapshot : ∀ outcome, o.iteration = .reading outcome → o.readFrom = o.consumed
  leaving : o.iteration.isLeaving = true → o.closed = true
  ended : ∀ error, o.iteration = .ended error → o.closeOutcome.isSome = true
  lateNext : o.iteration = .waiting (some (.fails true)) → o.isOver aborted = true
  lateDrain : o.iteration = .draining (some (.fails true)) → o.isUnsubscribed = true
  lateError : o.iteration.error = some (.stream true) → o.isUnsubscribed = true
  failedOpen : o.failedOpen = true → o.iteration.error ≠ none

/-- Who uses an opening, where they are, and what was reported to a subscriber. -/
@[grind cases]
structure Used (o : Opening) : Prop where
  fresh : o.subscriber = none → o.adoptions = 0 ∧ o.iteration = .unstarted
  adopted : o.adoptions ≤ 1
  opening : ∀ subscriber, o.subscriber = some subscriber → subscriber.phase = .opening →
    o.iteration = .unstarted
  closing : ∀ subscriber, o.subscriber = some subscriber → subscriber.phase = .closing →
    o.built = true ∧ o.closed = true ∧ o.iteration = .unstarted
  iterating : ∀ subscriber, o.subscriber = some subscriber → subscriber.phase = .iterating →
    o.built = true
  done : ∀ subscriber, o.subscriber = some subscriber → subscriber.phase = .done →
    o.phase = .failed ∨ o.closeOutcome.isSome = true
  waiting : ∀ subscriber, o.subscriber = some subscriber → subscriber.phase ≠ .done →
    subscriber.closed = subscriber.unsubscribed ∧ subscriber.reported = []
  failure : ∀ subscriber, o.subscriber = some subscriber → subscriber.phase = .done →
    o.failedOpen = true → subscriber.reported ≠ [] ∨ subscriber.unsubscribed = true
  silent : ∀ subscriber, o.subscriber = some subscriber → .stream true ∉ subscriber.reported
  disposing : o.disposal = some .closing → o.built = true ∧ o.closed = true
  disposed : o.disposal = some .done → o.phase = .failed ∨ o.closeOutcome.isSome = true

@[grind cases]
structure Consistent (aborted : Bool) (scope : CollectionScope) (o : Opening) : Prop where
  owned : o.Owned aborted scope
  current : o.Current aborted
  used : o.Used

variable {aborted : Bool} {scope : CollectionScope} {o t : Opening}

/-- What the ownership of a stream depends on. -/
def ownership (o : Opening) :
    OpeningPhase × Bool × ℕ × Bool × Bool × Option Bool × ℕ × Bool :=
  (o.phase, o.watched, o.closes, o.built, o.closed, o.closeOutcome, o.releases, o.tracked)

/-- Where an iteration is suspended, with what it has counted. -/
def progress (o : Opening) : Iteration × ℕ × ℕ × ℕ × ℕ × ℕ × Bool :=
  (o.iteration, o.delivered, o.queued, o.consumed, o.readFrom, o.emittedFrom, o.failedOpen)

/-- Who uses an opening. -/
def users (o : Opening) : Option Subscriber × ℕ × Option DisposalPhase :=
  (o.subscriber, o.adoptions, o.disposal)

/-! ### The stream -/

theorem Owned.frame (h : o.Owned aborted scope) (hkept : t.ownership = o.ownership) :
    t.Owned aborted scope := by
  simp only [ownership, Prod.mk.injEq] at hkept
  obtain ⟨hphase, hwatched, hcloses, hbuilt, hclosed, houtcome, hreleases, htracked⟩ := hkept
  obtain ⟨h1, h2, h3, h4, h5, h6, h7, h8, h9, h10, h11, h12, h13⟩ := h
  constructor <;> simpa only [hphase, hwatched, hcloses, hbuilt, hclosed, houtcome, hreleases,
    htracked]

theorem Owned.close (h : o.Owned aborted scope) (hbuilt : o.built = true) :
    o.close.Owned aborted scope := by
  unfold Opening.close
  split_ifs
  · exact h
  · constructor <;> grind

theorem Owned.hello {ok : Bool} (h : o.Owned aborted scope)
    (hcalm : ok = true → scope.isActive = true) (hstep : o.hello ok = some t) :
    t.Owned aborted scope := by
  unfold Opening.hello at hstep
  split at hstep
  · cases hstep
    split_ifs
    · constructor <;> grind
    · constructor <;> grind
  · cases hstep

theorem Owned.initialRead {ok : Bool} (h : o.Owned aborted scope)
    (hcalm : ok = true → aborted = false) (hstep : o.initialRead aborted ok = some t) :
    t.Owned aborted scope := by
  unfold Opening.initialRead at hstep
  split at hstep
  · cases hstep
    split_ifs
    · grind
    · constructor <;> grind [CollectionScope.isActive_of_isDisposed]
    · constructor <;> grind
  · cases hstep

theorem Owned.catchSettles (h : o.Owned aborted scope) (hstep : o.catchSettles = some t) :
    t.Owned aborted scope := by
  unfold Opening.catchSettles at hstep
  split at hstep
  · cases hstep
    constructor <;> grind
  · cases hstep

theorem Owned.closeSettles {ok : Bool} (h : o.Owned aborted scope)
    (hstep : o.closeSettles ok = some t) : t.Owned aborted scope := by
  unfold Opening.closeSettles at hstep
  split_ifs at hstep with hclosing
  cases hstep
  obtain ⟨⟨hbuilt, hclosed⟩, hnone⟩ :
      (o.built = true ∧ o.closed = true) ∧ o.closeOutcome = none := by
    simpa using hclosing
  constructor <;> grind

theorem close_kept (o : Opening) :
    o.close.built = o.built ∧ o.close.closed = true ∧ o.close.phase = o.phase ∧
      o.close.closeOutcome = o.closeOutcome ∧ o.close.progress = o.progress ∧
        o.close.users = o.users := by
  unfold Opening.close
  split_ifs with hclosed
  · exact ⟨rfl, hclosed, rfl, rfl, rfl, rfl⟩
  · exact ⟨rfl, rfl, rfl, rfl, rfl, rfl⟩

/-! ### The iteration -/

/-- An iteration is not touched by an opening that goes on, a close or a subscriber that leaves. -/
theorem Current.frame (h : o.Current aborted) (hkept : t.progress = o.progress)
    (hbuilt : o.built = true → t.built = true) (hclosed : o.closed = true → t.closed = true)
    (hsettled : o.closeOutcome.isSome = true → t.closeOutcome.isSome = true)
    (hleft : o.isUnsubscribed = true → t.isUnsubscribed = true) : t.Current aborted := by
  simp only [progress, Prod.mk.injEq] at hkept
  obtain ⟨hiteration, hdelivered, hqueued, hconsumed, hreadFrom, hemittedFrom, hfailed⟩ := hkept
  constructor
  case lateNext =>
    intro hwaiting
    have hover := h.lateNext (hiteration ▸ hwaiting)
    unfold isOver at *
    rcases Bool.or_eq_true_iff.1 hover with hover | hover
    · rw [hclosed hover]
      rfl
    · rw [hover, Bool.or_true]
  all_goals grind

theorem Current.close (h : o.Current aborted) : o.close.Current aborted := by
  obtain ⟨hbuilt, hclosed, -, hsettled, hprogress, husers⟩ := o.close_kept
  refine h.frame hprogress (fun hold => hbuilt.trans hold) (fun _ => hclosed)
    (fun hold => by rwa [hsettled]) fun hold => ?_
  have hsubscriber : o.close.subscriber = o.subscriber := congrArg Prod.fst husers
  rwa [isUnsubscribed, hsubscriber]

theorem Current.change (h : o.Current aborted) (hstep : o.change = some t) :
    t.Current aborted := by
  unfold Opening.change at hstep
  split_ifs at hstep
  cases hstep
  constructor <;> grind [isOver, isUnsubscribed]

theorem Current.next {outcome : StreamOutcome} (h : o.Current aborted)
    (hstep : o.next aborted outcome = some t) : t.Current aborted := by
  unfold Opening.next at hstep
  split at hstep
  · obtain ⟨u, htakes, rfl⟩ := Option.map_eq_some_iff.1 hstep
    unfold Opening.takes at htakes
    split at htakes
    all_goals
      try split_ifs at htakes
      cases htakes
      constructor <;> grind [isOver, isUnsubscribed, Iteration.isCurrent, Iteration.isLeaving,
        Iteration.error, Iteration.inFlight]
  · cases hstep

theorem Current.tryNext {outcome : StreamOutcome} (h : o.Current aborted)
    (hcalm : ∀ raisedClosed, outcome = .fails raisedClosed → o.isOver aborted = true →
      o.isUnsubscribed = true)
    (hstep : o.tryNext aborted outcome = some t) : t.Current aborted := by
  unfold Opening.tryNext at hstep
  split at hstep
  · obtain ⟨u, htakes, rfl⟩ := Option.map_eq_some_iff.1 hstep
    unfold Opening.takes at htakes
    split at htakes
    all_goals
      try split_ifs at htakes
      cases htakes
      constructor <;> grind [isOver, isUnsubscribed, Iteration.isCurrent, Iteration.isLeaving,
        Iteration.error, Iteration.inFlight]
  · cases hstep

theorem Current.read {ok : Bool} (h : o.Current aborted) (hstep : o.read ok = some t) :
    t.Current aborted := by
  unfold Opening.read at hstep
  split at hstep
  · cases hstep
    constructor <;> grind [isOver, isUnsubscribed, Iteration.isCurrent, Iteration.isLeaving,
      Iteration.error, Iteration.inFlight]
  · cases hstep

/-- An iteration that is under way is left; the error it throws may be one of an open stream. -/
theorem Current.leave {error : Option ObservationError} {failedOpen : Bool} {consumed : ℕ}
    (h : o.Current aborted) (hstarted : o.iteration ≠ .unstarted)
    (hleaving : o.iteration.isLeaving = false)
    (hlate : error = some (.stream true) → o.isUnsubscribed = true)
    (hfailed : failedOpen = true → o.failedOpen = true ∨ error ≠ none) :
    ({ o with failedOpen := failedOpen, consumed := consumed }.leave error).Current aborted := by
  have hbuilt := h.started hstarted
  have herror : o.iteration.error = none := Iteration.error_of_isLeaving hleaving
  have hnone : o.failedOpen = false := by
    by_contra hnot
    exact h.failedOpen (by simpa using hnot) herror
  unfold Opening.leave Opening.close
  split_ifs <;> constructor <;> grind [isUnsubscribed, Iteration.isCurrent, Iteration.isLeaving,
    Iteration.error]

theorem Current.loop (h : o.Current aborted) (htaken : o.iteration = .taken) :
    (o.loop aborted).Current aborted := by
  unfold Opening.loop
  split_ifs with hover
  · exact h.leave (by rw [htaken]; nofun) (by rw [htaken]; rfl) nofun .inl
  · constructor <;> grind [isUnsubscribed, Iteration.isCurrent, Iteration.isLeaving,
      Iteration.error, Iteration.inFlight]

theorem Current.throwStream {error : ObservationError} (h : o.Current aborted)
    (hstarted : o.iteration ≠ .unstarted) (hleaving : o.iteration.isLeaving = false)
    (hlate : error = .stream true → o.isUnsubscribed = true) :
    (o.throwStream aborted error).Current aborted :=
  h.leave hstarted hleaving (by simpa using hlate) fun _ => .inr nofun

theorem Current.drain (h : o.Current aborted) (hdraining : o.iteration = .draining (some .change)) :
    ({ o with consumed := o.consumed + 1 }.drain aborted).Current aborted := by
  unfold Opening.drain
  split_ifs
  · exact h.leave (by rw [hdraining]; nofun) (by rw [hdraining]; rfl) nofun .inl
  · constructor <;> grind [isUnsubscribed, Iteration.isCurrent, Iteration.isLeaving,
      Iteration.error, Iteration.inFlight]

/-- An iteration that goes on without leaving. -/
theorem Current.goesOn {iteration : Iteration} {consumed readFrom emittedFrom : ℕ}
    (h : o.Current aborted) (hstarted : o.iteration ≠ .unstarted)
    (hleaving : o.iteration.isLeaving = false)
    (hgoes : (iteration = .draining none ∧ o.iteration = .waiting (some .change) ∧
        consumed = o.consumed + 1) ∨
      (iteration = .reading none ∧ o.iteration = .draining (some .none) ∧
        consumed = o.consumed ∧ readFrom = o.consumed) ∨
      (iteration = .yielded ∧ o.iteration = .reading (some true) ∧ consumed = o.consumed ∧
        emittedFrom = o.readFrom)) :
    Current aborted { o with
      iteration := iteration
      consumed := consumed
      readFrom := readFrom
      emittedFrom := emittedFrom } := by
  constructor <;> grind [isUnsubscribed, Iteration.isCurrent, Iteration.isLeaving,
    Iteration.error, Iteration.inFlight]

theorem Current.ends {error : Option ObservationError} (h : o.Current aborted)
    (hfinishing : o.iteration = .finishing error) (houtcome : o.closeOutcome.isSome = true)
    {ended : Option ObservationError} (hended : ended = error ∨ ended = some .close) :
    Current aborted { o with iteration := .ended ended } := by
  constructor <;> grind [isUnsubscribed, Iteration.isCurrent, Iteration.isLeaving,
    Iteration.error]

theorem Current.resume (h : o.Current aborted) (hstep : o.resume aborted = some t) :
    t.Current aborted := by
  have hstarted : o.iteration ≠ .unstarted := by
    intro hnone
    unfold Opening.resume at hstep
    rw [hnone] at hstep
    cases hstep
  unfold Opening.resume at hstep
  split at hstep
  · rename_i htaken
    cases hstep
    exact h.loop htaken
  · rename_i raisedClosed hwaiting
    have hleaving : o.iteration.isLeaving = false := by rw [hwaiting]; rfl
    cases hstep
    split_ifs with hover
    · exact h.leave hstarted hleaving nofun .inl
    · refine h.throwStream hstarted hleaving fun hlate => ?_
      cases hlate
      exact absurd (h.lateNext hwaiting) hover
  · rename_i hwaiting
    have hleaving : o.iteration.isLeaving = false := by rw [hwaiting]; rfl
    cases hstep
    split_ifs
    · exact h.leave hstarted hleaving nofun .inl
    · exact h.throwStream hstarted hleaving nofun
  · rename_i hwaiting
    have hleaving : o.iteration.isLeaving = false := by rw [hwaiting]; rfl
    cases hstep
    split_ifs
    · exact h.leave hstarted hleaving nofun .inl
    · exact h.goesOn hstarted hleaving (.inl ⟨rfl, hwaiting, rfl⟩)
  · rename_i raisedClosed hdraining
    have hleaving : o.iteration.isLeaving = false := by rw [hdraining]; rfl
    cases hstep
    refine h.throwStream hstarted hleaving fun hlate => ?_
    cases hlate
    exact h.lateDrain hdraining
  · rename_i hdraining
    cases hstep
    exact h.drain hdraining
  · rename_i hdraining
    have hleaving : o.iteration.isLeaving = false := by rw [hdraining]; rfl
    cases hstep
    split_ifs
    · exact h.leave hstarted hleaving nofun .inl
    · exact h.goesOn hstarted hleaving (.inr (.inl ⟨rfl, hdraining, rfl, rfl⟩))
  · rename_i hreading
    cases hstep
    exact h.goesOn hstarted (by rw [hreading]; rfl) (.inr (.inr ⟨rfl, hreading, rfl, rfl⟩))
  · rename_i hreading
    have hleaving : o.iteration.isLeaving = false := by rw [hreading]; rfl
    cases hstep
    exact h.leave hstarted hleaving nofun .inl
  · rename_i error hfinishing
    split at hstep
    · rename_i houtcome
      cases hstep
      exact h.ends hfinishing (by rw [houtcome]; rfl) (.inl rfl)
    · rename_i houtcome
      cases hstep
      exact h.ends hfinishing (by rw [houtcome]; rfl) (.inr rfl)
    · cases hstep
  · cases hstep

/-! ### The subscriber and the disposal -/

theorem Used.frame (h : o.Used) (hkept : t.users = o.users)
    (hiteration : o.iteration = .unstarted → t.iteration = .unstarted)
    (hbuilt : o.built = true → t.built = true) (hclosed : o.closed = true → t.closed = true)
    (hover : o.phase = .failed ∨ o.closeOutcome.isSome = true →
      t.phase = .failed ∨ t.closeOutcome.isSome = true)
    (hfailed : t.failedOpen = true → o.failedOpen = true ∨
      ∀ subscriber, o.subscriber = some subscriber → subscriber.phase ≠ .done) : t.Used := by
  simp only [users, Prod.mk.injEq] at hkept
  obtain ⟨hsubscriber, hadoptions, hdisposal⟩ := hkept
  constructor <;> grind

theorem Used.close (h : o.Used) : o.close.Used := by
  obtain ⟨hbuilt, hclosed, hphase, hsettled, hprogress, husers⟩ := o.close_kept
  have hiteration : o.close.iteration = o.iteration := congrArg Prod.fst hprogress
  have hfailed : o.close.failedOpen = o.failedOpen :=
    congrArg (fun progress => progress.2.2.2.2.2.2) hprogress
  refine h.frame husers (fun hold => hiteration.trans hold) (fun hold => hbuilt.trans hold)
    (fun _ => hclosed) (fun hold => by rwa [hphase, hsettled]) fun hold => ?_
  exact .inl (hfailed.symm.trans hold)

/-- A stream is closed at most by a step of its iteration. -/
theorem resume_kept (hstep : o.resume aborted = some t) :
    t.users = o.users ∧ (t.ownership = o.ownership ∨ t.ownership = o.close.ownership) ∧
      (t.failedOpen = true → o.failedOpen = true ∨ o.closed = false) := by
  have hleave : ∀ (failedOpen : Bool) (consumed : ℕ) (error : Option ObservationError),
      ({ o with failedOpen := failedOpen, consumed := consumed }.leave error).users = o.users ∧
        ({ o with failedOpen := failedOpen, consumed := consumed }.leave error).ownership =
            o.close.ownership ∧
          ({ o with failedOpen := failedOpen, consumed := consumed }.leave error).failedOpen =
            failedOpen := by
    intro failedOpen consumed error
    unfold Opening.leave Opening.close
    split_ifs <;> exact ⟨rfl, rfl, rfl⟩
  have hleft : ∀ (consumed : ℕ) (error : Option ObservationError),
      ({ o with consumed := consumed }.leave error).users = o.users ∧
        (({ o with consumed := consumed }.leave error).ownership = o.ownership ∨
            ({ o with consumed := consumed }.leave error).ownership = o.close.ownership) ∧
          (({ o with consumed := consumed }.leave error).failedOpen = true →
            o.failedOpen = true ∨ o.closed = false) := by
    intro consumed error
    obtain ⟨husers, hownership, hfailed⟩ := hleave o.failedOpen consumed error
    exact ⟨husers, .inr hownership, fun hold => .inl (hfailed.symm.trans hold)⟩
  have hthrow : ∀ error, (o.throwStream aborted error).users = o.users ∧
      ((o.throwStream aborted error).ownership = o.ownership ∨
          (o.throwStream aborted error).ownership = o.close.ownership) ∧
        ((o.throwStream aborted error).failedOpen = true →
          o.failedOpen = true ∨ o.closed = false) := by
    intro error
    obtain ⟨husers, hownership, hfailed⟩ :=
      hleave (o.failedOpen || !o.isOver aborted) o.consumed (some error)
    refine ⟨husers, .inr hownership, fun hold => ?_⟩
    have hboth := hfailed.symm.trans hold
    rcases Bool.or_eq_true_iff.1 hboth with hold | hopen
    · exact .inl hold
    · exact .inr (Bool.or_eq_false_iff.1 (by simpa [isOver] using hopen)).1
  unfold Opening.resume at hstep
  split at hstep
  · cases hstep
    unfold Opening.loop
    split_ifs
    · exact hleft o.consumed none
    · exact ⟨rfl, .inl rfl, .inl⟩
  · cases hstep
    split_ifs
    · exact hleft o.consumed none
    · exact hthrow _
  · cases hstep
    split_ifs
    · exact hleft o.consumed none
    · exact hthrow _
  · cases hstep
    split_ifs
    · exact hleft o.consumed none
    · exact ⟨rfl, .inl rfl, .inl⟩
  · cases hstep
    exact hthrow _
  · cases hstep
    unfold Opening.drain
    split_ifs
    · exact hleft (o.consumed + 1) none
    · exact ⟨rfl, .inl rfl, .inl⟩
  · cases hstep
    split_ifs
    · exact hleft o.consumed none
    · exact ⟨rfl, .inl rfl, .inl⟩
  · cases hstep
    exact ⟨rfl, .inl rfl, .inl⟩
  · cases hstep
    exact hleft o.consumed _
  · split at hstep
    · cases hstep
      exact ⟨rfl, .inl rfl, .inl⟩
    · cases hstep
      exact ⟨rfl, .inl rfl, .inl⟩
    · cases hstep
  · cases hstep

theorem Owned.closes (h : o.Owned aborted scope) (hbuilt : o.built = true)
    (hkept : t.ownership = o.ownership ∨ t.ownership = o.close.ownership) :
    t.Owned aborted scope := by
  rcases hkept with hkept | hkept
  · exact h.frame hkept
  · exact (h.close hbuilt).frame hkept

/-- A stream that ends or fails while it is open has a subscriber that is not done. -/
theorem Used.closes (h : o.Used) (howned : o.Owned aborted scope) (hbuilt : o.built = true)
    (hstarted : o.iteration ≠ .unstarted) (husers : t.users = o.users)
    (hkept : t.ownership = o.ownership ∨ t.ownership = o.close.ownership)
    (hfailed : t.failedOpen = true → o.failedOpen = true ∨ o.closed = false) : t.Used := by
  obtain ⟨hbuilt', hclosed', hphase', hsettled', -, -⟩ := o.close_kept
  have hparts : t.phase = o.phase ∧ t.built = o.built ∧ (o.closed = true → t.closed = true) ∧
      t.closeOutcome = o.closeOutcome := by
    simp only [ownership, Prod.mk.injEq] at hkept
    rcases hkept with ⟨h1, -, -, h2, h3, h4, -, -⟩ | ⟨h1, -, -, h2, h3, h4, -, -⟩
    · exact ⟨h1, h2, fun hold => h3.trans hold, h4⟩
    · exact ⟨h1.trans hphase', h2.trans hbuilt', fun _ => h3.trans hclosed', h4.trans hsettled'⟩
  obtain ⟨hphase, hbuilt'', hclosed, hsettled⟩ := hparts
  refine h.frame husers (fun hold => absurd hold hstarted) (fun hold => hbuilt''.trans hold)
    hclosed (fun hold => by rwa [hphase, hsettled]) fun hnew => ?_
  rcases hfailed hnew with hold | hopen
  · exact .inl hold
  · refine .inr fun subscriber hsubscriber hdone => ?_
    rcases h.done subscriber hsubscriber hdone with hover | hover
    · have hopened := howned.opened.2 hbuilt
      rw [hover] at hopened
      cases hopened
    · rw [howned.settled hover] at hopen
      cases hopen

theorem Consistent.resume (h : o.Consistent aborted scope) (hstep : o.resume aborted = some t) :
    t.Consistent aborted scope := by
  have hstarted : o.iteration ≠ .unstarted := by
    intro hnone
    unfold Opening.resume at hstep
    rw [hnone] at hstep
    cases hstep
  have hbuilt := h.current.started hstarted
  obtain ⟨husers, hkept, hfailed⟩ := resume_kept hstep
  exact ⟨h.owned.closes hbuilt hkept, h.current.resume hstep,
    h.used.closes h.owned hbuilt hstarted husers hkept hfailed⟩

/-- A step of the opening itself, or of the server. -/
theorem Used.goesOn (h : o.Used) (howned : o.Owned aborted scope) (hkept : t.users = o.users)
    (hprogress : t.iteration = o.iteration ∧ t.failedOpen = o.failedOpen)
    (hbuilt : o.built = true → t.built = true ∧ t.phase = o.phase ∧ t.closed = o.closed)
    (hphase : o.phase = .failed → t.phase = .failed)
    (hsettled : o.closeOutcome.isSome = true → t.closeOutcome.isSome = true) : t.Used := by
  refine h.frame hkept (fun hold => hprogress.1.trans hold) (fun hold => (hbuilt hold).1)
    (fun hold => ?_) (fun hold => ?_) fun hold => .inl (hprogress.2.symm.trans hold)
  · have hold' : o.built = true := by
      by_contra hnot
      rw [(howned.unbuilt (by simpa using hnot)).1] at hold
      cases hold
    rwa [(hbuilt hold').2.2]
  · exact hold.imp hphase hsettled

theorem Consistent.hello {ok : Bool} (h : o.Consistent aborted scope)
    (hcalm : ok = true → scope.isActive = true) (hstep : o.hello ok = some t) :
    t.Consistent aborted scope := by
  have howned := h.owned.hello hcalm hstep
  unfold Opening.hello at hstep
  split at hstep
  · rename_i hphase
    have hbuilt : o.built = true → False := fun hbuilt => by
      have hopened := h.owned.opened.2 hbuilt
      rw [hphase] at hopened
      cases hopened
    have hfailed : o.phase ≠ .failed := by rw [hphase]; nofun
    cases hstep
    refine ⟨howned, ?_, ?_⟩
    · split_ifs <;> exact h.current.frame rfl id id id id
    · split_ifs <;> exact h.used.goesOn h.owned rfl ⟨rfl, rfl⟩ (fun hold => (hbuilt hold).elim)
        (fun hold => absurd hold hfailed) id
  · cases hstep

theorem Consistent.initialRead {ok : Bool} (h : o.Consistent aborted scope)
    (hcalm : ok = true → aborted = false) (hstep : o.initialRead aborted ok = some t) :
    t.Consistent aborted scope := by
  have howned := h.owned.initialRead hcalm hstep
  unfold Opening.initialRead at hstep
  split at hstep
  · rename_i hphase
    have hbuilt : o.built = true → False := fun hbuilt => by
      have hopened := h.owned.opened.2 hbuilt
      rw [hphase] at hopened
      cases hopened
    have hfailed : o.phase ≠ .failed := fun hfailed => by
      rw [hphase] at hfailed
      cases hfailed
    cases hstep
    refine ⟨howned, ?_, ?_⟩
    · split_ifs with hok haborted
      · rw [hcalm hok] at haborted
        cases haborted
      · exact h.current.frame rfl (fun _ => rfl) id id id
      · exact h.current.frame rfl id id id id
    · split_ifs with hok haborted
      · rw [hcalm hok] at haborted
        cases haborted
      · exact h.used.goesOn h.owned rfl ⟨rfl, rfl⟩ (fun hold => (hbuilt hold).elim)
          (fun hold => absurd hold hfailed) id
      · exact h.used.goesOn h.owned rfl ⟨rfl, rfl⟩ (fun hold => (hbuilt hold).elim)
          (fun hold => absurd hold hfailed) id
  · cases hstep

theorem Consistent.abortThrown (h : o.Consistent aborted scope)
    (hstep : o.abortThrown = some t) : t.Consistent aborted scope := by
  unfold Opening.abortThrown at hstep
  split at hstep
  · rename_i hphase
    exact absurd hphase h.owned.aborting
  · cases hstep

theorem Consistent.catchSettles (h : o.Consistent aborted scope)
    (hstep : o.catchSettles = some t) : t.Consistent aborted scope := by
  have howned := h.owned.catchSettles hstep
  unfold Opening.catchSettles at hstep
  split at hstep
  · rename_i hphase
    cases hstep
    refine ⟨howned, h.current.frame rfl id id id id, ?_⟩
    refine h.used.goesOn h.owned rfl ⟨rfl, rfl⟩ (fun hbuilt => ?_) (fun _ => rfl) id
    have hopened := h.owned.opened.2 hbuilt
    rw [hphase] at hopened
    cases hopened
  · cases hstep

theorem Consistent.closeSettles {ok : Bool} (h : o.Consistent aborted scope)
    (hstep : o.closeSettles ok = some t) : t.Consistent aborted scope := by
  have howned := h.owned.closeSettles hstep
  unfold Opening.closeSettles at hstep
  split_ifs at hstep
  cases hstep
  exact ⟨howned, h.current.frame rfl id id (fun _ => rfl) id,
    h.used.goesOn h.owned rfl ⟨rfl, rfl⟩ (fun hold => ⟨hold, rfl, rfl⟩) id fun _ => rfl⟩

/-- A step of the stream or of a read, of which only the iteration learns. -/
theorem Consistent.learns (h : o.Consistent aborted scope) (hcurrent : t.Current aborted)
    (hownership : t.ownership = o.ownership) (husers : t.users = o.users)
    (hfailed : t.failedOpen = o.failedOpen)
    (hiteration : o.iteration = .unstarted → t.iteration = .unstarted) :
    t.Consistent aborted scope := by
  have hparts := hownership
  simp only [ownership, Prod.mk.injEq] at hparts
  obtain ⟨hphase, -, -, hbuilt, hclosed, hsettled, -, -⟩ := hparts
  refine ⟨h.owned.frame hownership, hcurrent, ?_⟩
  exact h.used.frame husers hiteration (fun hold => hbuilt.trans hold)
    (fun hold => hclosed.trans hold) (fun hold => by rwa [hphase, hsettled])
    fun hold => .inl (hfailed.symm.trans hold)

theorem Consistent.change (h : o.Consistent aborted scope) (hstep : o.change = some t) :
    t.Consistent aborted scope := by
  have hcurrent := h.current.change hstep
  unfold Opening.change at hstep
  split_ifs at hstep
  cases hstep
  exact h.learns hcurrent rfl rfl rfl id

theorem takes_kept {outcome : StreamOutcome} (hstep : o.takes aborted outcome = some t) :
    t.ownership = o.ownership ∧ t.users = o.users ∧ t.failedOpen = o.failedOpen := by
  unfold Opening.takes at hstep
  split at hstep
  · split_ifs at hstep
    cases hstep
    exact ⟨rfl, rfl, rfl⟩
  · cases hstep
    exact ⟨rfl, rfl, rfl⟩
  · split_ifs at hstep
    cases hstep
    exact ⟨rfl, rfl, rfl⟩

theorem Consistent.next {outcome : StreamOutcome} (h : o.Consistent aborted scope)
    (hstep : o.next aborted outcome = some t) : t.Consistent aborted scope := by
  have hcurrent := h.current.next hstep
  unfold Opening.next at hstep
  split at hstep
  · rename_i hwaiting
    obtain ⟨u, htakes, rfl⟩ := Option.map_eq_some_iff.1 hstep
    obtain ⟨hownership, husers, hfailed⟩ := takes_kept htakes
    exact h.learns hcurrent hownership husers hfailed fun hnone => by
      rw [hwaiting] at hnone
      cases hnone
  · cases hstep

theorem Consistent.tryNext {outcome : StreamOutcome} (h : o.Consistent aborted scope)
    (hcalm : ∀ raisedClosed, outcome = .fails raisedClosed → o.isOver aborted = true →
      o.isUnsubscribed = true)
    (hstep : o.tryNext aborted outcome = some t) : t.Consistent aborted scope := by
  have hcurrent := h.current.tryNext hcalm hstep
  unfold Opening.tryNext at hstep
  split at hstep
  · rename_i hdraining
    obtain ⟨u, htakes, rfl⟩ := Option.map_eq_some_iff.1 hstep
    obtain ⟨hownership, husers, hfailed⟩ := takes_kept htakes
    exact h.learns hcurrent hownership husers hfailed fun hnone => by
      rw [hdraining] at hnone
      cases hnone
  · cases hstep

theorem Consistent.read {ok : Bool} (h : o.Consistent aborted scope)
    (hstep : o.read ok = some t) : t.Consistent aborted scope := by
  have hcurrent := h.current.read hstep
  unfold Opening.read at hstep
  split at hstep
  · rename_i hreading
    cases hstep
    exact h.learns hcurrent rfl rfl rfl fun hnone => by
      rw [hreading] at hnone
      cases hnone
  · cases hstep

theorem Consistent.close (h : o.Consistent aborted scope) (hbuilt : o.built = true) :
    o.close.Consistent aborted scope :=
  ⟨h.owned.close hbuilt, h.current.close, h.used.close⟩

/-- A subscriber or a disposal goes on, and the subscriber stays closed. -/
theorem Consistent.moves (h : o.Consistent aborted scope) {subscriber : Option Subscriber}
    {disposal : Option DisposalPhase}
    (hleft : o.isUnsubscribed = true → subscriber.any Subscriber.closed = true)
    (hused : Used { o with subscriber := subscriber, disposal := disposal }) :
    Consistent aborted scope { o with subscriber := subscriber, disposal := disposal } :=
  ⟨h.owned.frame rfl, h.current.frame rfl id id id hleft, hused⟩

theorem reportError_settle_kept (o : Opening) {subscriber : Subscriber}
    (hsubscriber : o.subscriber = some subscriber) (error : ObservationError) :
    (o.reportError subscriber error).settle.ownership = o.ownership ∧
      (o.reportError subscriber error).settle.progress = o.progress ∧
        (o.reportError subscriber error).settle.isUnsubscribed = true := by
  unfold reportError settle isUnsubscribed
  split_ifs with hclosed
  · exact ⟨rfl, rfl, by simp only [hsubscriber, Option.map_some, Option.any_some, hclosed]⟩
  · exact ⟨rfl, rfl, rfl⟩

/-- An error is reported to a subscriber that is not closed, and the subscription is over. -/
theorem Used.reports {subscriber : Subscriber} {error : ObservationError} (h : o.Used)
    (hsubscriber : o.subscriber = some subscriber) (hphase : subscriber.phase ≠ .done)
    (hover : o.phase = .failed ∨ o.closeOutcome.isSome = true)
    (hlate : error = .stream true → subscriber.closed = true) :
    (o.reportError subscriber error).settle.Used := by
  obtain ⟨hclosed, hreported⟩ := h.waiting subscriber hsubscriber hphase
  unfold reportError settle
  split_ifs
  all_goals
    simp only [hsubscriber, Option.map_some, hreported, List.nil_append]
    constructor <;> grind [List.mem_singleton]

theorem Consistent.reports {subscriber : Subscriber} {error : ObservationError}
    (h : o.Consistent aborted scope) (hsubscriber : o.subscriber = some subscriber)
    (hphase : subscriber.phase ≠ .done)
    (hover : o.phase = .failed ∨ o.closeOutcome.isSome = true)
    (hlate : error = .stream true → subscriber.closed = true) :
    (o.reportError subscriber error).settle.Consistent aborted scope := by
  obtain ⟨hownership, hprogress, hleft⟩ := o.reportError_settle_kept hsubscriber error
  have hparts := hownership
  simp only [ownership, Prod.mk.injEq] at hparts
  obtain ⟨-, -, -, hbuilt, hclosed, hsettled, -, -⟩ := hparts
  exact ⟨h.owned.frame hownership,
    h.current.frame hprogress (fun hold => hbuilt.trans hold) (fun hold => hclosed.trans hold)
      (fun hold => by rwa [hsettled]) fun _ => hleft,
    h.used.reports hsubscriber hphase hover hlate⟩

theorem Current.starts (h : o.Current aborted) {subscriber : Subscriber}
    (hunstarted : o.iteration = .unstarted) (hbuilt : o.built = true)
    (hleft : o.isUnsubscribed = true → subscriber.closed = true) :
    Current aborted { o with iteration := .yielded, subscriber := some subscriber } := by
  constructor <;> grind [isOver, isUnsubscribed, Iteration.isCurrent, Iteration.isLeaving,
    Iteration.error, Iteration.inFlight]

theorem Used.starts {subscriber : Subscriber} (h : o.Used)
    (hsubscriber : o.subscriber = some subscriber) (hphase : subscriber.phase = .opening)
    (hbuilt : o.built = true) :
    Used { o with
      iteration := .yielded
      subscriber := some { subscriber with phase := .iterating } } := by
  constructor <;> grind

/-- An observation that comes too late is closed. -/
theorem Used.startsClosing {subscriber : Subscriber} (h : o.Used)
    (hsubscriber : o.subscriber = some subscriber) (hphase : subscriber.phase = .opening)
    (hbuilt : o.built = true) (hclosed : o.closed = true) :
    Used { o with subscriber := some { subscriber with phase := .closing } } := by
  constructor <;> grind

theorem Consistent.opened (h : o.Consistent aborted scope) (hstep : o.opened = some t) :
    t.Consistent aborted scope := by
  unfold Opening.opened at hstep
  split at hstep
  · rename_i subscriber hsubscriber
    split at hstep
    · rename_i hphase hfailed
      cases hstep
      exact h.reports hsubscriber (by rw [hphase]; nofun) (.inl hfailed) nofun
    · rename_i hphase hopened
      have hbuilt := h.owned.opened.1 hopened
      have hunstarted := h.used.opening subscriber hsubscriber hphase
      rw [if_pos hunstarted] at hstep
      split_ifs at hstep with hclosed
      · cases hstep
        obtain ⟨hbuilt', hclosed', -, -, -, husers⟩ := o.close_kept
        have hsubscriber' : o.close.subscriber = some subscriber :=
          (congrArg Prod.fst husers).trans hsubscriber
        exact (h.close hbuilt).moves (fun _ => hclosed)
          ((h.used.close).startsClosing hsubscriber' hphase (hbuilt'.trans hbuilt) hclosed')
      · cases hstep
        refine ⟨h.owned.frame rfl, h.current.starts hunstarted hbuilt fun hleft => ?_,
          h.used.starts hsubscriber hphase hbuilt⟩
        rwa [isUnsubscribed, hsubscriber] at hleft
    · cases hstep
  · cases hstep

theorem Consistent.consume (h : o.Consistent aborted scope) (hstep : o.consume = some t) :
    t.Consistent aborted scope := by
  unfold Opening.consume at hstep
  split at hstep
  · rename_i subscriber hsubscriber hyielded
    have hstarted : o.iteration ≠ .unstarted := by rw [hyielded]; nofun
    have hbuilt := h.current.started hstarted
    split at hstep
    · cases hstep
      split_ifs
      · have hkept : (o.leave none).users = o.users ∧
            (o.leave none).ownership = o.close.ownership ∧
              (o.leave none).failedOpen = o.failedOpen := by
          unfold Opening.leave Opening.close
          split_ifs <;> exact ⟨rfl, rfl, rfl⟩
        exact ⟨h.owned.closes hbuilt (.inr hkept.2.1),
          h.current.leave hstarted (by rw [hyielded]; rfl) nofun .inl,
          h.used.closes h.owned hbuilt hstarted hkept.1 (.inr hkept.2.1)
            fun hold => .inl (hkept.2.2.symm.trans hold)⟩
      · refine h.learns ?_ rfl rfl rfl fun hnone => absurd hnone hstarted
        have hcurrent := h.current
        constructor <;> grind [isOver, isUnsubscribed, Iteration.isCurrent, Iteration.isLeaving,
          Iteration.error, Iteration.inFlight]
    · cases hstep
  · cases hstep

theorem Consistent.finish (h : o.Consistent aborted scope) (hstep : o.finish = some t) :
    t.Consistent aborted scope := by
  unfold Opening.finish at hstep
  split at hstep
  · rename_i subscriber error hsubscriber hended
    have hsettled := h.current.ended error hended
    split at hstep
    · rename_i hphase
      split at hstep
      · cases hstep
        refine h.reports hsubscriber (by rw [hphase]; nofun) (.inr hsettled) fun hlate => ?_
        subst hlate
        have hleft := h.current.lateError (by rw [hended]; rfl)
        rwa [isUnsubscribed, hsubscriber] at hleft
      · cases hstep
        refine h.moves (fun _ => rfl) ?_
        have hnone : o.failedOpen = false := by
          by_contra hnot
          exact h.current.failedOpen (by simpa using hnot) (by rw [hended]; rfl)
        have hused := h.used
        constructor <;> grind
    · cases hstep
  · cases hstep

theorem Consistent.closingDone (h : o.Consistent aborted scope) (hstep : o.closingDone = some t) :
    t.Consistent aborted scope := by
  unfold Opening.closingDone at hstep
  split at hstep
  · rename_i subscriber hsubscriber
    split at hstep
    · rename_i hphase
      split_ifs at hstep with hsettled
      cases hstep
      have hnone : o.failedOpen = false := by
        by_contra hnot
        have herror := h.current.failedOpen (by simpa using hnot)
        rw [(h.used.closing subscriber hsubscriber hphase).2.2] at herror
        exact herror rfl
      have hused := h.used
      unfold settle
      simp only [hsubscriber, Option.map_some]
      refine h.moves (fun hleft => ?_) ?_
      · rwa [isUnsubscribed, hsubscriber] at hleft
      · constructor <;> grind
    · cases hstep
  · cases hstep

theorem Consistent.unsubscribe (h : o.Consistent aborted scope) (hstep : o.unsubscribe = some t) :
    t.Consistent aborted scope := by
  unfold Opening.unsubscribe at hstep
  split at hstep
  · rename_i subscriber hsubscriber
    have hleft : subscriber.closed = false → Consistent aborted scope { o with
        subscriber := some { subscriber with closed := true, unsubscribed := true } } := by
      intro hopen
      have hused := h.used
      refine h.moves (fun _ => rfl) ?_
      constructor <;> grind
    split_ifs at hstep with hclosed hphase
    · cases hstep
      exact (hleft (by simpa using hclosed)).close
        (h.used.iterating subscriber hsubscriber hphase)
    · cases hstep
      exact hleft (by simpa using hclosed)
  · cases hstep

theorem Used.disposes {disposal : DisposalPhase} (h : o.Used)
    (hclosing : disposal = .closing → o.built = true ∧ o.closed = true)
    (hdone : disposal = .done → o.phase = .failed ∨ o.closeOutcome.isSome = true) :
    Used { o with disposal := some disposal } := by
  constructor <;> grind

theorem Consistent.disposalResumes (h : o.Consistent aborted scope)
    (hstep : o.disposalResumes = some t) : t.Consistent aborted scope := by
  unfold Opening.disposalResumes at hstep
  split at hstep
  · split at hstep
    · rename_i hopened
      cases hstep
      have hbuilt := h.owned.opened.1 hopened
      obtain ⟨hbuilt', hclosed', -⟩ := o.close_kept
      exact (h.close hbuilt).moves id
        (h.used.close.disposes (fun _ => ⟨hbuilt'.trans hbuilt, hclosed'⟩) nofun)
    · rename_i hfailed
      cases hstep
      exact h.moves id (h.used.disposes nofun fun _ => .inl hfailed)
    · cases hstep
  · split_ifs at hstep with hsettled
    cases hstep
    exact h.moves id (h.used.disposes nofun fun _ => .inr hsettled)
  · cases hstep

/-- A step that the code is prepared for. -/
theorem Consistent.step {event : OpeningEvent} (h : o.Consistent aborted scope)
    (hcalm : o.Calm aborted scope event) (hstep : o.step aborted event = some t) :
    t.Consistent aborted scope := by
  cases event with
  | hello ok => exact h.hello (fun hok => by subst hok; exact hcalm) hstep
  | initialRead ok => exact h.initialRead (fun hok => by subst hok; exact hcalm) hstep
  | abortThrown => exact h.abortThrown hstep
  | catchSettles => exact h.catchSettles hstep
  | closeSettles ok => exact h.closeSettles hstep
  | change => exact h.change hstep
  | next outcome => exact h.next hstep
  | tryNext outcome =>
      refine h.tryNext (fun raisedClosed hfails => ?_) hstep
      subst hfails
      exact hcalm
  | read ok => exact h.read hstep
  | resume => exact h.resume hstep
  | opened => exact h.opened hstep
  | consume => exact h.consume hstep
  | finish => exact h.finish hstep
  | closingDone => exact h.closingDone hstep
  | unsubscribe => exact h.unsubscribe hstep
  | disposalResumes => exact h.disposalResumes hstep

/-! ### What a step leaves alone -/

theorem next_kept {outcome : StreamOutcome} (hstep : o.next aborted outcome = some t) :
    t.ownership = o.ownership ∧ t.users = o.users := by
  unfold Opening.next at hstep
  split at hstep
  · obtain ⟨u, htakes, rfl⟩ := Option.map_eq_some_iff.1 hstep
    obtain ⟨hownership, husers, -⟩ := takes_kept htakes
    exact ⟨hownership, husers⟩
  · cases hstep

theorem tryNext_kept {outcome : StreamOutcome} (hstep : o.tryNext aborted outcome = some t) :
    t.ownership = o.ownership ∧ t.users = o.users := by
  unfold Opening.tryNext at hstep
  split at hstep
  · obtain ⟨u, htakes, rfl⟩ := Option.map_eq_some_iff.1 hstep
    obtain ⟨hownership, husers, -⟩ := takes_kept htakes
    exact ⟨hownership, husers⟩
  · cases hstep

theorem step_subscriber_none {event : OpeningEvent} (hnone : o.subscriber = none)
    (hstep : o.step aborted event = some t) : t.subscriber = none := by
  cases event with
  | next outcome => exact (congrArg Prod.fst (next_kept hstep).2).trans hnone
  | tryNext outcome => exact (congrArg Prod.fst (tryNext_kept hstep).2).trans hnone
  | _ =>
      grind [Opening.step, Opening.hello, Opening.initialRead, Opening.abortThrown,
        Opening.catchSettles, Opening.closeSettles, Opening.change, Opening.read, Opening.resume,
        Opening.loop, Opening.drain, Opening.leave, Opening.throwStream, Opening.opened,
        Opening.consume, Opening.finish, Opening.closingDone, Opening.unsubscribe,
        Opening.disposalResumes, Opening.close]

/-- Only an initial read makes an observation, and a close that is over stays so. -/
theorem step_unsettled {event : OpeningEvent} (hreading : o.phase ≠ .reading)
    (hstep : o.step aborted event = some t) (hbuilt : t.built = true)
    (hnone : t.closeOutcome = none) : o.built = true ∧ o.closeOutcome = none := by
  cases event with
  | next outcome =>
      have hkept := (next_kept hstep).1
      simp only [ownership, Prod.mk.injEq] at hkept
      obtain ⟨-, -, -, hkept, -, hsettled, -, -⟩ := hkept
      exact ⟨hkept ▸ hbuilt, hsettled ▸ hnone⟩
  | tryNext outcome =>
      have hkept := (tryNext_kept hstep).1
      simp only [ownership, Prod.mk.injEq] at hkept
      obtain ⟨-, -, -, hkept, -, hsettled, -, -⟩ := hkept
      exact ⟨hkept ▸ hbuilt, hsettled ▸ hnone⟩
  | _ =>
      grind [Opening.step, Opening.hello, Opening.initialRead, Opening.abortThrown,
        Opening.catchSettles, Opening.closeSettles, Opening.change, Opening.read, Opening.resume,
        Opening.loop, Opening.drain, Opening.leave, Opening.throwStream, Opening.opened,
        Opening.consume, Opening.finish, Opening.closingDone, Opening.unsubscribe,
        Opening.disposalResumes, Opening.close, Opening.settle, Opening.reportError]

end Opening

end Arc.MongoDB
