import Arc.MongoDB.OpeningSteps

/-!
# Observations end in the latest state

In a run that neither aborts an initial read that succeeds, nor disposes of a scope around a
stream that is opened, nor fails to drain a stream because it was closed, an iteration that waits
has emitted the latest state, and each stream is closed and released once by the time that those
who use it have ended.
-/

namespace Arc.MongoDB

namespace Opening

/-- The subscription, the disposal of the primed snapshot or the scope has ended. -/
def HasEnded (scope : CollectionScope) (o : Opening) : Prop :=
  (∃ subscriber, o.subscriber = some subscriber ∧ subscriber.phase = .done) ∨
    o.disposal = some .done ∨ scope.isDisposed = true

/-- An observation ends in the latest state and cleans up once. -/
structure EndsClean (scope : CollectionScope) (o : Opening) : Prop where
  latest : o.iteration = .waiting none → o.queued = 0 →
    o.emittedFrom = o.consumed ∧ o.consumed = o.delivered
  once : o.closes ≤ 1 ∧ o.releases ≤ 1
  ended : o.HasEnded scope → o.watched = true → o.closes = 1 ∧ o.releases = o.built.toNat
  adopted : o.adoptions ≤ 1
  failure : ∀ subscriber, o.subscriber = some subscriber → subscriber.phase = .done →
    o.failedOpen = true → subscriber.reported ≠ [] ∨ subscriber.unsubscribed = true
  silent : ∀ subscriber, o.subscriber = some subscriber → .stream true ∉ subscriber.reported

variable {aborted : Bool} {scope : CollectionScope} {o : Opening}

/-- A stream that is over was closed once, and its observation released. -/
theorem Owned.closed_once (h : o.Owned aborted scope) (hwatched : o.watched = true)
    (hover : o.phase = .failed ∨ o.closeOutcome.isSome = true) :
    o.closes = 1 ∧ o.releases = o.built.toNat := by
  rcases hover with hfailed | hsettled
  · have hbuilt : o.built = false := by
      by_contra hbuilt
      have hopened := h.opened.2 (by simpa using hbuilt)
      rw [hfailed] at hopened
      cases hopened
    obtain ⟨-, -, hnone⟩ := h.unbuilt hbuilt
    exact ⟨by rw [h.failed hfailed, hwatched]; rfl, by rw [h.released, hnone, hbuilt]; rfl⟩
  · have hbuilt : o.built = true := by
      by_contra hbuilt
      obtain ⟨-, -, hnone⟩ := h.unbuilt (by simpa using hbuilt)
      rw [hnone] at hsettled
      cases hsettled
    obtain ⟨-, hcloses, -⟩ := h.built hbuilt
    exact ⟨by rw [hcloses, h.settled hsettled]; rfl, by rw [h.released, hsettled, hbuilt]⟩

theorem Owned.closes_le_one (h : o.Owned aborted scope) : o.closes ≤ 1 := by
  have hphase := h.aborting
  have hwatched := Bool.toNat_le o.watched
  have hclosed := Bool.toNat_le o.closed
  cases hp : o.phase with
  | hello => rw [(h.greeting hp).2]; exact zero_le_one
  | reading => rw [(h.reading hp).2.1]; exact zero_le_one
  | aborting => exact absurd hp hphase
  | failing => exact (h.failing hp).2.le
  | opened => rw [(h.built (h.opened.1 hp)).2.1]; exact hclosed
  | failed => rw [h.failed hp]; exact hwatched

/-- An opening whose scope is disposed has no stream, or is over. -/
theorem Owned.closed_of_isDisposed (h : o.Owned aborted scope) (hwatched : o.watched = true)
    (hscope : scope.isDisposed = true) : o.closes = 1 ∧ o.releases = o.built.toNat := by
  cases hp : o.phase with
  | hello =>
      have hnone := (h.greeting hp).1
      rw [hwatched] at hnone
      cases hnone
  | reading =>
      have hactive := (h.reading hp).2.2
      rw [CollectionScope.isActive_of_isDisposed hscope] at hactive
      cases hactive
  | aborting => exact absurd hp h.aborting
  | failing =>
      have hbuilt : o.built = false := by
        by_contra hbuilt
        have hopened := h.opened.2 (by simpa using hbuilt)
        rw [hp] at hopened
        cases hopened
      obtain ⟨-, -, hnone⟩ := h.unbuilt hbuilt
      exact ⟨(h.failing hp).2, by rw [h.released, hnone, hbuilt]; rfl⟩
  | opened => exact h.closed_once hwatched (.inr (h.disposed hscope (h.opened.1 hp)))
  | failed => exact h.closed_once hwatched (.inl hp)

theorem Consistent.endsClean (h : o.Consistent aborted scope) : o.EndsClean scope where
  latest := fun hwaiting hqueued => by
    have hflow := h.current.flow (by rw [hwaiting]; rfl)
    rw [hwaiting, hqueued] at hflow
    exact ⟨h.current.current (by rw [hwaiting]; rfl), hflow.symm⟩
  once := by
    refine ⟨h.owned.closes_le_one, ?_⟩
    rw [h.owned.released]
    exact Bool.toNat_le _
  ended := fun hended hwatched => by
    rcases hended with ⟨subscriber, hsubscriber, hdone⟩ | hdone | hscope
    · exact h.owned.closed_once hwatched (h.used.done subscriber hsubscriber hdone)
    · exact h.owned.closed_once hwatched (h.used.disposed hdone)
    · exact h.owned.closed_of_isDisposed hwatched hscope
  adopted := h.used.adopted
  failure := h.used.failure
  silent := h.used.silent

/-- An abort closes every observation. -/
theorem Consistent.afterAbort (h : o.Consistent aborted scope)
    (hclosed : o.built = true → o.closed = true) : o.Consistent true scope := by
  refine ⟨?_, ?_, ?_⟩ <;> constructor <;> grind [isOver, isUnsubscribed]

/-- The disposal of the scope begins or ends. -/
theorem Consistent.rescope {scope' : CollectionScope} (h : o.Consistent aborted scope)
    (hreading : o.phase ≠ .reading) (hclosed : o.built = true → o.closed = true)
    (hsettled : scope'.isDisposed = true → o.built = true → o.closeOutcome.isSome = true) :
    o.Consistent aborted scope' := by
  refine ⟨?_, h.current, h.used⟩
  constructor <;> grind

end Opening

namespace ObservedCollection

/-- The steps that the code is prepared for. -/
def Calm (s : ObservedCollection) : ObservableEvent → Prop
  | .on index event => ∀ o ∈ s.openings[index]?, o.Calm s.aborted s.scope event
  | .disposeScope => ∀ o ∈ s.openings, o.phase ≠ .reading
  | .scopeSettles false => ∀ index ∈ s.scope.awaited, ∀ o ∈ s.openings[index]?,
      o.closeOutcome.isSome = true
  | _ => True

instance decidableCalm (s : ObservedCollection) : ∀ event, Decidable (s.Calm event)
  | .on index event =>
      inferInstanceAs (Decidable (∀ o ∈ s.openings[index]?, o.Calm s.aborted s.scope event))
  | .disposeScope => inferInstanceAs (Decidable (∀ o ∈ s.openings, o.phase ≠ .reading))
  | .scopeSettles false => inferInstanceAs (Decidable (∀ index ∈ s.scope.awaited,
      ∀ o ∈ s.openings[index]?, o.closeOutcome.isSome = true))
  | .scopeSettles true | .observe | .current _ | .subscribe _ | .dispose _ | .abort =>
      isTrue trivial

structure Kept (s : ObservedCollection) : Prop where
  openings : ∀ o ∈ s.openings, o.Consistent s.aborted s.scope
  pending : ∀ (observable index : ℕ), s.pendingSnapshots[observable]? = some (some index) →
    ∃ o, s.openings[index]? = some o ∧ o.subscriber = none
  distinct : ∀ (first second index : ℕ), s.pendingSnapshots[first]? = some (some index) →
    s.pendingSnapshots[second]? = some (some index) → first = second
  awaited : ∀ awaited, s.scope = .disposing awaited →
    ∀ (index : ℕ) (o : Opening), s.openings[index]? = some o →
      o.built = true → o.closeOutcome = none → index ∈ awaited

variable {s t : ObservedCollection}

theorem consistent_init {aborted : Bool} {scope : CollectionScope} :
    ({} : Opening).Consistent aborted scope := by
  refine ⟨?_, ?_, ?_⟩ <;> constructor <;> grind [Iteration.isLeaving, Iteration.inFlight,
    Iteration.error]

theorem kept_init : Kept {} where
  openings := fun _ ho => absurd ho List.not_mem_nil
  pending := fun _ _ hindex => by cases hindex
  distinct := fun _ _ _ hindex => by cases hindex
  awaited := fun _ hscope => by cases hscope

theorem Kept.observe (h : s.Kept) : s.observe.Kept where
  openings := h.openings
  pending := by
    intro observable index hindex
    refine h.pending observable index ?_
    grind [ObservedCollection.observe]
  distinct := by
    intro first second index hfirst hsecond
    refine h.distinct first second index ?_ ?_ <;> grind [ObservedCollection.observe]
  awaited := h.awaited

/-- A new opening, for a snapshot or for a subscriber. -/
theorem Kept.opens {o : Opening} {pending : List (Option ℕ)} (h : s.Kept)
    (hconsistent : o.Consistent s.aborted s.scope) (hbuilt : o.built = false)
    (hpending : pending = s.pendingSnapshots ∨ o.subscriber = none ∧
      ∃ observable, pending = s.pendingSnapshots.set observable (some s.openings.length)) :
    Kept { s with pendingSnapshots := pending, openings := s.openings ++ [o] } where
  openings := by
    intro u hu
    rcases List.mem_append.1 hu with hu | hu
    · exact h.openings u hu
    · obtain rfl := List.mem_singleton.1 hu
      exact hconsistent
  pending := by
    intro other index hindex
    dsimp only at hindex ⊢
    have hold : s.pendingSnapshots[other]? = some (some index) →
        ∃ u, (s.openings ++ [o])[index]? = some u ∧ u.subscriber = none := fun hother => by
      obtain ⟨u, hu, hnone⟩ := h.pending other index hother
      have hlt := (List.getElem?_eq_some_iff.1 hu).1
      exact ⟨u, (List.getElem?_append_left hlt).trans hu, hnone⟩
    rcases hpending with rfl | ⟨hnone, observable, rfl⟩
    · exact hold hindex
    · rw [List.getElem?_set] at hindex
      split_ifs at hindex with heq hlt
      · cases hindex
        exact ⟨o, by simp, hnone⟩
      · exact hold hindex
  distinct := by
    intro first second index hfirst hsecond
    dsimp only at hfirst hsecond
    have hlt : ∀ other, s.pendingSnapshots[other]? = some (some index) →
        index < s.openings.length := fun other hother => by
      obtain ⟨u, hu, -⟩ := h.pending other index hother
      exact (List.getElem?_eq_some_iff.1 hu).1
    rcases hpending with rfl | ⟨-, observable, rfl⟩
    · exact h.distinct first second index hfirst hsecond
    · have hold := h.distinct first second index
      grind
  awaited := by
    intro awaited hscope index u hu hbuilt' hnone
    dsimp only at hu
    rw [List.getElem?_append] at hu
    split_ifs at hu with hlt
    · exact h.awaited awaited hscope index u hu hbuilt' hnone
    · obtain rfl := List.mem_singleton.1 (List.mem_of_getElem? hu)
      rw [hbuilt] at hbuilt'
      cases hbuilt'

theorem Kept.current {observable : ℕ} (h : s.Kept) (hstep : s.current observable = some t) :
    t.Kept := by
  unfold ObservedCollection.current at hstep
  split at hstep
  · cases hstep
    exact h
  · cases hstep
    exact h.opens consistent_init rfl (.inr ⟨rfl, observable, rfl⟩)
  · cases hstep

theorem pending_of_set_none {pending : List (Option ℕ)} {observable other index : ℕ}
    (h : (pending.set observable none)[other]? = some (some index)) :
    observable ≠ other ∧ pending[other]? = some (some index) := by
  rw [List.getElem?_set] at h
  split_ifs at h with heq hlt
  · cases h
  · exact ⟨heq, h⟩

/-- The primed snapshot of an observable is handed over. -/
theorem Kept.handsOver {observable index : ℕ} {f : Opening → Opening} (h : s.Kept)
    (hpending : s.pendingSnapshots[observable]? = some (some index))
    (hconsistent : ∀ o, s.openings[index]? = some o → (f o).Consistent s.aborted s.scope)
    (hkept : ∀ o, (f o).built = o.built ∧ (f o).closeOutcome = o.closeOutcome) :
    Kept { s with
      pendingSnapshots := s.pendingSnapshots.set observable none
      openings := s.openings.modify index f } where
  openings := by
    intro u hu
    obtain ⟨other, hother⟩ := List.getElem?_of_mem hu
    dsimp only at hother
    rw [List.getElem?_modify] at hother
    obtain ⟨o, ho, rfl⟩ := Option.map_eq_some_iff.1 hother
    split_ifs with heq
    · exact hconsistent o (heq ▸ ho)
    · exact h.openings o (List.mem_of_getElem? ho)
  pending := by
    intro other otherIndex hother
    dsimp only at hother ⊢
    obtain ⟨hobservable, hindex⟩ := pending_of_set_none hother
    obtain ⟨o, ho, hnone⟩ := h.pending other otherIndex hindex
    refine ⟨o, ?_, hnone⟩
    have hne : index ≠ otherIndex := by
      rintro rfl
      exact hobservable (h.distinct observable other index hpending hindex)
    exact (List.getElem?_modify_ne f _ hne).trans ho
  distinct := by
    intro first second otherIndex hfirst hsecond
    exact h.distinct first second otherIndex (pending_of_set_none hfirst).2
      (pending_of_set_none hsecond).2
  awaited := by
    intro awaited hscope other u hu hbuilt hnone
    dsimp only at hu
    rw [List.getElem?_modify] at hu
    obtain ⟨o, ho, rfl⟩ := Option.map_eq_some_iff.1 hu
    refine h.awaited awaited hscope other o ho ?_ ?_
    · split_ifs at hbuilt with heq
      · rwa [(hkept o).1] at hbuilt
      · exact hbuilt
    · split_ifs at hnone with heq
      · rwa [(hkept o).2] at hnone
      · exact hnone

theorem Kept.subscribe {observable : ℕ} (h : s.Kept) (hstep : s.subscribe observable = some t) :
    t.Kept := by
  unfold ObservedCollection.subscribe at hstep
  split at hstep
  · rename_i index hpending
    cases hstep
    obtain ⟨o, ho, hnone⟩ := h.pending observable index hpending
    refine h.handsOver hpending (fun u hu => ?_) fun u => ⟨rfl, rfl⟩
    obtain rfl : o = u := Option.some.inj (ho.symm.trans hu)
    have hold := h.openings o (List.mem_of_getElem? ho)
    refine ⟨?_, ?_, ?_⟩ <;> constructor <;> grind [Opening.isOver, Opening.isUnsubscribed,
      Iteration.error]
  · cases hstep
    refine h.opens ?_ rfl (.inl rfl)
    refine ⟨?_, ?_, ?_⟩ <;> constructor <;> grind [Iteration.isLeaving, Iteration.inFlight,
      Iteration.error]
  · cases hstep

theorem Kept.dispose {observable : ℕ} (h : s.Kept) (hstep : s.dispose observable = some t) :
    t.Kept := by
  unfold ObservedCollection.dispose at hstep
  split at hstep
  · rename_i index hpending
    cases hstep
    refine h.handsOver hpending (fun u hu => ?_) fun u => ⟨rfl, rfl⟩
    have hold := h.openings u (List.mem_of_getElem? hu)
    refine ⟨?_, ?_, ?_⟩ <;> constructor <;> grind [Opening.isOver, Opening.isUnsubscribed]
  · cases hstep
    exact h
  · cases hstep

/-- Closing some of the observations changes who has a pending snapshot and who awaits no more. -/
theorem Kept.closes {p : Opening → Bool} {aborted : Bool} {scope : CollectionScope} (h : s.Kept)
    (hconsistent : ∀ o ∈ s.openings,
      (if p o then o.close else o).Consistent aborted scope)
    (hawaited : ∀ awaited, scope = .disposing awaited →
      ∀ (index : ℕ) (o : Opening), s.openings[index]? = some o →
        o.built = true → o.closeOutcome = none → index ∈ awaited) :
    Kept { s with
      aborted := aborted
      scope := scope
      openings := s.openings.map fun o => if p o then o.close else o } where
  openings := by
    intro u hu
    obtain ⟨o, ho, rfl⟩ := List.mem_map.1 hu
    exact hconsistent o ho
  pending := by
    intro observable index hindex
    obtain ⟨o, ho, hnone⟩ := h.pending observable index hindex
    refine ⟨if p o then o.close else o, ?_, ?_⟩
    · dsimp only
      rw [List.getElem?_map, ho]
      rfl
    · split_ifs
      · exact (congrArg Prod.fst o.close_kept.2.2.2.2.2).trans hnone
      · exact hnone
  distinct := h.distinct
  awaited := by
    intro awaited hscope index u hu hbuilt hnone
    dsimp only at hu
    rw [List.getElem?_map] at hu
    obtain ⟨o, ho, rfl⟩ := Option.map_eq_some_iff.1 hu
    refine hawaited awaited hscope index o ho ?_ ?_
    · split_ifs at hbuilt
      · exact o.close_kept.1.symm.trans hbuilt
      · exact hbuilt
    · split_ifs at hnone
      · exact o.close_kept.2.2.2.1.symm.trans hnone
      · exact hnone

theorem Kept.abort (h : s.Kept) : s.abort.Kept := by
  refine h.closes (p := Opening.built) (fun o ho => ?_) h.awaited
  split_ifs with hbuilt
  · exact ((h.openings o ho).close hbuilt).afterAbort fun _ => o.close_kept.2.1
  · exact (h.openings o ho).afterAbort fun hnot => absurd hnot hbuilt

theorem Kept.disposeScope (h : s.Kept) (hcalm : ∀ o ∈ s.openings, o.phase ≠ .reading)
    (hstep : s.disposeScope = some t) : t.Kept := by
  unfold ObservedCollection.disposeScope at hstep
  split at hstep
  · cases hstep
    refine h.closes (p := Opening.tracked) (fun o ho => ?_) ?_
    · have hold := h.openings o ho
      split_ifs with htracked
      · have hbuilt : o.built = true := by
          by_contra hnot
          obtain ⟨-, hnone, -⟩ := hold.owned.unbuilt (by simpa using hnot)
          rw [htracked] at hnone
          cases hnone
        refine (hold.close hbuilt).rescope ?_ (fun _ => o.close_kept.2.1) nofun
        rw [o.close_kept.2.2.1]
        exact hcalm o ho
      · refine hold.rescope (hcalm o ho) (fun hbuilt => ?_) nofun
        obtain ⟨-, -, hkept⟩ := hold.owned.built hbuilt
        rw [hkept] at htracked
        exact hold.owned.settled (by simpa [Option.isSome_iff_ne_none] using htracked)
    · intro awaited hscope index o ho hbuilt hnone
      cases hscope
      obtain ⟨-, -, htracked⟩ := (h.openings o (List.mem_of_getElem? ho)).owned.built hbuilt
      rw [List.mem_filter, ho]
      refine ⟨List.mem_range.2 (List.getElem?_eq_some_iff.1 ho).1, ?_⟩
      rw [Option.any_some, htracked, hnone]
      rfl
  · cases hstep

theorem Kept.scopeSettles {ok : Bool} (h : s.Kept) (hcalm : s.Calm (.scopeSettles ok))
    (hstep : s.scopeSettles ok = some t) : t.Kept := by
  unfold ObservedCollection.scopeSettles at hstep
  split at hstep
  · rename_i awaited hscope
    have hawaited : ∀ index ∈ awaited, ∀ o, s.openings[index]? = some o →
        o.closeOutcome.isSome = true := by
      cases ok with
      | true =>
          intro index hindex o ho
          simp only [if_true] at hstep
          split_ifs at hstep with hall
          have hclosed := List.all_eq_true.1 hall index hindex
          rw [ho] at hclosed
          grind
      | false =>
          intro index hindex o ho
          have hawaits : s.scope.awaited = awaited := by rw [hscope]; rfl
          exact hcalm index (hawaits ▸ hindex) o ho
    obtain rfl : t = { s with scope := .disposed ok } := by
      dsimp only at hstep
      split_ifs at hstep <;> exact (Option.some.inj hstep).symm
    refine ⟨fun o ho => ?_, h.pending, h.distinct, fun _ hnot => by cases hnot⟩
    have hold := h.openings o ho
    have hactive : s.scope.isActive = false := by rw [hscope]; rfl
    refine hold.rescope (fun hreading => ?_) (hold.owned.inactive hactive) fun _ hbuilt => ?_
    · have hnot := (hold.owned.reading hreading).2.2
      rw [hactive] at hnot
      cases hnot
    · obtain ⟨index, hindex⟩ := List.getElem?_of_mem ho
      by_contra hnone
      have hnone' : o.closeOutcome = none := by simpa using hnone
      exact hnone (hawaited index (h.awaited awaited hscope index o hindex hbuilt hnone') o hindex)
  · cases hstep

theorem Kept.on {index : ℕ} {event : OpeningEvent} (h : s.Kept) (hcalm : s.Calm (.on index event))
    (hstep : s.step (.on index event) = some t) : t.Kept := by
  obtain ⟨o, ho, hstep⟩ := Option.bind_eq_some_iff.1 hstep
  obtain ⟨u, hu, rfl⟩ := Option.map_eq_some_iff.1 hstep
  have hold := h.openings o (List.mem_of_getElem? ho)
  have hnew := hold.step (hcalm o ho) hu
  have hlt := (List.getElem?_eq_some_iff.1 ho).1
  refine ⟨fun v hv => ?_, fun observable other hpending => ?_, h.distinct,
    fun awaited hscope other v hv hbuilt hnone => ?_⟩
  · rcases List.mem_or_eq_of_mem_set hv with hv | rfl
    · exact h.openings v hv
    · exact hnew
  · obtain ⟨v, hv, hnone⟩ := h.pending observable other hpending
    by_cases heq : index = other
    · subst heq
      obtain rfl : o = v := Option.some.inj (ho.symm.trans hv)
      exact ⟨u, List.getElem?_set_self hlt, Opening.step_subscriber_none hnone hu⟩
    · exact ⟨v, (List.getElem?_set_ne heq).trans hv, hnone⟩
  · by_cases heq : index = other
    · subst heq
      dsimp only at hv
      rw [List.getElem?_set_self hlt] at hv
      cases hv
      have hscope' : s.scope = .disposing awaited := hscope
      have hreading : o.phase ≠ .reading := fun hreading => by
        have hactive := (hold.owned.reading hreading).2.2
        rw [hscope'] at hactive
        cases hactive
      obtain ⟨hbuilt', hnone'⟩ := Opening.step_unsettled hreading hu hbuilt hnone
      exact h.awaited awaited hscope' index o ho hbuilt' hnone'
    · dsimp only at hv
      rw [List.getElem?_set_ne heq] at hv
      exact h.awaited awaited hscope other v hv hbuilt hnone

theorem Kept.step {event : ObservableEvent} (h : s.Kept) (hcalm : s.Calm event)
    (hstep : s.step event = some t) : t.Kept := by
  cases event with
  | observe =>
      cases hstep
      exact h.observe
  | current observable => exact h.current hstep
  | subscribe observable => exact h.subscribe hstep
  | dispose observable => exact h.dispose hstep
  | abort =>
      cases hstep
      exact h.abort
  | disposeScope => exact h.disposeScope hcalm hstep
  | scopeSettles ok => exact h.scopeSettles hcalm hstep
  | on index event => exact h.on hcalm hstep

/-- In a run of steps that the code is prepared for, every observation ends in the latest state and
cleans up once. -/
theorem observations_end_clean {events : List ObservableEvent}
    (hcalm : machine.Within Calm machine.init events)
    (hrun : machine.exec machine.init events = some s) :
    ∀ o ∈ s.openings, o.EndsClean s.scope := by
  have hkept := machine.exec_preserves (fun _ _ _ h hcalm hstep => Kept.step h hcalm hstep)
    kept_init hcalm hrun
  exact fun o ho => (hkept.openings o ho).endsClean

/-! ### Runs -/

/-- A subscriber takes two snapshots and leaves while the iteration waits. -/
def unsubscribed : List ObservableEvent :=
  [.observe, .current 0, .on 0 (.hello true), .on 0 (.initialRead true), .subscribe 0,
    .on 0 .opened, .on 0 .consume, .on 0 .resume, .on 0 .change, .on 0 (.next .change),
    .on 0 .resume, .on 0 (.tryNext .none), .on 0 .resume, .on 0 (.read true), .on 0 .resume,
    .on 0 .consume, .on 0 .resume, .on 0 .unsubscribe, .on 0 (.next (.fails true)),
    .on 0 (.closeSettles true), .on 0 .resume, .on 0 .resume, .on 0 .finish]

theorem observations_end_clean_unsubscribed :
    ∃ s, machine.exec machine.init unsubscribed = some s ∧
      (∃ o ∈ s.openings, o.closes = 1 ∧ o.releases = 1 ∧ o.emittedFrom = 1) ∧
        ∀ o ∈ s.openings, o.EndsClean s.scope := by
  have hrun : machine.exec machine.init unsubscribed = some _ := rfl
  refine ⟨_, hrun, ⟨_, List.mem_singleton_self _, rfl, rfl, rfl⟩, ?_⟩
  exact observations_end_clean (by decide) hrun

/-- The signal is aborted while the initial snapshot is read. -/
def abortedRead : List ObservableEvent :=
  [.observe, .subscribe 0, .on 0 (.hello true), .abort, .on 0 (.initialRead true),
    .on 0 (.closeSettles true), .on 0 .abortThrown]

/-- The signal is aborted while the stream is drained. -/
def abortedDrain : List ObservableEvent :=
  [.observe, .subscribe 0, .on 0 (.hello true), .on 0 (.initialRead true), .on 0 .opened,
    .on 0 .consume, .on 0 .resume, .on 0 .change, .on 0 (.next .change), .on 0 .resume, .abort,
    .on 0 (.tryNext (.fails true)), .on 0 .resume, .on 0 (.closeSettles true), .on 0 .resume,
    .on 0 .finish]

/-- The scope is disposed while the initial snapshot is read. -/
def disposedRead : List ObservableEvent :=
  [.observe, .subscribe 0, .on 0 (.hello true), .disposeScope, .scopeSettles true]

/-- A stream is closed twice, the error of a closed stream is reported, and a scope ends before a
stream is closed. -/
theorem not_observations_end_clean :
    (∃ s, machine.exec machine.init abortedRead = some s ∧
      ¬ ∀ o ∈ s.openings, o.EndsClean s.scope) ∧
    (∃ s, machine.exec machine.init abortedDrain = some s ∧
      ¬ ∀ o ∈ s.openings, o.EndsClean s.scope) ∧
    ∃ s, machine.exec machine.init disposedRead = some s ∧
      ¬ ∀ o ∈ s.openings, o.EndsClean s.scope := by
  refine ⟨⟨_, rfl, fun h => ?_⟩, ⟨_, rfl, fun h => ?_⟩, ⟨_, rfl, fun h => ?_⟩⟩
  · have hclosed := (h _ (List.mem_singleton_self _)).once.1
    exact absurd hclosed (by decide)
  · have hsilent := (h _ (List.mem_singleton_self _)).silent _ rfl
    exact absurd (List.mem_singleton_self _) hsilent
  · have hended := (h _ (List.mem_singleton_self _)).ended (.inr (.inr rfl)) rfl
    exact absurd hended.1 (by decide)

end ObservedCollection

end Arc.MongoDB
