import Arc.Chronicle.ArtifactActivator
import Arc.Foundation.Ledger

/-!
# Activations settle

The lifetime of an activation is settled by the disposal of its scope or, when there is none, by
the failure to create it (`Activation.Sound`). What is left of an activation that has not
settled is with the client or with the scope; once every lease has been released only disposals
and reactions remain, and each of them uses up `work`.
-/

namespace Arc.Chronicle.ArtifactActivator

/-! ### One activation -/

namespace Activation

/-- The disposal of the scope has settled. -/
def cleaned (activation : Activation) : Bool :=
  activation.cleanup.any fun cleanup => cleanup ≠ .pending

/-- What holds of an activation at every moment. -/
structure Sound (activation : Activation) : Prop where
  refused : activation.stage = .refused ↔ activation.hasScope = false
  disposals : activation.disposals = if activation.cleanup.isSome then 1 else 0
  settles : activation.settles =
    if activation.hasScope && !activation.cleaned then 0 else 1
  kept : activation.stage = .refused → activation.cleanup = none
  failed : activation.stage = .failed → activation.cleanup ≠ none

/-- Nothing is left to do for the client: the construction is over, and a lease has been
completed or disposed. -/
def Released (activation : Activation) : Prop :=
  activation.stage ≠ .constructing ∧ (activation.stage = .leased → activation.cleanup ≠ none)

instance (activation : Activation) : Decidable activation.Released :=
  inferInstanceAs (Decidable (activation.stage ≠ .constructing ∧
    (activation.stage = .leased → activation.cleanup ≠ none)))

variable {activation activation' : Activation}

theorem cleaned_iff : activation.cleaned = true ↔
    ∃ rejected, activation.cleanup = some (.settled rejected) := by
  unfold cleaned
  cases hcleanup : activation.cleanup with
  | none => simp
  | some cleanup =>
      cases cleanup with
      | pending => simp
      | settled rejected => simp

theorem Sound.settles_le_one (h : activation.Sound) : activation.settles ≤ 1 := by
  rw [h.settles]
  split_ifs <;> omega

theorem Sound.disposals_le_one (h : activation.Sound) : activation.disposals ≤ 1 := by
  rw [h.disposals]
  split_ifs <;> omega

/-- A lifetime with a scope settles after the only disposal of that scope has. -/
theorem Sound.disposed_of_settled (h : activation.Sound) (hsettled : activation.settles = 1)
    (hscope : activation.hasScope = true) :
    activation.disposals = 1 ∧ ∃ rejected, activation.cleanup = some (.settled rejected) := by
  have hcleaned : activation.cleaned = true := by
    by_contra hnot
    rw [h.settles, hscope, Bool.not_eq_true _ |>.mp hnot] at hsettled
    cases hsettled
  obtain ⟨rejected, hcleanup⟩ := cleaned_iff.1 hcleaned
  refine ⟨?_, rejected, hcleanup⟩
  rw [h.disposals, hcleanup]
  rfl

/-- Who an activation that has not settled waits for. -/
theorem Sound.outstanding (h : activation.Sound) (hsettled : activation.settles ≠ 1) :
    activation.stage = .constructing ∨ (activation.stage = .leased ∧ activation.cleanup = none) ∨
      activation.cleanup = some .pending := by
  have hscope : activation.hasScope = true ∧ activation.cleaned = false := by
    by_contra hnot
    apply hsettled
    rw [h.settles, if_neg]
    simpa using hnot
  cases hcleanup : activation.cleanup with
  | some cleanup =>
      cases cleanup with
      | pending => exact .inr (.inr rfl)
      | settled rejected =>
          have hcleaned := cleaned_iff.2 ⟨rejected, hcleanup⟩
          rw [hscope.2] at hcleaned
          cases hcleaned
  | none =>
      cases hstage : activation.stage with
      | refused =>
          have hnone := h.refused.1 hstage
          rw [hscope.1] at hnone
          cases hnone
      | constructing => exact .inl rfl
      | failed => exact absurd hcleanup (h.failed hstage)
      | leased => exact .inr (.inl ⟨rfl, rfl⟩)

theorem Sound.settled_of_released (h : activation.Sound) (hreleased : activation.Released)
    (hpending : activation.cleanup ≠ some .pending) : activation.settles = 1 := by
  by_contra hsettled
  rcases h.outstanding hsettled with hstage | ⟨hstage, hnone⟩ | hcleanup
  · exact hreleased.1 hstage
  · exact hreleased.2 hstage hnone
  · exact hpending hcleanup

/-! #### The steps -/

theorem Sound.hasScope (h : activation.Sound) (hstage : activation.stage ≠ .refused) :
    activation.hasScope = true := by
  rw [← Bool.not_eq_false]
  exact fun hnone => hstage (h.refused.2 hnone)

/-- A release, whatever the construction has come to. -/
theorem Sound.release (h : activation.Sound) (hstage : activation.stage ≠ .refused)
    {stage : Stage} (hnext : stage ≠ .refused) (completed : Bool) :
    { activation with stage := stage, completed := completed }.release.Sound ∧
      { activation with stage := stage, completed := completed }.release.settles =
        activation.settles ∧
      { activation with stage := stage, completed := completed }.release.cleanup ≠ none := by
  have hscope := h.hasScope hstage
  have hrefused : stage = .refused ↔ activation.hasScope = false := by simp [hnext, hscope]
  unfold Activation.release
  split_ifs with hcleanup
  · have hsome : activation.cleanup ≠ none := Option.isSome_iff_ne_none.1 hcleanup
    exact ⟨⟨hrefused, h.disposals, h.settles, fun hnot => absurd hnot hnext, fun _ => hsome⟩, rfl,
      hsome⟩
  · have hnone : activation.cleanup = none := by simpa using hcleanup
    refine ⟨⟨hrefused, ?_, ?_, fun hnot => absurd hnot hnext, fun _ hnot => by cases hnot⟩, rfl,
      fun hnot => by cases hnot⟩
    · simp [h.disposals, hnone]
    · simp [h.settles, cleaned, hnone, hscope]

/-- What a step of an activation keeps. -/
structure Moves (activation activation' : Activation) : Prop where
  sound : activation'.Sound
  settles : activation.settles ≤ activation'.settles

theorem Sound.constructed (h : activation.Sound)
    (hstep : activation.constructed = some activation') : Moves activation activation' := by
  unfold Activation.constructed at hstep
  split_ifs at hstep with hstage
  cases hstep
  have hscope := h.hasScope (by simp [hstage])
  exact ⟨⟨by simp [hscope], h.disposals, h.settles, fun hrefused => (by cases hrefused),
    fun hfailed => (by cases hfailed)⟩, Nat.le_refl _⟩

theorem Sound.constructionFails (h : activation.Sound)
    (hstep : activation.constructionFails = some activation') : Moves activation activation' := by
  unfold Activation.constructionFails at hstep
  split_ifs at hstep with hstage
  cases hstep
  have hfailed : Stage.failed ≠ .refused := by decide
  obtain ⟨hsound, hsettles, -⟩ := h.release (by simp [hstage]) hfailed activation.completed
  exact ⟨hsound, Nat.le_of_eq hsettles.symm⟩

theorem Sound.complete (h : activation.Sound)
    (hstep : activation.complete = some activation') : Moves activation activation' := by
  unfold Activation.complete at hstep
  split_ifs at hstep with hstage
  cases hstep
  have hleased : activation.stage ≠ .refused := by simp [hstage]
  obtain ⟨hsound, hsettles, -⟩ := h.release hleased hleased true
  exact ⟨hsound, Nat.le_of_eq hsettles.symm⟩

theorem Sound.dispose (h : activation.Sound)
    (hstep : activation.dispose = some activation') : Moves activation activation' := by
  unfold Activation.dispose at hstep
  split_ifs at hstep with hstage hcompleted
  · cases hstep
    exact ⟨h, Nat.le_refl _⟩
  · cases hstep
    have hleased : activation.stage ≠ .refused := by simp [hstage]
    obtain ⟨hsound, hsettles, -⟩ := h.release hleased hleased activation.completed
    exact ⟨hsound, Nat.le_of_eq hsettles.symm⟩

theorem Sound.disposed {rejected : Bool} (h : activation.Sound)
    (hstep : activation.disposed rejected = some activation') :
    Moves activation activation' ∧ (activation.Released → activation'.Released) := by
  unfold Activation.disposed at hstep
  split_ifs at hstep with hcleanup
  cases hstep
  have hstage : activation.stage ≠ .refused := fun hrefused => by
    rw [h.kept hrefused] at hcleanup
    cases hcleanup
  have hsettles : activation.settles = 0 := by
    simp [h.settles, h.hasScope hstage, cleaned, hcleanup]
  refine ⟨⟨⟨h.refused, ?_, ?_, fun hrefused => absurd hrefused hstage, fun _ hnot => by cases hnot⟩,
    Nat.le_succ _⟩, fun hreleased => ⟨hreleased.1, fun _ hnot => by cases hnot⟩⟩
  · simp [h.disposals, hcleanup]
  · simp [hsettles, cleaned]

end Activation

/-! ### The activator -/

variable {expectedEventStore : String} {activator activator' : Activator} {event : ActivatorEvent}

/-- Every lifetime that has not settled is one `drain` waits for. -/
structure Activator.Sound (activator : Activator) : Prop where
  activations : ∀ activation ∈ activator.activations, activation.Sound
  active_lt : ∀ id ∈ activator.active, id < activator.activations.length
  settled : ∀ id activation, activator.activations[id]? = some activation →
    id ∉ activator.active → activation.settles = 1

/-- Every construction is over, and every lease handed out has been completed or disposed. -/
def Activator.Released (activator : Activator) : Prop :=
  ∀ activation ∈ activator.activations, activation.Released

instance (activator : Activator) : Decidable activator.Released :=
  inferInstanceAs (Decidable (∀ activation ∈ activator.activations, activation.Released))

theorem sound_init : ({} : Activator).Sound where
  activations _ h := absurd h List.not_mem_nil
  active_lt _ h := absurd h List.not_mem_nil
  settled id activation h := by simp at h

theorem participate_eq (activator : Activator) (attempt : Attempt) :
    (participate activator attempt).activations = activator.activations ∧
      (participate activator attempt).active = activator.active ∧
      (participate activator attempt).stopped = activator.stopped := by
  unfold participate
  split
  · split_ifs
    · exact ⟨rfl, rfl, rfl⟩
    · exact ⟨rfl, rfl, rfl⟩
  · exact ⟨rfl, rfl, rfl⟩

theorem Activator.Sound.participate (h : activator.Sound) (attempt : Attempt) :
    (participate activator attempt).Sound := by
  obtain ⟨hactivations, hactive, -⟩ := participate_eq activator attempt
  refine ⟨?_, ?_, ?_⟩
  · rw [hactivations]
    exact h.activations
  · rw [hactivations, hactive]
    exact h.active_lt
  · rw [hactivations, hactive]
    exact h.settled

theorem Activator.Sound.activate (h : activator.Sound) (attempt : Attempt) :
    (activate expectedEventStore activator attempt).Sound := by
  unfold ArtifactActivator.activate
  split
  · exact h.participate attempt
  · refine ⟨fun activation hmem => ?_, fun id hmem => ?_, fun id activation hget hmem => ?_⟩
    · rcases List.mem_append.1 hmem with hmem | hmem
      · exact h.activations activation hmem
      · rw [List.mem_singleton.1 hmem]
        split_ifs
        · exact ⟨by simp, rfl, rfl, fun hnot => (by cases hnot), fun hnot => (by cases hnot)⟩
        · exact ⟨by simp, rfl, rfl, fun _ => rfl, fun hnot => (by cases hnot)⟩
    · rw [List.length_append, List.length_singleton]
      rcases List.mem_append.1 hmem with hmem | hmem
      · exact Nat.lt_succ_of_lt (h.active_lt id hmem)
      · rw [List.mem_singleton.1 hmem]
        exact Nat.lt_succ_self _
    · rw [List.mem_append, not_or, List.mem_singleton] at hmem
      rcases Nat.lt_or_ge id activator.activations.length with hlt | hge
      · rw [List.getElem?_append_left hlt] at hget
        exact h.settled id activation hget hmem.1
      · have hlong := (List.getElem?_eq_some_iff.1 hget).1
        rw [List.length_append, List.length_singleton] at hlong
        omega

theorem update_eq_some {id : ℕ} {step : Activation → Option Activation}
    (hupdate : update activator id step = some activator') :
    ∃ activation activation', activator.activations[id]? = some activation ∧
      step activation = some activation' ∧
      activator' = { activator with activations := activator.activations.set id activation' } := by
  obtain ⟨activation, hget, hstep⟩ := Option.bind_eq_some_iff.1 hupdate
  obtain ⟨activation', hmoved, rfl⟩ := Option.map_eq_some_iff.1 hstep
  exact ⟨activation, activation', hget, hmoved, rfl⟩

theorem Activator.Sound.update (h : activator.Sound) {id : ℕ}
    {step : Activation → Option Activation}
    (hstep : ∀ activation activation', activation.Sound → step activation = some activation' →
      Activation.Moves activation activation')
    (hupdate : update activator id step = some activator') : activator'.Sound := by
  obtain ⟨activation, activation', hget, hmoved, rfl⟩ := update_eq_some hupdate
  have hmoves := hstep _ _ (h.activations _ (List.mem_of_getElem? hget)) hmoved
  refine ⟨fun other hmem => ?_, fun other hmem => ?_, fun other activation'' hother hmem => ?_⟩
  · rcases List.mem_or_eq_of_mem_set hmem with hmem | rfl
    · exact h.activations other hmem
    · exact hmoves.sound
  · rw [List.length_set]
    exact h.active_lt other hmem
  · by_cases heq : id = other
    · subst heq
      rw [List.getElem?_set_self (List.getElem?_eq_some_iff.1 hget).1] at hother
      cases hother
      have hone := h.settled id activation hget hmem
      have hle := hmoves.sound.settles_le_one
      have hge := hmoves.settles
      omega
    · rw [List.getElem?_set_ne heq] at hother
      exact h.settled other activation'' hother hmem

theorem Activator.Sound.forget (h : activator.Sound) {id : ℕ}
    (hstep : forget activator id = some activator') : activator'.Sound := by
  unfold ArtifactActivator.forget at hstep
  split_ifs at hstep with hcondition
  cases hstep
  obtain ⟨hmem, hsettled⟩ := hcondition
  refine ⟨h.activations, fun other hother => h.active_lt other (List.mem_filter.1 hother).1,
    fun other activation hget hother => ?_⟩
  by_cases heq : other = id
  · subst heq
    rw [hget, Option.any_some, decide_eq_true_eq] at hsettled
    have hle := (h.activations _ (List.mem_of_getElem? hget)).settles_le_one
    omega
  · exact h.settled other activation hget fun hactive =>
      hother (List.mem_filter.2 ⟨hactive, by simpa using heq⟩)

theorem step_sound (h : activator.Sound)
    (hstep : step expectedEventStore activator event = some activator') : activator'.Sound := by
  cases event with
  | activate attempt =>
      cases hstep
      exact h.activate attempt
  | constructed id => exact h.update (fun _ _ => Activation.Sound.constructed) hstep
  | constructionFails id => exact h.update (fun _ _ => Activation.Sound.constructionFails) hstep
  | complete id => exact h.update (fun _ _ => Activation.Sound.complete) hstep
  | dispose id => exact h.update (fun _ _ => Activation.Sound.dispose) hstep
  | disposed id rejected =>
      exact h.update (fun _ _ hsound hmoved => (hsound.disposed hmoved).1) hstep
  | forget id => exact h.forget hstep
  | stop =>
      cases hstep
      exact ⟨h.activations, h.active_lt, h.settled⟩
  | drain =>
      cases hstep
      exact ⟨h.activations, h.active_lt, h.settled⟩
  | drainWakes index =>
      change drainWakes activator index = some activator' at hstep
      unfold drainWakes at hstep
      split_ifs at hstep
      cases hstep
      exact ⟨h.activations, h.active_lt, h.settled⟩

/-! ### Shutdown -/

/-- What goes on without the client: disposals, the reactions of lifetimes, and drains. -/
def Internal : ActivatorEvent → Prop
  | .disposed _ _ | .forget _ | .drainWakes _ => True
  | _ => False

def Activator.pending (activator : Activator) : ℕ :=
  activator.activations.countP fun activation => activation.cleanup = some .pending

/-- The drains that can test again. -/
def Activator.ready (activator : Activator) : ℕ :=
  activator.drains.countP (Drain.ready activator.active)

/-- The internal steps that are left: a lifetime that goes may let every drain test again. -/
def Activator.work (activator : Activator) : ℕ :=
  (activator.pending + activator.active.length) * (activator.drains.length + 1) + activator.ready

theorem ready_drainAgain (activator : Activator) :
    (drainAgain activator).ready activator.active = false := by
  unfold drainAgain
  split_ifs with hempty
  · rfl
  · obtain ⟨id, hid⟩ := List.exists_mem_of_ne_nil _ (by simpa using hempty)
    rw [Drain.ready, List.all_eq_false]
    exact ⟨id, hid, by simpa using hid⟩

theorem work_lt (h : Internal event)
    (hstep : step expectedEventStore activator event = some activator') :
    activator'.work < activator.work := by
  cases event with
  | disposed id rejected =>
      obtain ⟨activation, activation', hget, hmoved, rfl⟩ := update_eq_some hstep
      unfold Activation.disposed at hmoved
      split_ifs at hmoved with hcleanup
      cases hmoved
      have hpending := Ledger.countP_set
        (fun activation : Activation => decide (activation.cleanup = some .pending))
        { activation with
          cleanup := some (.settled rejected), settles := activation.settles + 1 } hget
      simp only [hcleanup, decide_true, if_true, Option.some_inj, reduceCtorEq, decide_false,
        Bool.false_eq_true, if_false] at hpending
      refine Nat.add_lt_add_right (Nat.mul_lt_mul_of_pos_right ?_ (Nat.succ_pos _)) _
      unfold Activator.pending
      dsimp only
      omega
  | forget id =>
      change forget activator id = some activator' at hstep
      unfold forget at hstep
      split_ifs at hstep with hcondition
      cases hstep
      have hlength : (activator.active.filter (· ≠ id)).length + 1 ≤ activator.active.length :=
        List.length_filter_lt_length_iff_exists.2 ⟨id, hcondition.1, by simp⟩
      have hready : activator.drains.countP (Drain.ready (activator.active.filter (· ≠ id))) ≤
          activator.drains.length := List.countP_le_length
      have hmul := Nat.mul_le_mul_right (activator.drains.length + 1)
        (Nat.add_le_add_left hlength activator.pending)
      rw [← Nat.add_assoc, Nat.add_mul, Nat.one_mul] at hmul
      change (activator.pending + (activator.active.filter (· ≠ id)).length) *
          (activator.drains.length + 1) +
        activator.drains.countP (Drain.ready (activator.active.filter (· ≠ id))) < activator.work
      unfold Activator.work
      omega
  | drainWakes index =>
      change drainWakes activator index = some activator' at hstep
      unfold drainWakes at hstep
      split_ifs at hstep with hready
      cases hstep
      obtain ⟨drain, hget, hdrain⟩ := Option.any_eq_true _ _ |>.mp hready
      have hcount := Ledger.countP_set (Drain.ready activator.active) (drainAgain activator) hget
      rw [hdrain, ready_drainAgain, if_pos rfl, if_neg (by decide)] at hcount
      unfold Activator.work Activator.ready Activator.pending
      dsimp only
      rw [List.length_set]
      omega
  | activate _ => exact h.elim
  | constructed _ => exact h.elim
  | constructionFails _ => exact h.elim
  | complete _ => exact h.elim
  | dispose _ => exact h.elim
  | stop => exact h.elim
  | drain => exact h.elim

/-- Internal steps hand out no lease. -/
theorem released_step (hsound : activator.Sound) (hreleased : activator.Released)
    (h : Internal event) (hstep : step expectedEventStore activator event = some activator') :
    activator'.Released := by
  cases event with
  | disposed id rejected =>
      obtain ⟨activation, activation', hget, hmoved, rfl⟩ := update_eq_some hstep
      have hmem := List.mem_of_getElem? hget
      have hkept := ((hsound.activations _ hmem).disposed hmoved).2 (hreleased _ hmem)
      intro other hother
      rcases List.mem_or_eq_of_mem_set hother with hother | rfl
      · exact hreleased other hother
      · exact hkept
  | forget id =>
      change forget activator id = some activator' at hstep
      unfold forget at hstep
      split_ifs at hstep
      cases hstep
      exact hreleased
  | drainWakes index =>
      change drainWakes activator index = some activator' at hstep
      unfold drainWakes at hstep
      split_ifs at hstep
      cases hstep
      exact hreleased
  | activate _ => exact h.elim
  | constructed _ => exact h.elim
  | constructionFails _ => exact h.elim
  | complete _ => exact h.elim
  | dispose _ => exact h.elim
  | stop => exact h.elim
  | drain => exact h.elim

/-- With every lease released, nothing is left when no internal step is. -/
theorem finished_of_quiescent (hsound : activator.Sound) (hreleased : activator.Released)
    (hquiescent : ∀ event, Internal event → step expectedEventStore activator event = none) :
    (∀ activation ∈ activator.activations, activation.settles = 1) ∧
      activator.active = [] ∧ ∀ drain ∈ activator.drains, drain = .finished := by
  have hsettles : ∀ activation ∈ activator.activations, activation.settles = 1 := by
    intro activation hmem
    refine (hsound.activations _ hmem).settled_of_released (hreleased _ hmem) fun hpending => ?_
    obtain ⟨id, hget⟩ := List.getElem?_of_mem hmem
    have hnone := hquiescent (.disposed id false) trivial
    change update activator id (Activation.disposed false) = none at hnone
    rw [update, hget, Option.bind_some, Activation.disposed, if_pos hpending] at hnone
    cases hnone
  have hactive : activator.active = [] := by
    by_contra hne
    obtain ⟨id, hid⟩ := List.exists_mem_of_ne_nil _ hne
    have hnone := hquiescent (.forget id) trivial
    change forget activator id = none at hnone
    have hget := List.getElem?_eq_getElem (hsound.active_lt id hid)
    have hone := hsettles _ (List.getElem_mem (hsound.active_lt id hid))
    rw [forget, if_pos ⟨hid, by rw [hget]; simp [hone]⟩] at hnone
    cases hnone
  refine ⟨hsettles, hactive, fun drain hmem => ?_⟩
  cases drain with
  | finished => rfl
  | waiting lifetimes =>
      obtain ⟨index, hget⟩ := List.getElem?_of_mem hmem
      have hnone := hquiescent (.drainWakes index) trivial
      change drainWakes activator index = none at hnone
      rw [drainWakes, if_pos (by rw [hget]; simp [Drain.ready, hactive])] at hnone
      cases hnone

/-! ### The claims of an activator -/

/-- A stopped activator admits nothing. -/
theorem stopped_step (hstopped : activator.stopped = true)
    (hstep : step expectedEventStore activator event = some activator') :
    activator'.stopped = true ∧ activator'.activations.length = activator.activations.length := by
  have hupdate : ∀ id step, update activator id step = some activator' →
      activator'.stopped = true ∧
        activator'.activations.length = activator.activations.length := by
    intro id step hupdate
    obtain ⟨activation, activation', -, -, rfl⟩ := update_eq_some hupdate
    exact ⟨hstopped, List.length_set⟩
  cases event with
  | activate attempt =>
      cases hstep
      have hrefused : ∃ error, admission expectedEventStore activator attempt = .error error := by
        simp [admission, hstopped]
      obtain ⟨error, hrefused⟩ := hrefused
      obtain ⟨hactivations, -, hkept⟩ := participate_eq activator attempt
      unfold activate
      rw [hrefused]
      exact ⟨hkept.trans hstopped, by rw [hactivations]⟩
  | constructed id => exact hupdate _ _ hstep
  | constructionFails id => exact hupdate _ _ hstep
  | complete id => exact hupdate _ _ hstep
  | dispose id => exact hupdate _ _ hstep
  | disposed id rejected => exact hupdate _ _ hstep
  | forget id =>
      change forget activator id = some activator' at hstep
      unfold forget at hstep
      split_ifs at hstep
      cases hstep
      exact ⟨hstopped, rfl⟩
  | stop =>
      cases hstep
      exact ⟨rfl, rfl⟩
  | drain =>
      cases hstep
      exact ⟨hstopped, rfl⟩
  | drainWakes index =>
      change drainWakes activator index = some activator' at hstep
      unfold drainWakes at hstep
      split_ifs at hstep
      cases hstep
      exact ⟨hstopped, rfl⟩

theorem stopped_run {events : List ActivatorEvent} (hstopped : activator.stopped = true)
    (hrun : (machine expectedEventStore).exec activator events = some activator') :
    activator'.activations.length = activator.activations.length := by
  refine ((machine expectedEventStore).exec_preserves (C := fun _ _ => True)
    (P := fun later => later.stopped = true ∧
      later.activations.length = activator.activations.length) ?_ ⟨hstopped, rfl⟩
    ((machine expectedEventStore).within_true _ _) hrun).2
  rintro later event next ⟨hstopped, hlength⟩ - hstep
  obtain ⟨hstopped', hlength'⟩ := stopped_step hstopped hstep
  exact ⟨hstopped', hlength'.trans hlength⟩

/-- A delivery of the store "orders". -/
def ordersDelivery : Attempt where
  services := .ok 0
  participates := true
  kind := "reactor"
  artifactId := "shipping"
  store := "orders"
  readModelsBelong := true
  createsScope := true

/-- The lease is completed and disposed while the activator drains; the disposal fails. -/
def completedLease : List ActivatorEvent :=
  [.activate ordersDelivery, .constructed 0, .stop, .drain, .complete 0, .dispose 0]

end Arc.Chronicle.ArtifactActivator
