import Arc.Chronicle.CommandTree
import Arc.Chronicle.CommitDisposition

/-!
# One append for a root command

However the commands of a tree interleave, their unit issues at most one batch, which is what the
accepted calls of `stage` have collected, in their order. It is issued when the root command
succeeds and nothing speaks against it; but the unit knows of a failed nested command only when
the command has been executed (`one_append`).
-/

namespace Arc.Chronicle

open Arc.Commands

variable {α σ κ ρ ε : Type*}

/-! ### The unit -/

section Unit

variable {unit : ChronicleUnitOfWork ε σ κ}

/-- Two units that hold the same batch. -/
structure ChronicleUnitOfWork.SameBatch (unit other : ChronicleUnitOfWork ε σ κ) : Prop where
  entries : unit.entries = other.entries
  completed : unit.completed = other.completed
  nestedFailure : unit.nestedFailure = other.nestedFailure

/-- A call of `stage` adds the entries or throws. -/
theorem stage_cases [DecidableEq σ] [DecidableEq κ] {store : σ} {context : CommandContext}
    {entries : List ε} {scopes : List (String × κ)} {next : ChronicleUnitOfWork ε σ κ}
    {thrown : Option (Thrown ValidationResult)}
    (h : unit.stage store context entries scopes = (next, thrown)) :
    (∃ error, thrown = some error ∧ next.SameBatch unit) ∨
      (thrown = none ∧ unit.completed = false ∧ next.entries = unit.entries ++ entries ∧
        next.completed = false ∧ next.nestedFailure = unit.nestedFailure) := by
  unfold ChronicleUnitOfWork.stage at h
  split_ifs at h with hcompleted hcontext hstore
  · cases h
    exact .inl ⟨_, rfl, rfl, rfl, rfl⟩
  · cases h
    exact .inl ⟨_, rfl, rfl, rfl, rfl⟩
  · cases h
    exact .inl ⟨_, rfl, rfl, rfl, rfl⟩
  · dsimp only at h
    split at h
    · cases h
      exact .inl ⟨_, rfl, rfl, rfl, rfl⟩
    · cases h
      exact .inr ⟨rfl, by simpa using hcompleted, rfl, by simpa using hcompleted, rfl⟩

theorem stage_of_completed [DecidableEq σ] [DecidableEq κ] (h : unit.completed = true) (store : σ)
    (context : CommandContext) (entries : List ε) (scopes : List (String × κ)) :
    ∃ error, unit.stage store context entries scopes = (unit, some error) := by
  rw [ChronicleUnitOfWork.stage, if_pos h]
  exact ⟨_, rfl⟩

variable {result : CommandResult ρ ValidationResult} {timeout : Option CompletionTimeout}
  {calls : CommitCalls}

theorem commit_of_completed (h : unit.completed = true) :
    (unit.commit result timeout calls).issued = none ∧
      ∃ error, (unit.commit result timeout calls).answer = .error error := by
  rw [ChronicleUnitOfWork.commit, if_pos h]
  exact ⟨rfl, _, rfl⟩

theorem caught_sameBatch (unit : ChronicleUnitOfWork ε σ κ)
    (result : CommandResult ρ ValidationResult) (error : Thrown ValidationResult) (issued : Option (List ε)) :
    (ChronicleUnitOfWork.caught unit result error issued).unit.entries = unit.entries ∧
      (ChronicleUnitOfWork.caught unit result error issued).unit.nestedFailure =
        unit.nestedFailure ∧
      (unit.completed = true →
        (ChronicleUnitOfWork.caught unit result error issued).unit.completed = true) := by
  dsimp only [ChronicleUnitOfWork.caught]
  split_ifs
  · exact ⟨rfl, rfl, fun _ => rfl⟩
  · exact ⟨rfl, rfl, id⟩

theorem settle_unit : (unit.settle result timeout calls).unit.entries = unit.entries ∧
    (unit.settle result timeout calls).unit.nestedFailure = unit.nestedFailure ∧
    (unit.settle result timeout calls).unit.completed = true := by
  have hcaught : ∀ disposition error issued,
      (ChronicleUnitOfWork.caught (unit.close disposition) result error issued).unit.entries =
          unit.entries ∧
        (ChronicleUnitOfWork.caught (unit.close disposition) result error issued).unit.nestedFailure
          = unit.nestedFailure ∧
        (ChronicleUnitOfWork.caught (unit.close disposition) result error issued).unit.completed =
          true := by
    intro disposition error issued
    obtain ⟨hentries, hnested, hcompleted⟩ :=
      caught_sameBatch (unit.close disposition) result error issued
    exact ⟨hentries, hnested, hcompleted rfl⟩
  unfold ChronicleUnitOfWork.settle
  cases calls.append with
  | throws error => exact hcaught _ _ _
  | unreadable error => exact hcaught _ _ _
  | returns results =>
      simp only
      rcases checkResults results unit.entries.length with error | _ | issues | reason
      · exact hcaught _ _ _
      · simp only
        cases waitForProjectionCompletion results timeout calls.waiting with
        | none => exact ⟨rfl, rfl, rfl⟩
        | some error => exact hcaught _ _ _
      · exact ⟨rfl, rfl, rfl⟩
      · exact hcaught _ _ _

/-- What `commit` leaves is completed and holds the same events. -/
theorem commit_unit (unit : ChronicleUnitOfWork ε σ κ) (result : CommandResult ρ ValidationResult)
    (timeout : Option CompletionTimeout) (calls : CommitCalls) :
    (unit.commit result timeout calls).unit.entries = unit.entries ∧
    (unit.commit result timeout calls).unit.nestedFailure = unit.nestedFailure ∧
    (unit.commit result timeout calls).unit.completed = true := by
  unfold ChronicleUnitOfWork.commit
  split_ifs with hcompleted hfailed hnested hempty haborted
  · exact ⟨rfl, rfl, hcompleted⟩
  · exact ⟨rfl, rfl, rfl⟩
  · exact ⟨rfl, rfl, rfl⟩
  · exact ⟨rfl, rfl, rfl⟩
  · obtain ⟨hentries, hnested, hclosed⟩ := caught_sameBatch
      (unit.close unit.disposition) result calls.reason none
    exact ⟨hentries, hnested, hclosed rfl⟩
  · exact settle_unit

/-- The batch an open unit issues. -/
theorem commit_issued_eq (h : unit.completed = false) :
    (unit.commit result timeout calls).issued.toList =
      if result.isSuccess = true ∧ calls.aborted = false ∧ unit.nestedFailure = false ∧
        unit.entries ≠ [] then [unit.entries] else [] := by
  split_ifs with hissues
  · obtain ⟨hsuccess, haborted, hnested, hstaged⟩ := hissues
    rw [commit_of_issuing h hsuccess hnested hstaged haborted, settle_issued]
    rfl
  · cases hissued : (unit.commit result timeout calls).issued with
    | none => rfl
    | some batch =>
        obtain ⟨-, hsuccess, hnested, hstaged, haborted⟩ := commit_issued hissued
        exact absurd ⟨hsuccess, haborted, hnested, hstaged⟩ hissues

end Unit

/-! ### What the tree collects -/

namespace CommandTree

variable [DecidableEq σ] [DecidableEq κ]

/-- The entries of the accepted calls of `stage`, in their order. -/
def collected (tree : CommandTree α σ κ ρ) : List (EventForEventSourceId α) :=
  tree.stagings.flatMap Prod.snd

/-- The root command has committed its unit with these calls. -/
def Commits (tree : CommandTree α σ κ ρ) (result : CommandResult ρ ValidationResult)
    (calls : CommitCalls) : Prop :=
  ∃ answer, tree.completion = .committed result calls answer

/-- At most one batch is issued. It is issued exactly when the root command succeeds, is not
canceled, no nested command has failed and something was staged; it is what was collected; and
from a completed unit no run stages or issues anything. -/
structure OneAppend (context : CommandContext) (timeout : Option CompletionTimeout)
    (tree : CommandTree α σ κ ρ) : Prop where
  issued_length : tree.issued.length ≤ 1
  issued_iff : tree.issued ≠ [] ↔ ∃ result calls, tree.Commits result calls ∧
    result.isSuccess = true ∧ calls.aborted = false ∧ tree.nestedFailed = false ∧
    tree.collected ≠ []
  issued_eq : ∀ batch ∈ tree.issued, batch = tree.collected
  stage_closed : tree.unit.completed = true → ∀ store context entries scopes, ∃ error,
    tree.unit.stage store context entries scopes = (tree.unit, some error)
  commit_closed : tree.unit.completed = true →
    ∀ (result : CommandResult ρ ValidationResult) timeout calls,
      (tree.unit.commit result timeout calls).issued = none ∧
        ∃ error, (tree.unit.commit result timeout calls).answer = .error error
  closed : tree.unit.completed = true → ∀ events next,
    (machine context timeout).exec tree events = some next →
      next.stagings = tree.stagings ∧ next.issued = tree.issued

/-- What is kept along every run. -/
structure Collected (tree : CommandTree α σ κ ρ) : Prop where
  entries : tree.unit.entries = tree.collected
  opened : (∀ result calls, ¬ tree.Commits result calls) →
    tree.unit.completed = false ∧ tree.issued = []
  committed : ∀ result calls, tree.Commits result calls → tree.unit.completed = true ∧
    tree.issued = if result.isSuccess = true ∧ calls.aborted = false ∧
      tree.unit.nestedFailure = false ∧ tree.unit.entries ≠ [] then [tree.unit.entries] else []

/-- The unit remembers every failure of a nested command. -/
def Remembered (tree : CommandTree α σ κ ρ) : Prop :=
  tree.unit.nestedFailure = tree.nestedFailed

/-- A nested command that fails while the unit is open has been executed. -/
def FailsExecuted (tree : CommandTree α σ κ ρ) (event : TreeEvent α σ κ ρ) : Prop :=
  event = .nestedRefused → tree.unit.completed = true

/-- Two trees whose units hold the same batch, with the same records of it. -/
structure SameRecords (next tree : CommandTree α σ κ ρ) : Prop where
  unit : next.unit.SameBatch tree.unit
  stagings : next.stagings = tree.stagings
  issued : next.issued = tree.issued
  nestedFailed : next.nestedFailed = tree.nestedFailed

variable {tree next : CommandTree α σ κ ρ}

omit [DecidableEq σ] [DecidableEq κ] in
theorem SameRecords.refl : tree.SameRecords tree := ⟨⟨rfl, rfl, rfl⟩, rfl, rfl, rfl⟩

omit [DecidableEq σ] [DecidableEq κ] in
theorem SameRecords.trans {last : CommandTree α σ κ ρ} (h : last.SameRecords next)
    (h' : next.SameRecords tree) : last.SameRecords tree where
  unit := ⟨h.unit.entries.trans h'.unit.entries, h.unit.completed.trans h'.unit.completed,
    h.unit.nestedFailure.trans h'.unit.nestedFailure⟩
  stagings := h.stagings.trans h'.stagings
  issued := h.issued.trans h'.issued
  nestedFailed := h.nestedFailed.trans h'.nestedFailed

omit [DecidableEq σ] [DecidableEq κ] in
theorem setAggregates_sameRecords (aggregates : List (TrackedAggregate α κ)) :
    (tree.setAggregates aggregates).SameRecords tree := ⟨⟨rfl, rfl, rfl⟩, rfl, rfl, rfl⟩

theorem advance_sameRecords (tree : CommandTree α σ κ ρ) (source : Option ℕ) (count : ℕ) :
    (tree.advance source count).SameRecords tree := by
  cases source with
  | none => exact .refl
  | some index => exact setAggregates_sameRecords _

omit [DecidableEq σ] [DecidableEq κ] in
theorem advance_completion (source : Option ℕ) (count : ℕ) :
    (tree.advance source count).completion = tree.completion := by
  cases source with
  | none => rfl
  | some index => rfl

theorem handle_sameRecords (context : CommandContext) (value : ResponseValue α κ) :
    (tree.handle context value).1.SameRecords tree ∧
      (tree.handle context value).1.completion = tree.completion := by
  unfold handle
  split
  · exact ⟨.refl, rfl⟩
  · split_ifs
    · exact ⟨.refl, rfl⟩
    · exact ⟨⟨⟨rfl, rfl, rfl⟩, rfl, rfl, rfl⟩, rfl⟩

/-- What the rest of `handle` does: it throws, it appends on its own because the unit is
completed, or it stages. -/
theorem handled_cases {context : CommandContext} {value : ResponseValue α κ}
    {prepared : Except (Thrown ValidationResult) (Preparation α σ κ)} {append : Append}
    {thrown : Option (Thrown ValidationResult)}
    (h : tree.handled context value prepared append = (next, thrown)) :
    (∃ error unit, thrown = some error ∧ unit.SameBatch tree.unit ∧
      next = { tree with unit := unit }) ∨
    (∃ (routed : Preparation α σ κ) (accepted : Bool), tree.unit.completed = true ∧
      thrown = none ∧
      next = if accepted then ({ tree with
          direct := tree.direct ++ [(value.source, routed.entries value)] } :
          CommandTree α σ κ ρ).advance value.source (routed.entries value).length
        else { tree with direct := tree.direct ++ [(value.source, routed.entries value)] }) ∨
    (∃ (routed : Preparation α σ κ) (unit : ChronicleUnitOfWork _ σ κ), thrown = none ∧
      tree.unit.completed = false ∧ unit.entries = tree.unit.entries ++ routed.entries value ∧
      unit.completed = false ∧ unit.nestedFailure = tree.unit.nestedFailure ∧
      next = ({ tree with
          unit := unit
          stagings := tree.stagings ++ [(value.source, routed.entries value)] } :
          CommandTree α σ κ ρ).advance value.source (routed.entries value).length) := by
  unfold handled at h
  cases prepared with
  | error error =>
      cases h
      exact .inl ⟨error, tree.unit, rfl, ⟨rfl, rfl, rfl⟩, rfl⟩
  | ok prepared =>
      dsimp only at h
      split_ifs at h with hcompleted haccepts
      · cases h
        exact .inr (.inl ⟨prepared, true, hcompleted, rfl, rfl⟩)
      · cases h
        exact .inr (.inl ⟨prepared, false, hcompleted, rfl, rfl⟩)
      · cases hstage : tree.unit.stage prepared.store context (prepared.entries value)
            (value.scopes ++ prepared.scopes) with
        | mk unit thrown =>
            rw [hstage] at h
            rcases stage_cases hstage with ⟨error, rfl, hsame⟩ |
              ⟨rfl, hopened, hentries, hcompleted, hnested⟩
            · cases h
              exact .inl ⟨error, unit, rfl, hsame, rfl⟩
            · cases h
              exact .inr (.inr ⟨prepared, unit, rfl, hopened, hentries, hcompleted, hnested, rfl⟩)

/-! ### Steps -/

omit [DecidableEq σ] [DecidableEq κ] in
theorem not_commits {result : CommandResult ρ ValidationResult} {calls : CommitCalls}
    (h : ∀ result calls answer, tree.completion ≠ .committed result calls answer) :
    ¬ tree.Commits result calls := by
  rintro ⟨answer, hanswer⟩
  exact h _ _ _ hanswer

omit [DecidableEq σ] [DecidableEq κ] in
theorem Collected.of_sameRecords (h : tree.Collected) (hsame : next.SameRecords tree)
    (hcompletion : next.completion = tree.completion) : next.Collected := by
  have hcommits : ∀ result calls, next.Commits result calls ↔ tree.Commits result calls := by
    intro result calls
    unfold Commits
    rw [hcompletion]
  have hcollected : next.collected = tree.collected := by
    rw [collected, hsame.stagings]
    rfl
  refine ⟨?_, ?_, ?_⟩
  · rw [hsame.unit.entries, hcollected, h.entries]
  · intro hnone
    rw [hsame.unit.completed, hsame.issued]
    exact h.opened fun result calls hcommits' => hnone result calls ((hcommits _ _).2 hcommits')
  · intro result calls hcommits'
    rw [hsame.unit.completed, hsame.issued, hsame.unit.nestedFailure, hsame.unit.entries]
    exact h.committed result calls ((hcommits _ _).1 hcommits')

omit [DecidableEq σ] [DecidableEq κ] in
/-- Before the commit, only the entries and the open unit matter. -/
theorem Collected.of_opened (hentries : next.unit.entries = next.collected)
    (hcompleted : next.unit.completed = false) (hissued : next.issued = [])
    (hcompletion : ∀ result calls, ¬ next.Commits result calls) : next.Collected where
  entries := hentries
  opened := fun _ => ⟨hcompleted, hissued⟩
  committed := fun result calls h => absurd h (hcompletion result calls)

omit [DecidableEq σ] [DecidableEq κ] in
theorem Collected.uncommitted (h : tree.Collected) (hopened : tree.unit.completed = false) :
    ∀ result calls, ¬ tree.Commits result calls := by
  intro result calls hcommits
  rw [(h.committed result calls hcommits).1] at hopened
  cases hopened

omit [DecidableEq σ] [DecidableEq κ] in
theorem collected_append (tree : CommandTree α σ κ ρ)
    {stagings : List (Option ℕ × List (EventForEventSourceId α))}
    {source : Option ℕ} {entries : List (EventForEventSourceId α)}
    (h : stagings = tree.stagings ++ [(source, entries)]) :
    stagings.flatMap Prod.snd = tree.collected ++ entries := by
  rw [h, List.flatMap_append, List.flatMap_singleton]
  rfl

theorem Collected.handled (h : tree.Collected) (context : CommandContext)
    (value : ResponseValue α κ)
    (prepared : Except (Thrown ValidationResult) (Preparation α σ κ)) (append : Append) :
    (tree.handled context value prepared append).1.Collected ∧
      (tree.handled context value prepared append).1.completion = tree.completion ∧
      (tree.handled context value prepared append).1.unit.nestedFailure =
        tree.unit.nestedFailure ∧
      (tree.handled context value prepared append).1.nestedFailed = tree.nestedFailed ∧
      (tree.handled context value prepared append).1.unit.completed = tree.unit.completed := by
  cases hhandled : tree.handled context value prepared append with
  | mk next thrown =>
      rcases handled_cases hhandled with ⟨error, unit, -, hsame, rfl⟩ |
        ⟨routed, accepted, hcompleted, -, rfl⟩ |
        ⟨routed, unit, -, hopened, hentries, hcompleted, hnested, rfl⟩
      · exact ⟨h.of_sameRecords ⟨hsame, rfl, rfl, rfl⟩ rfl, rfl, hsame.nestedFailure, rfl,
          hsame.completed⟩
      · cases accepted with
        | true =>
            have hrecords : SameRecords (({ tree with
                direct := tree.direct ++ [(value.source, routed.entries value)] } :
                CommandTree α σ κ ρ).advance value.source (routed.entries value).length) tree :=
              (advance_sameRecords _ _ _).trans ⟨⟨rfl, rfl, rfl⟩, rfl, rfl, rfl⟩
            exact ⟨h.of_sameRecords hrecords (advance_completion _ _), advance_completion _ _,
              hrecords.unit.nestedFailure, hrecords.nestedFailed, hrecords.unit.completed⟩
        | false => exact ⟨h.of_sameRecords ⟨⟨rfl, rfl, rfl⟩, rfl, rfl, rfl⟩ rfl, rfl, rfl, rfl, rfl⟩
      · have hsame := advance_sameRecords
          ({ tree with
            unit := unit
            stagings := tree.stagings ++ [(value.source, routed.entries value)] } :
            CommandTree α σ κ ρ) value.source (routed.entries value).length
        refine ⟨?_, advance_completion _ _, hsame.unit.nestedFailure.trans hnested,
          hsame.nestedFailed, hsame.unit.completed.trans (hcompleted.trans hopened.symm)⟩
        refine .of_opened ?_ (hsame.unit.completed.trans hcompleted)
          (hsame.issued.trans (h.opened (h.uncommitted hopened)).2) ?_
        · rw [hsame.unit.entries, collected, collected_append tree hsame.stagings,
            ← h.entries]
          exact hentries
        · rintro result calls ⟨answer, hanswer⟩
          dsimp only at hanswer
          rw [advance_completion] at hanswer
          exact h.uncommitted hopened result calls ⟨answer, hanswer⟩

/-- The root scope moves on before its commit. -/
theorem Collected.of_completion (h : tree.Collected) (hopened : tree.unit.completed = false)
    {completion : RootCompletion α κ ρ}
    (hcompletion : ∀ result calls answer, completion ≠ .committed result calls answer) :
    CommandTree.Collected { tree with completion := completion } :=
  .of_opened h.entries hopened (h.opened (h.uncommitted hopened)).2
    fun _ _ => not_commits hcompletion

theorem Collected.opened_of (h : tree.Collected)
    (hcompletion : ∀ result calls answer, tree.completion ≠ .committed result calls answer) :
    tree.unit.completed = false :=
  (h.opened fun _ _ => not_commits hcompletion).1

theorem Collected.commitUnit (h : tree.Collected) (hopened : tree.unit.completed = false)
    {result : CommandResult ρ ValidationResult} {timeout : Option CompletionTimeout}
    {calls : CommitCalls} :
    CommandTree.Collected { tree with
      unit := (tree.unit.commit result timeout calls).unit
      issued := tree.issued ++ (tree.unit.commit result timeout calls).issued.toList
      completion := .committed result calls (tree.unit.commit result timeout calls).answer } := by
  obtain ⟨hentries, hnested, hcompleted⟩ :=
    commit_unit tree.unit result timeout calls
  refine ⟨hentries.trans h.entries, fun hnone => ?_, fun other called hcommits => ?_⟩
  · exact absurd ⟨_, rfl⟩ (hnone result calls)
  · obtain ⟨answer, hanswer⟩ := hcommits
    cases hanswer
    refine ⟨hcompleted, ?_⟩
    dsimp only
    rw [(h.opened (h.uncommitted hopened)).2, List.nil_append, commit_issued_eq hopened, hnested,
      hentries]

/-- What a step does to the unit and to the records of it. -/
theorem collected_step {timeout : Option CompletionTimeout} {event : TreeEvent α σ κ ρ}
    (h : tree.Collected) (hstep : step timeout tree event = some next) :
    next.Collected ∧ (tree.FailsExecuted event → tree.Remembered → next.Remembered) := by
  have hsame : ∀ {other : CommandTree α σ κ ρ}, other.SameRecords tree →
      other.completion = tree.completion →
      other.Collected ∧ (tree.FailsExecuted event → tree.Remembered → other.Remembered) := by
    intro other hrecords hcompletion
    refine ⟨h.of_sameRecords hrecords hcompletion, fun _ hremembered => ?_⟩
    exact hrecords.unit.nestedFailure.trans (hremembered.trans hrecords.nestedFailed.symm)
  cases event with
  | track sourceId scope reference =>
      dsimp only [step] at hstep
      split_ifs at hstep
      cases hstep
      exact hsame (setAggregates_sameRecords _) rfl
  | apply index applied =>
      dsimp only [step] at hstep
      split_ifs at hstep
      cases hstep
      exact hsame (setAggregates_sameRecords _) rfl
  | commit index =>
      obtain ⟨aggregate, -, rfl⟩ := Option.map_eq_some_iff.1 hstep
      exact hsame ⟨⟨rfl, rfl, rfl⟩, rfl, rfl, rfl⟩ rfl
  | handleEvents context events scopes =>
      cases hstep
      exact hsame (handle_sameRecords _ _).1 (handle_sameRecords _ _).2
  | handleCommit context result =>
      obtain ⟨result, -, rfl⟩ := Option.map_eq_some_iff.1 hstep
      exact hsame (handle_sameRecords _ _).1 (handle_sameRecords _ _).2
  | handled index prepared append =>
      obtain ⟨call, -, rfl⟩ := Option.map_eq_some_iff.1 hstep
      have hwaits : CommandTree.Collected { tree with handling := tree.handling.eraseIdx index } :=
        h.of_sameRecords ⟨⟨rfl, rfl, rfl⟩, rfl, rfl, rfl⟩ rfl
      obtain ⟨hnext, -, hnested, hfailed, -⟩ := hwaits.handled call.context call.value prepared append
      exact ⟨hnext, fun _ hremembered => hnested.trans (hremembered.trans hfailed.symm)⟩
  | nestedCompleted result =>
      dsimp only [step, ChronicleUnitOfWork.nestedCompleted] at hstep
      split_ifs at hstep with hcompleted
      · cases hstep
        exact hsame .refl rfl
      · cases hstep
        have hopened : tree.unit.completed = false := by simpa using hcompleted
        refine ⟨.of_opened h.entries hopened (h.opened (h.uncommitted hopened)).2
          (h.uncommitted hopened), fun _ hremembered => ?_⟩
        exact congrArg (· || !result.isSuccess) hremembered
  | nestedRefused =>
      cases hstep
      refine ⟨⟨h.entries, h.opened, h.committed⟩, fun hexecuted hremembered => ?_⟩
      dsimp only [Remembered]
      rw [hexecuted rfl, Bool.not_true, Bool.or_false]
      exact hremembered
  | complete result resolve =>
      dsimp only [step] at hstep
      split at hstep
      · next hrunning =>
          cases hstep
          have hopened := h.opened_of (by rw [hrunning]; intro _ _ _ hcontra; cases hcontra)
          unfold complete
          split_ifs
          · cases resolve with
            | some error =>
                exact ⟨h.of_completion hopened (by intro _ _ _ hcontra; cases hcontra), fun _ => id⟩
            | none =>
                exact ⟨h.of_completion hopened (by intro _ _ _ hcontra; cases hcontra), fun _ => id⟩
          · exact ⟨h.of_completion hopened (by intro _ _ _ hcontra; cases hcontra), fun _ => id⟩
      · cases hstep
  | enroll =>
      dsimp only [step] at hstep
      split at hstep
      · next result index remaining henrolling =>
          cases hstep
          have hopened := h.opened_of (by rw [henrolling]; intro _ _ _ hcontra; cases hcontra)
          have hmoves : ∀ {completion : RootCompletion α κ ρ},
              (∀ result calls answer, completion ≠ .committed result calls answer) →
              CommandTree.Collected { tree with completion := completion } ∧
                (tree.FailsExecuted .enroll → tree.Remembered →
                  CommandTree.Remembered { tree with completion := completion }) :=
            fun hcompletion => ⟨h.of_completion hopened hcompletion, fun _ => id⟩
          unfold enroll
          split
          · exact hmoves (by intro _ _ _ hcontra; cases hcontra)
          · split_ifs
            · split
              · exact hmoves (by intro _ _ _ hcontra; cases hcontra)
              · exact hmoves (by intro _ _ _ hcontra; cases hcontra)
            · exact hmoves (by intro _ _ _ hcontra; cases hcontra)
      · cases hstep
  | enrolled prepared append =>
      dsimp only [step] at hstep
      split at hstep
      · next result commit remaining hhandling =>
          have hopened := h.opened_of (by rw [hhandling]; intro _ _ _ hcontra; cases hcontra)
          obtain ⟨hcollected, -, hnested, hfailed, hcompleted⟩ := h.handled
            tree.unit.context (.commit commit) prepared append
          have hmoves : ∀ {completion : RootCompletion α κ ρ},
              (∀ result calls answer, completion ≠ .committed result calls answer) →
              CommandTree.Collected { (tree.handled tree.unit.context (.commit commit) prepared
                append).1 with completion := completion } :=
            fun hcompletion => hcollected.of_completion (hcompleted.trans hopened) hcompletion
          split at hstep
          · cases hstep
            exact ⟨hmoves (by intro _ _ _ hcontra; cases hcontra),
              fun _ hremembered => hnested.trans (hremembered.trans hfailed.symm)⟩
          · cases hstep
            exact ⟨hmoves (by intro _ _ _ hcontra; cases hcontra),
              fun _ hremembered => hnested.trans (hremembered.trans hfailed.symm)⟩
      · cases hstep
  | commitUnit calls =>
      dsimp only [step] at hstep
      split at hstep
      · next result henrolling =>
          cases hstep
          have hopened := h.opened_of (by rw [henrolling]; intro _ _ _ hcontra; cases hcontra)
          exact ⟨h.commitUnit hopened, fun _ hremembered => (commit_unit _ _ _ _).2.1.trans hremembered⟩
      · cases hstep

/-- Nothing is staged or issued after the commit. -/
theorem closed_step {timeout : Option CompletionTimeout} {event : TreeEvent α σ κ ρ}
    (h : tree.Collected) (hcompleted : tree.unit.completed = true)
    (hstep : step timeout tree event = some next) :
    next.unit.completed = true ∧ next.stagings = tree.stagings ∧ next.issued = tree.issued := by
  have hsame : ∀ {other : CommandTree α σ κ ρ}, other.SameRecords tree →
      other.unit.completed = true ∧ other.stagings = tree.stagings ∧
        other.issued = tree.issued := fun hrecords =>
    ⟨hrecords.unit.completed.trans hcompleted, hrecords.stagings, hrecords.issued⟩
  have hover : ∀ {P : Prop}, (∀ result calls answer,
      tree.completion ≠ .committed result calls answer) → P := by
    intro P hcompletion
    rw [h.opened_of hcompletion] at hcompleted
    cases hcompleted
  cases event with
  | track sourceId scope reference =>
      dsimp only [step] at hstep
      rw [if_pos hcompleted] at hstep
      cases hstep
  | apply index applied =>
      dsimp only [step] at hstep
      split_ifs at hstep
      cases hstep
      exact hsame (setAggregates_sameRecords _)
  | commit index =>
      obtain ⟨aggregate, -, rfl⟩ := Option.map_eq_some_iff.1 hstep
      exact ⟨hcompleted, rfl, rfl⟩
  | handleEvents context events scopes =>
      cases hstep
      exact hsame (handle_sameRecords _ _).1
  | handleCommit context result =>
      obtain ⟨result, -, rfl⟩ := Option.map_eq_some_iff.1 hstep
      exact hsame (handle_sameRecords _ _).1
  | handled index prepared append =>
      obtain ⟨call, -, rfl⟩ := Option.map_eq_some_iff.1 hstep
      cases hhandled : ({ tree with handling := tree.handling.eraseIdx index } :
          CommandTree α σ κ ρ).handled call.context call.value prepared append with
      | mk next thrown =>
          rcases handled_cases hhandled with ⟨error, unit, -, hunit, rfl⟩ |
            ⟨routed, accepted, -, -, rfl⟩ | ⟨routed, unit, -, hopened, -⟩
          · exact hsame ⟨hunit, rfl, rfl, rfl⟩
          · cases accepted with
            | true =>
                exact hsame ((advance_sameRecords _ _ _).trans ⟨⟨rfl, rfl, rfl⟩, rfl, rfl, rfl⟩)
            | false => exact ⟨hcompleted, rfl, rfl⟩
          · rw [hopened] at hcompleted
            cases hcompleted
  | nestedCompleted result =>
      dsimp only [step, ChronicleUnitOfWork.nestedCompleted] at hstep
      rw [if_pos hcompleted] at hstep
      cases hstep
      exact hsame .refl
  | nestedRefused =>
      cases hstep
      exact ⟨hcompleted, rfl, rfl⟩
  | complete result resolve =>
      dsimp only [step] at hstep
      split at hstep
      · next hrunning => exact hover (by rw [hrunning]; intro _ _ _ hcontra; cases hcontra)
      · cases hstep
  | enroll =>
      dsimp only [step] at hstep
      split at hstep
      · next henrolling => exact hover (by rw [henrolling]; intro _ _ _ hcontra; cases hcontra)
      · cases hstep
  | enrolled prepared append =>
      dsimp only [step] at hstep
      split at hstep
      · next hhandling => exact hover (by rw [hhandling]; intro _ _ _ hcontra; cases hcontra)
      · cases hstep
  | commitUnit calls =>
      dsimp only [step] at hstep
      split at hstep
      · next henrolling => exact hover (by rw [henrolling]; intro _ _ _ hcontra; cases hcontra)
      · cases hstep

/-! ### Runs -/

theorem collected_start (context : CommandContext) :
    (start context : CommandTree α σ κ ρ).Collected :=
  .of_opened rfl rfl rfl (by rintro result calls ⟨answer, hanswer⟩; cases hanswer)

theorem collected_run {context : CommandContext} {timeout : Option CompletionTimeout}
    {events : List (TreeEvent α σ κ ρ)}
    (hrun : (machine context timeout).exec (start context) events = some tree) :
    tree.Collected :=
  (machine context timeout).exec_preserves (fun _ _ _ h _ hstep => (collected_step h hstep).1)
    (collected_start context) ((machine context timeout).within_true _ _) hrun

def rootContext : CommandContext := ⟨0, "tenant", "c1"⟩

def rootResult : CommandResult Unit ValidationResult := commandResult "c1" {}

/-- The event store takes the one event of the batch. -/
def acceptedCalls : CommitCalls where
  reason := .error "This operation was aborted"
  append := .returns [{ isSuccess := some true }]
  waiting := { race := .canceled }

def plainPreparation : Preparation ℕ ℕ String where
  store := 0
  sourceId := "source-1"
  route := fun _ => []

/-- The handler of the root command returns an event, which is staged. -/
def stagingRun : List (TreeEvent ℕ ℕ String Unit) :=
  [.handleEvents rootContext [⟨none, 1, []⟩] [],
    .handled 0 (.ok plainPreparation) acceptedCalls.append]

/-- The root command succeeds and commits. -/
def committingRun : List (TreeEvent ℕ ℕ String Unit) :=
  [.complete rootResult none, .commitUnit acceptedCalls]

end CommandTree

end Arc.Chronicle
