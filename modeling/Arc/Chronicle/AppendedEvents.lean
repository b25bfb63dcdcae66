import Arc.Chronicle.OneAppend
import Mathlib.Data.List.Perm.Basic

/-!
# The events of an aggregate are appended once

The response handler checks a commit result before it waits for the event store, and moves the
cursor of the aggregate after it. In between nothing keeps another call for the same aggregate
from passing the check. Where no two calls for one aggregate overlap, and nothing is applied once
the root command completes, what is appended for an aggregate is what it has applied.
-/

namespace Arc.Chronicle

open Arc.Commands

variable {α σ κ ρ : Type*}

/-- What an entry keeps of the event it was routed from. -/
def EventForEventSourceId.key (entry : EventForEventSourceId α) : String × α :=
  (entry.eventSourceId, entry.event)

theorem Preparation.entries_commit (prepared : Preparation α σ κ)
    (result : AggregateRootCommitResult α κ) :
    (prepared.entries (.commit result)).length = result.events.length ∧
      (prepared.entries (.commit result)).map EventForEventSourceId.key =
        result.events.map EventForEventSourceId.key := by
  unfold Preparation.entries ResponseValue.values
  constructor
  · rw [List.length_map, List.length_map]
  · rw [List.map_map, List.map_map]
    rfl

theorem ResponseValue.values_isEmpty (result : AggregateRootCommitResult α κ) :
    (ResponseValue.commit result).values.isEmpty = true ↔ result.events = [] := by
  rw [List.isEmpty_iff, values, List.map_eq_nil_iff]

/-! ### Calls that wait -/

def ResponseValue.result? : ResponseValue α κ → Option (AggregateRootCommitResult α κ)
  | .events _ _ => none
  | .commit result => some result

namespace RootCompletion

def waiting : RootCompletion α κ ρ → Option (AggregateRootCommitResult α κ)
  | .handling _ commit _ => some commit
  | _ => none

/-- The aggregates that may still have unstaged events, once a successful root completes. -/
def owed : RootCompletion α κ ρ → Option (List ℕ)
  | .enrolling result remaining => if result.isSuccess then some remaining else none
  | .handling result commit remaining =>
      if result.isSuccess then some (commit.aggregate :: remaining) else none
  | .committed result _ _ => if result.isSuccess then some [] else none
  | _ => none

end RootCompletion

namespace CommandTree

/-- The commit results the waiting calls of `handle` have checked. -/
def waiting (tree : CommandTree α σ κ ρ) : List (AggregateRootCommitResult α κ) :=
  (tree.handling.filterMap fun call => call.value.result?) ++ tree.completion.waiting.toList

/-- The aggregate has moved on since the result was handed out, or never held it. -/
def OutOfDate (tree : CommandTree α σ κ ρ) (result : AggregateRootCommitResult α κ) : Prop :=
  ∃ aggregate, tree.aggregates[result.aggregate]? = some aggregate ∧
    (result.start ≠ aggregate.staged ∨
      aggregate.pending.length < aggregate.staged + result.events.length)

/-- The entries staged for the aggregate at a position, in staging order. -/
def stagedFor (tree : CommandTree α σ κ ρ) (index : ℕ) : List (EventForEventSourceId α) :=
  (tree.stagings.filter fun staging => staging.1 = some index).flatMap Prod.snd

/-- The entries appended for the aggregate at a position: those of the issued batch, and what
the handler has appended on its own. -/
def appendedFor (tree : CommandTree α σ κ ρ) (index : ℕ) : List (EventForEventSourceId α) :=
  (if tree.issued = [] then [] else tree.stagedFor index) ++
    (tree.direct.filter fun append => append.1 = some index).flatMap Prod.snd

/-- No cursor is past its events; a commit result that is out of date is refused, and none that
waits to be staged is; and once the root command has succeeded, what is appended for each
aggregate is what was applied to it. -/
structure AppendedOnce (tree : CommandTree α σ κ ρ) : Prop where
  staged_le : ∀ aggregate ∈ tree.aggregates, aggregate.staged ≤ aggregate.pending.length
  refused : ∀ context result, tree.OutOfDate result →
    ∃ error, tree.handle context (.commit result) = (tree, some error)
  upToDate : ∀ result ∈ tree.waiting, ¬ tree.OutOfDate result
  issued_eq : tree.issued = [] ∨ tree.issued = [tree.collected]
  appended : ∀ result calls final, tree.completion = .committed result calls (.ok final) →
    final.isSuccess = true → ∀ index aggregate, tree.aggregates[index]? = some aggregate →
      (tree.appendedFor index).map EventForEventSourceId.key =
        aggregate.pending.map EventForEventSourceId.key

/-- No call of `handle` for an aggregate starts while another one waits, and no event is applied
once the root command completes. -/
def Orderly (tree : CommandTree α σ κ ρ) : TreeEvent α σ κ ρ → Prop
  | .apply _ _ => tree.completion = .running
  | .handleCommit _ position => ∀ result, tree.results[position]? = some result →
      ∀ other ∈ tree.waiting, other.aggregate ≠ result.aggregate
  | .enroll => ∀ result index remaining, tree.completion = .enrolling result (index :: remaining) →
      ∀ other ∈ tree.waiting, other.aggregate ≠ index
  | _ => True

variable {tree next : CommandTree α σ κ ρ}

theorem assertUnstaged_eq_none_iff {aggregate : TrackedAggregate α κ}
    {result : AggregateRootCommitResult α κ} :
    aggregate.assertUnstaged result = none ↔ result.start = aggregate.staged ∧
      aggregate.staged + result.events.length ≤ aggregate.pending.length := by
  unfold TrackedAggregate.assertUnstaged
  split_ifs with h
  · refine iff_of_false (fun hnone => by cases hnone) fun hnone => ?_
    rcases h with h | h
    · exact h hnone.1
    · exact absurd hnone.2 (Nat.not_le.2 h)
  · rw [not_or, not_not, Nat.not_lt] at h
    exact iff_of_true rfl h

theorem handle_of_outOfDate {context : CommandContext} {result : AggregateRootCommitResult α κ}
    (h : tree.OutOfDate result) :
    ∃ error, tree.handle context (.commit result) = (tree, some error) := by
  obtain ⟨aggregate, hget, hreason⟩ := h
  have hrefusal : tree.refusal (.commit result) = aggregate.assertUnstaged result := by
    rw [refusal, hget, Option.bind_some]
  cases hassert : aggregate.assertUnstaged result with
  | some error =>
      refine ⟨error, ?_⟩
      rw [handle, hrefusal, hassert]
  | none =>
      obtain ⟨hstart, hlength⟩ := assertUnstaged_eq_none_iff.1 hassert
      rcases hreason with hstart' | hlength'
      · exact absurd hstart hstart'
      · exact absurd hlength (Nat.not_le.2 hlength')

/-! ### What holds of the aggregates -/

/-- The result is a part of what its aggregate has applied. -/
def Slice (aggregates : List (TrackedAggregate α κ)) (result : AggregateRootCommitResult α κ) :
    Prop :=
  ∃ aggregate, aggregates[result.aggregate]? = some aggregate ∧
    result.events = (aggregate.pending.drop result.start).take result.events.length ∧
    result.start + result.events.length ≤ aggregate.pending.length

/-- The result is what comes next of its aggregate. -/
def Current (aggregates : List (TrackedAggregate α κ)) (result : AggregateRootCommitResult α κ) :
    Prop :=
  result.events ≠ [] ∧ ∃ aggregate, aggregates[result.aggregate]? = some aggregate ∧
    result.start = aggregate.staged ∧
    result.events = (aggregate.pending.drop result.start).take result.events.length ∧
    result.start + result.events.length ≤ aggregate.pending.length

/-- What holds of the aggregates while these results wait to be staged. -/
structure Cursors (tree : CommandTree α σ κ ρ) (waits : List (AggregateRootCommitResult α κ)) :
    Prop where
  staged_le : ∀ (index : ℕ) (aggregate : TrackedAggregate α κ),
    tree.aggregates[index]? = some aggregate →
    aggregate.staged ≤ aggregate.pending.length
  results : ∀ result ∈ tree.results, Slice tree.aggregates result
  current : ∀ result ∈ waits, Current tree.aggregates result
  nodup : (waits.map AggregateRootCommitResult.aggregate).Nodup
  direct : tree.unit.completed = false → tree.direct = []
  known : ∀ staging ∈ tree.stagings, ∀ index, staging.1 = some index →
    index < tree.aggregates.length
  staged : (∀ append ∈ tree.direct, append.1 = none) → ∀ index aggregate,
    tree.aggregates[index]? = some aggregate →
      (tree.stagedFor index).map EventForEventSourceId.key =
        (aggregate.pending.take aggregate.staged).map EventForEventSourceId.key

variable {waits : List (AggregateRootCommitResult α κ)}

theorem Cursors.perm {others : List (AggregateRootCommitResult α κ)} (h : tree.Cursors waits)
    (hperm : waits.Perm others) : tree.Cursors others where
  staged_le := h.staged_le
  results := h.results
  current := fun result hresult => h.current result (hperm.mem_iff.2 hresult)
  nodup := (hperm.map _).nodup_iff.1 h.nodup
  direct := h.direct
  known := h.known
  staged := h.staged

theorem Cursors.tail {result : AggregateRootCommitResult α κ}
    (h : tree.Cursors (result :: waits)) : tree.Cursors waits where
  staged_le := h.staged_le
  results := h.results
  current := fun other hother => h.current other (List.mem_cons_of_mem _ hother)
  nodup := (List.nodup_cons.1 h.nodup).2
  direct := h.direct
  known := h.known
  staged := h.staged

theorem Cursors.cons {result : AggregateRootCommitResult α κ} (h : tree.Cursors waits)
    (hcurrent : Current tree.aggregates result)
    (hfree : ∀ other ∈ waits, other.aggregate ≠ result.aggregate) :
    tree.Cursors (result :: waits) where
  staged_le := h.staged_le
  results := h.results
  current := List.forall_mem_cons.2 ⟨hcurrent, h.current⟩
  nodup := by
    refine List.nodup_cons.2 ⟨fun hmem => ?_, h.nodup⟩
    obtain ⟨other, hother, heq⟩ := List.mem_map.1 hmem
    exact hfree other hother heq
  direct := h.direct
  known := h.known
  staged := h.staged

/-- The cursors do not depend on the rest of the tree. -/
theorem Cursors.congr (h : tree.Cursors waits) (haggregates : next.aggregates = tree.aggregates)
    (hresults : next.results = tree.results) (hdirect : next.direct = tree.direct)
    (hstagings : next.stagings = tree.stagings)
    (hcompleted : next.unit.completed = false → tree.unit.completed = false) :
    next.Cursors waits where
  staged_le := by
    rw [haggregates]
    exact h.staged_le
  results := by
    rw [haggregates, hresults]
    exact h.results
  current := by
    rw [haggregates]
    exact h.current
  nodup := h.nodup
  direct := by
    intro hopened
    rw [hdirect]
    exact h.direct (hcompleted hopened)
  known := by
    rw [haggregates, hstagings]
    exact h.known
  staged := by
    have hstaged : ∀ index, next.stagedFor index = tree.stagedFor index := by
      intro index
      rw [stagedFor, hstagings]
      rfl
    simp only [haggregates, hdirect, hstaged]
    exact h.staged

theorem getElem?_modify_eq_some {β : Type*} {list : List β} {f : β → β} {index position : ℕ}
    {value : β} : (list.modify index f)[position]? = some value ↔
      ∃ other, list[position]? = some other ∧ value = if index = position then f other else other := by
  rw [List.getElem?_modify]
  cases list[position]? with
  | none => simp
  | some other => simp [eq_comm]

/-- The aggregates apply events, and new ones are tracked. -/
structure Applies (aggregates others : List (TrackedAggregate α κ)) : Prop where
  old : ∀ (index : ℕ) (aggregate : TrackedAggregate α κ), aggregates[index]? = some aggregate →
    ∃ other, others[index]? = some other ∧ other.staged = aggregate.staged ∧
      ∃ events, other.pending = aggregate.pending ++ events
  new : ∀ (index : ℕ) (other : TrackedAggregate α κ), others[index]? = some other →
    (∃ aggregate, aggregates[index]? = some aggregate ∧ other.staged = aggregate.staged ∧
      ∃ events, other.pending = aggregate.pending ++ events) ∨
    (aggregates.length ≤ index ∧ other.staged = 0)
  length_le : aggregates.length ≤ others.length

theorem applies_track (aggregates : List (TrackedAggregate α κ)) {aggregate : TrackedAggregate α κ}
    (h : aggregate.staged = 0) : Applies aggregates (aggregates ++ [aggregate]) where
  old := by
    intro index old hget
    refine ⟨old, ?_, rfl, [], (List.append_nil _).symm⟩
    rw [List.getElem?_append_left (List.getElem?_eq_some_iff.1 hget).1]
    exact hget
  new := by
    intro index other hget
    by_cases hlt : index < aggregates.length
    · rw [List.getElem?_append_left hlt] at hget
      exact .inl ⟨other, hget, rfl, [], (List.append_nil _).symm⟩
    · rw [List.getElem?_append_right (Nat.le_of_not_lt hlt)] at hget
      refine .inr ⟨Nat.le_of_not_lt hlt, ?_⟩
      obtain ⟨-, rfl⟩ := List.getElem?_eq_some_iff.1 hget
      rw [List.getElem_singleton]
      exact h
  length_le := by
    rw [List.length_append]
    exact Nat.le_add_right _ _

theorem applies_apply (aggregates : List (TrackedAggregate α κ)) (index : ℕ) (event : α) :
    Applies aggregates (aggregates.modify index (·.apply event)) where
  old := by
    intro position aggregate hget
    refine ⟨_, getElem?_modify_eq_some.2 ⟨aggregate, hget, rfl⟩, ?_⟩
    split_ifs
    · exact ⟨rfl, _, rfl⟩
    · exact ⟨rfl, [], (List.append_nil _).symm⟩
  new := by
    intro position other hget
    obtain ⟨aggregate, hold, rfl⟩ := getElem?_modify_eq_some.1 hget
    refine .inl ⟨aggregate, hold, ?_⟩
    split_ifs
    · exact ⟨rfl, _, rfl⟩
    · exact ⟨rfl, [], (List.append_nil _).symm⟩
  length_le := Nat.le_of_eq (List.length_modify _ _ _).symm

/-- A part of the events stays that part when more are applied. -/
theorem take_drop_append {β : Type*} {list : List β} {start count : ℕ}
    (h : start + count ≤ list.length) (more : List β) :
    ((list ++ more).drop start).take count = (list.drop start).take count := by
  rw [List.drop_append_of_le_length (by omega), List.take_append_of_le_length]
  rw [List.length_drop]
  omega

theorem Slice.applies {aggregates others : List (TrackedAggregate α κ)}
    {result : AggregateRootCommitResult α κ} (h : Slice aggregates result)
    (happlies : Applies aggregates others) : Slice others result := by
  obtain ⟨aggregate, hget, hevents, hlength⟩ := h
  obtain ⟨other, hother, -, events, hpending⟩ := happlies.old _ _ hget
  refine ⟨other, hother, ?_, ?_⟩
  · rw [hpending, take_drop_append hlength]
    exact hevents
  · rw [hpending, List.length_append]
    omega

theorem Current.applies {aggregates others : List (TrackedAggregate α κ)}
    {result : AggregateRootCommitResult α κ} (h : Current aggregates result)
    (happlies : Applies aggregates others) : Current others result := by
  obtain ⟨hne, aggregate, hget, hstart, hevents, hlength⟩ := h
  obtain ⟨other, hother, hstaged, events, hpending⟩ := happlies.old _ _ hget
  refine ⟨hne, other, hother, hstart.trans hstaged.symm, ?_, ?_⟩
  · rw [hpending, take_drop_append hlength]
    exact hevents
  · rw [hpending, List.length_append]
    omega

theorem stagedFor_eq_nil {index : ℕ} (h : ∀ staging ∈ tree.stagings, staging.1 ≠ some index) :
    tree.stagedFor index = [] := by
  unfold stagedFor
  rw [List.filter_eq_nil_iff.2, List.flatMap_nil]
  intro staging hstaging
  simpa using h staging hstaging

theorem Cursors.applies (h : tree.Cursors waits) {others : List (TrackedAggregate α κ)}
    (happlies : Applies tree.aggregates others) :
    (tree.setAggregates others).Cursors waits where
  staged_le := by
    intro index other hother
    rcases happlies.new _ _ hother with ⟨aggregate, hget, hstaged, events, hpending⟩ | ⟨-, hzero⟩
    · have hle := h.staged_le _ _ hget
      rw [hstaged, hpending, List.length_append]
      omega
    · rw [hzero]
      exact Nat.zero_le _
  results := fun result hresult => (h.results result hresult).applies happlies
  current := fun result hresult => (h.current result hresult).applies happlies
  nodup := h.nodup
  direct := h.direct
  known := fun staging hstaging index hindex =>
    Nat.lt_of_lt_of_le (h.known staging hstaging index hindex) happlies.length_le
  staged := by
    intro hdirect index other hother
    rcases happlies.new _ _ hother with ⟨aggregate, hget, hstaged, events, hpending⟩ | ⟨hle, hzero⟩
    · rw [hstaged, hpending, List.take_append_of_le_length (h.staged_le _ _ hget)]
      exact h.staged hdirect index aggregate hget
    · have hnone : (tree.setAggregates others).stagedFor index = [] :=
        stagedFor_eq_nil fun staging hstaging hindex =>
          absurd (h.known staging hstaging index hindex) (Nat.not_lt.2 hle)
      rw [hnone, hzero]
      rfl

/-! ### The rest of a call -/

/-- A cursor moves. -/
theorem slice_stage {aggregates : List (TrackedAggregate α κ)} (index count : ℕ)
    {result : AggregateRootCommitResult α κ} (h : Slice aggregates result) :
    Slice (aggregates.modify index (·.stage count)) result := by
  obtain ⟨aggregate, hget, hevents, hlength⟩ := h
  refine ⟨_, getElem?_modify_eq_some.2 ⟨aggregate, hget, rfl⟩, ?_⟩
  split_ifs
  · exact ⟨hevents, hlength⟩
  · exact ⟨hevents, hlength⟩

theorem current_stage {aggregates : List (TrackedAggregate α κ)} {index : ℕ} (count : ℕ)
    {result : AggregateRootCommitResult α κ} (h : Current aggregates result)
    (hne : index ≠ result.aggregate) :
    Current (aggregates.modify index (·.stage count)) result := by
  obtain ⟨hevents, aggregate, hget, hslice⟩ := h
  refine ⟨hevents, aggregate, getElem?_modify_eq_some.2 ⟨aggregate, hget, ?_⟩, hslice⟩
  rw [if_neg hne]

theorem stagedFor_append {source : Option ℕ} {entries : List (EventForEventSourceId α)}
    (h : next.stagings = tree.stagings ++ [(source, entries)]) (index : ℕ) :
    next.stagedFor index =
      if source = some index then tree.stagedFor index ++ entries else tree.stagedFor index := by
  unfold stagedFor
  rw [h, List.filter_append, List.flatMap_append]
  split_ifs with hsource
  · simp [hsource]
  · simp [hsource]

/-- The result that has waited first is staged, or appended on its own. -/
theorem Cursors.stage {result : AggregateRootCommitResult α κ}
    (h : tree.Cursors (result :: waits)) (hnext : next.aggregates =
      tree.aggregates.modify result.aggregate (·.stage result.events.length))
    (hresults : next.results = tree.results)
    (hdirect : next.unit.completed = false → next.direct = [])
    (hknown : ∀ staging ∈ next.stagings, staging ∈ tree.stagings ∨
      staging.1 = some result.aggregate)
    (hstaged : (∀ append ∈ next.direct, append.1 = none) →
      (∀ append ∈ tree.direct, append.1 = none) ∧ ∀ index,
        (next.stagedFor index).map EventForEventSourceId.key =
          if result.aggregate = index then (tree.stagedFor index).map EventForEventSourceId.key ++
            result.events.map EventForEventSourceId.key
          else (tree.stagedFor index).map EventForEventSourceId.key) :
    next.Cursors waits := by
  obtain ⟨hne, aggregate, hget, hstart, hevents, hlength⟩ := h.current result List.mem_cons_self
  have hothers := List.nodup_cons.1 h.nodup
  refine ⟨?_, ?_, ?_, hothers.2, hdirect, ?_, ?_⟩
  · intro index other hother
    rw [hnext] at hother
    obtain ⟨old, hold, rfl⟩ := getElem?_modify_eq_some.1 hother
    split_ifs with hindex
    · subst hindex
      rw [hget] at hold
      cases hold
      change aggregate.staged + result.events.length ≤ aggregate.pending.length
      omega
    · exact h.staged_le index old hold
  · rw [hresults, hnext]
    exact fun other hother => slice_stage _ _ (h.results other hother)
  · intro other hother
    rw [hnext]
    refine current_stage _ (h.current other (List.mem_cons_of_mem _ hother)) fun heq => ?_
    exact hothers.1 (heq ▸ List.mem_map_of_mem hother)
  · intro staging hstaging index hindex
    rw [hnext, List.length_modify]
    rcases hknown staging hstaging with hold | hnew
    · exact h.known staging hold index hindex
    · rw [hnew] at hindex
      cases hindex
      exact (List.getElem?_eq_some_iff.1 hget).1
  · intro hnone index other hother
    obtain ⟨hnone', hkeys⟩ := hstaged hnone
    rw [hnext] at hother
    obtain ⟨old, hold, rfl⟩ := getElem?_modify_eq_some.1 hother
    rw [hkeys index]
    have hbefore := h.staged hnone' index old hold
    split_ifs with hindex
    · subst hindex
      rw [hget] at hold
      cases hold
      change _ = (aggregate.pending.take (aggregate.staged + result.events.length)).map _
      rw [List.take_add, List.map_append, hbefore, ← hstart, ← hevents]
    · exact hbefore

/-- What the rest of `handle` leaves of the cursors when it has waited with a commit result. -/
theorem Cursors.handled {result : AggregateRootCommitResult α κ} [DecidableEq σ] [DecidableEq κ]
    (h : tree.Cursors (result :: waits)) {context : CommandContext}
    {prepared : Except (Thrown ValidationResult) (Preparation α σ κ)} {append : Append}
    {thrown : Option (Thrown ValidationResult)}
    (hhandled : tree.handled context (.commit result) prepared append = (next, thrown)) :
    next.Cursors waits := by
  rcases handled_cases hhandled with ⟨error, unit, -, hsame, rfl⟩ |
    ⟨routed, accepted, hcompleted, -, rfl⟩ |
    ⟨routed, unit, -, hopened, -, hcompleted, -, rfl⟩
  · exact h.tail.congr rfl rfl rfl rfl fun hfalse => hsame.completed.symm.trans hfalse
  · have hnone : ∀ {P : Prop}, (∀ appended ∈ tree.direct ++
        [((ResponseValue.commit result).source, routed.entries (.commit result))],
          appended.1 = none) → P := by
      intro P hall
      have hlast := hall _ (List.mem_append_right _ (List.mem_singleton_self _))
      cases hlast
    have hfalse : ∀ {P : Prop}, tree.unit.completed = false → P := by
      intro P hopened
      rw [hcompleted] at hopened
      cases hopened
    cases accepted with
    | true =>
        rw [if_pos rfl, (routed.entries_commit result).1]
        exact h.stage rfl rfl hfalse (fun staging hstaging => .inl hstaging) hnone
    | false =>
        rw [if_neg Bool.false_ne_true]
        exact ⟨h.staged_le, h.results, h.tail.current, h.tail.nodup, hfalse, h.known, hnone⟩
  · have hentries := routed.entries_commit result
    rw [hentries.1]
    refine h.stage rfl rfl (fun _ => h.direct hopened) ?_ fun hnone => ⟨hnone, fun index => ?_⟩
    · intro staging hstaging
      rcases List.mem_append.1 hstaging with hold | hnew
      · exact .inl hold
      · rw [List.mem_singleton.1 hnew]
        exact .inr rfl
    · refine (congrArg (List.map EventForEventSourceId.key) (stagedFor_append
        (show _ = tree.stagings ++ [((ResponseValue.commit result).source,
          routed.entries (.commit result))] from rfl) index)).trans ?_
      by_cases hindex : result.aggregate = index
      · have hsource : (ResponseValue.commit result).source = some index := congrArg some hindex
        rw [if_pos hsource, if_pos hindex, List.map_append, hentries.2]
      · have hsource : (ResponseValue.commit result).source ≠ some index :=
          fun heq => hindex (Option.some.inj heq)
        rw [if_neg hsource, if_neg hindex]

/-- Other events leave the cursors alone. -/
theorem Cursors.handledEvents [DecidableEq σ] [DecidableEq κ] (h : tree.Cursors waits)
    {context : CommandContext} {events : List (ReturnedEvent α)} {scopes : List (String × κ)}
    {prepared : Except (Thrown ValidationResult) (Preparation α σ κ)} {append : Append}
    {thrown : Option (Thrown ValidationResult)}
    (hhandled : tree.handled context (.events events scopes) prepared append = (next, thrown)) :
    next.Cursors waits ∧ next.aggregates = tree.aggregates := by
  rcases handled_cases hhandled with ⟨error, unit, -, hsame, rfl⟩ |
    ⟨routed, accepted, hcompleted, -, rfl⟩ |
    ⟨routed, unit, -, hopened, -, hcompleted, -, rfl⟩
  · exact ⟨h.congr rfl rfl rfl rfl fun hfalse => hsame.completed.symm.trans hfalse, rfl⟩
  · have hcursors : Cursors { tree with
        direct := tree.direct ++ [((ResponseValue.events events scopes).source,
          routed.entries (.events events scopes))] } waits := by
      refine ⟨h.staged_le, h.results, h.current, h.nodup, fun hopened => ?_, h.known, fun hnone => ?_⟩
      · rw [show tree.unit.completed = false from hopened] at hcompleted
        cases hcompleted
      · exact h.staged fun append happend => hnone append (List.mem_append_left _ happend)
    cases accepted with
    | true => exact ⟨hcursors, rfl⟩
    | false => exact ⟨hcursors, rfl⟩
  · refine ⟨⟨h.staged_le, h.results, h.current, h.nodup, fun _ => h.direct hopened, ?_,
      fun hnone index => ?_⟩, rfl⟩
    · intro staging hstaging
      rcases List.mem_append.1 hstaging with hold | hnew
      · exact h.known staging hold
      · rw [List.mem_singleton.1 hnew]
        intro index hindex
        cases hindex
    · intro aggregate hget
      rw [stagedFor_append (show _ = tree.stagings ++ [((ResponseValue.events events scopes).source,
        routed.entries (.events events scopes))] from rfl) index]
      exact h.staged hnone index aggregate hget

/-- The aggregates have not lost what is staged, nor applied anything. -/
def Advances (aggregates others : List (TrackedAggregate α κ)) : Prop :=
  ∀ (index : ℕ) (other : TrackedAggregate α κ), others[index]? = some other →
    ∃ aggregate, aggregates[index]? = some aggregate ∧ other.pending = aggregate.pending ∧
      aggregate.staged ≤ other.staged

theorem advances_refl (aggregates : List (TrackedAggregate α κ)) : Advances aggregates aggregates :=
  fun _ other hother => ⟨other, hother, rfl, Nat.le_refl _⟩

/-- What the rest of `handle` does to the tree. -/
structure Handled (tree next : CommandTree α σ κ ρ) (value : ResponseValue α κ) : Prop where
  handling : next.handling = tree.handling
  completion : next.completion = tree.completion
  aggregates : Advances tree.aggregates next.aggregates
  direct : ∀ append ∈ next.direct, append ∈ tree.direct ∨ append.1 = value.source

theorem advance_handled (value : ResponseValue α κ) (count : ℕ) {before : CommandTree α σ κ ρ}
    (h : before.Handled tree value) : before.Handled (tree.advance value.source count) value := by
  cases value with
  | events returned scopes => exact h
  | commit result =>
      refine ⟨h.handling, h.completion, ?_, h.direct⟩
      intro index other hother
      obtain ⟨old, hold, rfl⟩ := getElem?_modify_eq_some.1 hother
      obtain ⟨aggregate, hget, hpending, hstaged⟩ := h.aggregates index old hold
      refine ⟨aggregate, hget, ?_⟩
      split_ifs
      · exact ⟨hpending, Nat.le_trans hstaged (Nat.le_add_right _ _)⟩
      · exact ⟨hpending, hstaged⟩

theorem handled_frame [DecidableEq σ] [DecidableEq κ] {context : CommandContext}
    {value : ResponseValue α κ}
    {prepared : Except (Thrown ValidationResult) (Preparation α σ κ)} {append : Append}
    {thrown : Option (Thrown ValidationResult)}
    (h : tree.handled context value prepared append = (next, thrown)) :
    tree.Handled next value := by
  rcases handled_cases h with ⟨error, unit, -, -, rfl⟩ | ⟨routed, accepted, -, -, rfl⟩ |
    ⟨routed, unit, -, -, -, -, -, rfl⟩
  · exact ⟨rfl, rfl, advances_refl _, fun _ => .inl⟩
  · have hdirect : tree.Handled { tree with
        direct := tree.direct ++ [(value.source, routed.entries value)] } value := by
      refine ⟨rfl, rfl, advances_refl _, fun append happend => ?_⟩
      rcases List.mem_append.1 happend with hold | hnew
      · exact .inl hold
      · rw [List.mem_singleton.1 hnew]
        exact .inr rfl
    cases accepted with
    | true => exact advance_handled value _ hdirect
    | false => exact hdirect
  · exact advance_handled value _ ⟨rfl, rfl, advances_refl _, fun _ => .inl⟩

theorem Handled.waiting_eq {value : ResponseValue α κ} (h : tree.Handled next value) :
    next.waiting = tree.waiting := by
  rw [CommandTree.waiting, h.handling, h.completion]
  rfl

/-! ### What the root command owes -/

/-- What holds of the scope of the root command: it has every aggregate with unstaged events
still before it, the commit result it waits with is all of them, and a root command that
succeeds leaves nothing to append for its aggregates. -/
structure Enrolled (tree : CommandTree α σ κ ρ) : Prop where
  owed : ∀ list, tree.completion.owed = some list → ∀ (index : ℕ)
    (aggregate : TrackedAggregate α κ), tree.aggregates[index]? = some aggregate →
      aggregate.staged < aggregate.pending.length → index ∈ list
  covers : ∀ result, tree.completion.waiting = some result →
    ∀ aggregate, tree.aggregates[result.aggregate]? = some aggregate →
      aggregate.pending.length ≤ result.start + result.events.length
  direct : ∀ result calls answer, tree.completion = .committed result calls answer →
    result.isSuccess = true → ∀ append ∈ tree.direct, append.1 = none

theorem enrolled_of_idle (howed : tree.completion.owed = none)
    (hwaiting : tree.completion.waiting = none)
    (hcompletion : ∀ result calls answer, tree.completion ≠ .committed result calls answer) :
    tree.Enrolled where
  owed := by
    rw [howed]
    intro list hlist
    cases hlist
  covers := by
    rw [hwaiting]
    intro result hresult
    cases hresult
  direct := fun _ _ _ h => absurd h (hcompletion _ _ _)

theorem Enrolled.congr (h : tree.Enrolled) (hcompletion : next.completion = tree.completion)
    (haggregates : next.aggregates = tree.aggregates) (hdirect : next.direct = tree.direct) :
    next.Enrolled where
  owed := by
    rw [hcompletion, haggregates]
    exact h.owed
  covers := by
    rw [hcompletion, haggregates]
    exact h.covers
  direct := by
    rw [hcompletion, hdirect]
    exact h.direct

/-- A result that waits belongs to an aggregate with unstaged events. -/
theorem Current.unstaged {aggregates : List (TrackedAggregate α κ)}
    {result : AggregateRootCommitResult α κ} (h : Current aggregates result) :
    ∃ aggregate, aggregates[result.aggregate]? = some aggregate ∧
      aggregate.staged < aggregate.pending.length := by
  obtain ⟨hne, aggregate, hget, hstart, -, hlength⟩ := h
  have hpos := List.length_pos_iff.2 hne
  exact ⟨aggregate, hget, by omega⟩

theorem Enrolled.handled {value : ResponseValue α κ} (h : tree.Enrolled)
    (hnext : tree.Handled next value)
    (hcurrent : ∀ result, value = .commit result → Current tree.aggregates result) :
    next.Enrolled where
  owed := by
    rw [hnext.completion]
    intro list hlist index other hother hlt
    obtain ⟨aggregate, hget, hpending, hstaged⟩ := hnext.aggregates index other hother
    rw [hpending] at hlt
    exact h.owed list hlist index aggregate hget (Nat.lt_of_le_of_lt hstaged hlt)
  covers := by
    rw [hnext.completion]
    intro result hresult other hother
    obtain ⟨aggregate, hget, hpending, -⟩ := hnext.aggregates _ other hother
    rw [hpending]
    exact h.covers result hresult aggregate hget
  direct := by
    rw [hnext.completion]
    intro root calls answer hcommitted hsuccess append happend
    rcases hnext.direct append happend with hold | hsource
    · exact h.direct root calls answer hcommitted hsuccess append hold
    · rw [hsource]
      cases value with
      | events returned scopes => rfl
      | commit result =>
          -- a committed root has left nothing that could wait
          obtain ⟨aggregate, hget, hlt⟩ := (hcurrent result rfl).unstaged
          have howed : tree.completion.owed = some [] := by
            rw [hcommitted]
            exact if_pos hsuccess
          exact absurd (h.owed [] howed _ aggregate hget hlt) List.not_mem_nil

/-! ### Steps -/

/-- What is kept along a run of orderly steps. -/
structure Tidy (tree : CommandTree α σ κ ρ) : Prop where
  collected : tree.Collected
  cursors : tree.Cursors tree.waiting
  enrolled : tree.Enrolled

/-- A result the check passes is what comes next of its aggregate. -/
theorem current_of_refusal {result : AggregateRootCommitResult α κ}
    (hslice : Slice tree.aggregates result) (hne : result.events ≠ [])
    (h : tree.refusal (.commit result) = none) : Current tree.aggregates result := by
  obtain ⟨aggregate, hget, hevents, hlength⟩ := hslice
  rw [refusal, hget, Option.bind_some] at h
  exact ⟨hne, aggregate, hget, (assertUnstaged_eq_none_iff.1 h).1, hevents, hlength⟩

theorem slice_commit {aggregates : List (TrackedAggregate α κ)} {index : ℕ}
    {aggregate : TrackedAggregate α κ} (hget : aggregates[index]? = some aggregate)
    (hle : aggregate.staged ≤ aggregate.pending.length) :
    Slice aggregates (aggregate.commit index) := by
  refine ⟨aggregate, hget, ?_, ?_⟩
  · exact (List.take_length (l := aggregate.pending.drop aggregate.staged)).symm
  · change aggregate.staged + (aggregate.pending.drop aggregate.staged).length ≤ _
    rw [List.length_drop]
    omega

theorem waiting_append (tree : CommandTree α σ κ ρ) (call : Handling α κ) :
    (waiting { tree with handling := tree.handling ++ [call] }).Perm
      (call.value.result?.toList ++ tree.waiting) := by
  have hhandling : (tree.handling ++ [call]).Perm (call :: tree.handling) :=
    List.perm_append_singleton call tree.handling
  have hresults := hhandling.filterMap fun call => call.value.result?
  unfold waiting
  refine (hresults.append_right _).trans ?_
  cases hresult : call.value.result? with
  | none =>
      rw [List.filterMap_cons, hresult]
      exact List.Perm.refl _
  | some result =>
      rw [List.filterMap_cons, hresult]
      exact List.Perm.refl _

/-- The call that waits at a position, before the others. -/
theorem waiting_perm {index : ℕ} {call : Handling α κ} (h : tree.handling[index]? = some call) :
    tree.waiting.Perm (call.value.result?.toList ++
      waiting { tree with handling := tree.handling.eraseIdx index }) := by
  obtain ⟨hlt, rfl⟩ := List.getElem?_eq_some_iff.1 h
  have hresults := (List.getElem_cons_eraseIdx_perm hlt).symm.filterMap
    fun call : Handling α κ => call.value.result?
  unfold waiting
  refine (hresults.append_right _).trans ?_
  rw [List.filterMap_cons]
  cases (tree.handling[index]).value.result? with
  | none => exact List.Perm.refl _
  | some result => exact List.Perm.refl _

section Steps

variable [DecidableEq σ] [DecidableEq κ]

theorem Tidy.handle (h : tree.Tidy) {context : CommandContext} {value : ResponseValue α κ}
    (hslice : ∀ result, value = .commit result → Slice tree.aggregates result ∧
      ∀ other ∈ tree.waiting, other.aggregate ≠ result.aggregate) :
    (tree.handle context value).1.Tidy := by
  obtain ⟨hrecords, hcompletion⟩ : (tree.handle context value).1.SameRecords tree ∧
      (tree.handle context value).1.completion = tree.completion := handle_sameRecords context value
  have hcollected := h.collected.of_sameRecords hrecords hcompletion
  unfold CommandTree.handle at hcollected ⊢
  split
  · exact h
  · next hrefusal =>
      split_ifs with hempty
      · exact h
      · rw [hrefusal] at hcollected
        simp only [if_neg hempty] at hcollected
        refine ⟨hcollected, ?_, h.enrolled.congr rfl rfl rfl⟩
        have hcursors : tree.Cursors (value.result?.toList ++ tree.waiting) := by
          cases value with
          | events returned scopes => exact h.cursors
          | commit result =>
              obtain ⟨hpart, hfree⟩ := hslice result rfl
              have hne : result.events ≠ [] :=
                fun heq => hempty ((ResponseValue.values_isEmpty result).2 heq)
              exact h.cursors.cons (current_of_refusal hpart hne hrefusal) hfree
        exact (hcursors.perm (waiting_append tree ⟨context, value⟩).symm).congr rfl rfl rfl rfl id

theorem Tidy.handled (h : tree.Tidy) {index : ℕ} {call : Handling α κ}
    (hcall : tree.handling[index]? = some call)
    {prepared : Except (Thrown ValidationResult) (Preparation α σ κ)} {append : Append} :
    (({ tree with handling := tree.handling.eraseIdx index } : CommandTree α σ κ ρ).handled
      call.context call.value prepared append).1.Tidy := by
  have hcollected : CommandTree.Collected { tree with handling := tree.handling.eraseIdx index } :=
    h.collected.of_sameRecords ⟨⟨rfl, rfl, rfl⟩, rfl, rfl, rfl⟩ rfl
  have henrolled : CommandTree.Enrolled { tree with handling := tree.handling.eraseIdx index } :=
    h.enrolled.congr rfl rfl rfl
  have hcursors : Cursors { tree with handling := tree.handling.eraseIdx index }
      (call.value.result?.toList ++
        waiting { tree with handling := tree.handling.eraseIdx index }) :=
    (h.cursors.perm (waiting_perm hcall)).congr rfl rfl rfl rfl id
  cases hhandled : ({ tree with handling := tree.handling.eraseIdx index } :
      CommandTree α σ κ ρ).handled call.context call.value prepared append with
  | mk next thrown =>
      have hframe := handled_frame hhandled
      have hnext := hcollected.handled call.context call.value prepared append
      rw [hhandled] at hnext
      refine ⟨hnext.1, ?_, ?_⟩
      · rw [hframe.waiting_eq]
        cases hvalue : call.value with
        | events returned scopes =>
            rw [hvalue] at hhandled hcursors
            exact (hcursors.handledEvents hhandled).1
        | commit result =>
            rw [hvalue] at hhandled hcursors
            exact hcursors.handled hhandled
      · refine henrolled.handled hframe fun result hvalue => ?_
        rw [hvalue] at hcursors
        exact hcursors.current result List.mem_cons_self

/-- The scope of the root command moves on without a call of its own. -/
theorem Tidy.moves (h : tree.Tidy) (hopened : tree.unit.completed = false)
    {completion : RootCompletion α κ ρ} (hold : tree.completion.waiting = none)
    (hwaiting : completion.waiting = none)
    (hcompletion : ∀ result calls answer, completion ≠ .committed result calls answer)
    (howed : ∀ list, completion.owed = some list → ∀ (index : ℕ)
      (aggregate : TrackedAggregate α κ), tree.aggregates[index]? = some aggregate →
        aggregate.staged < aggregate.pending.length → index ∈ list) :
    Tidy { tree with completion := completion } where
  collected := h.collected.of_completion hopened hcompletion
  cursors := by
    have hsame : waiting { tree with completion := completion } = tree.waiting := by
      unfold waiting
      rw [hold]
      exact congrArg (fun result => _ ++ Option.toList result) hwaiting
    rw [hsame]
    exact h.cursors.congr rfl rfl rfl rfl id
  enrolled := by
    refine ⟨howed, ?_, fun result calls answer hcommitted => ?_⟩
    · intro result hresult
      rw [show completion.waiting = some result from hresult] at hwaiting
      cases hwaiting
    · exact absurd hcommitted (hcompletion result calls answer)

theorem Tidy.complete (h : tree.Tidy) (hrunning : tree.completion = .running)
    (result : CommandResult ρ ValidationResult) (resolve : Option (Thrown ValidationResult)) :
    (tree.complete result resolve).Tidy := by
  have hopened := h.collected.opened_of (by rw [hrunning]; intro _ _ _ hcontra; cases hcontra)
  have hold : tree.completion.waiting = none := by
    rw [hrunning]
    rfl
  unfold CommandTree.complete
  split_ifs with hunstaged
  · cases resolve with
    | some error =>
        refine h.moves hopened hold rfl (by intro _ _ _ hcontra; cases hcontra) fun list hlist => ?_
        cases hlist
    | none =>
        refine h.moves hopened hold rfl (by intro _ _ _ hcontra; cases hcontra) ?_
        intro list hlist index aggregate hget _
        rw [Bool.and_eq_true] at hunstaged
        rw [RootCompletion.owed, if_pos hunstaged.1] at hlist
        cases hlist
        exact List.mem_range.2 (List.getElem?_eq_some_iff.1 hget).1
  · refine h.moves hopened hold rfl (by intro _ _ _ hcontra; cases hcontra) ?_
    intro list hlist index aggregate hget hlt
    rw [RootCompletion.owed] at hlist
    split_ifs at hlist with hsuccess
    rw [hsuccess, Bool.true_and, List.any_eq_true] at hunstaged
    refine absurd ⟨aggregate, List.mem_of_getElem? hget, ?_⟩ hunstaged
    exact decide_eq_true hlt

theorem Tidy.enroll (h : tree.Tidy) {result : CommandResult ρ ValidationResult} {index : ℕ}
    {remaining : List ℕ} (henrolling : tree.completion = .enrolling result (index :: remaining))
    (hfree : ∀ other ∈ tree.waiting, other.aggregate ≠ index) :
    (tree.enroll result index remaining).Tidy := by
  have hopened := h.collected.opened_of (by rw [henrolling]; intro _ _ _ hcontra; cases hcontra)
  have hold : tree.completion.waiting = none := by
    rw [henrolling]
    rfl
  have howed : result.isSuccess = true → ∀ (position : ℕ) (aggregate : TrackedAggregate α κ),
      tree.aggregates[position]? = some aggregate →
      aggregate.staged < aggregate.pending.length → position ∈ index :: remaining := by
    intro hsuccess
    refine h.enrolled.owed _ ?_
    rw [henrolling]
    exact if_pos hsuccess
  -- the loop goes on when the aggregate at hand has nothing to stage
  have hnext : (∀ aggregate, tree.aggregates[index]? = some aggregate →
      ¬ aggregate.staged < aggregate.pending.length) →
      Tidy { tree with completion := .enrolling result remaining } := by
    intro hnone
    refine h.moves hopened hold rfl (by intro _ _ _ hcontra; cases hcontra) ?_
    intro list hlist position aggregate hget hlt
    rw [RootCompletion.owed] at hlist
    split_ifs at hlist with hsuccess
    cases hlist
    rcases List.mem_cons.1 (howed hsuccess position aggregate hget hlt) with rfl | hmem
    · exact absurd hlt (hnone aggregate hget)
    · exact hmem
  unfold CommandTree.enroll
  split
  · next hget =>
      refine hnext fun aggregate hsome => ?_
      rw [hget] at hsome
      cases hsome
  · next aggregate hget =>
      have hle := h.cursors.staged_le index aggregate hget
      split_ifs with hunstaged
      · split
        · refine h.moves hopened hold rfl (by intro _ _ _ hcontra; cases hcontra) fun list hlist => ?_
          cases hlist
        · next hassert =>
            have hlt : aggregate.staged < aggregate.pending.length := of_decide_eq_true hunstaged
            have hne : (aggregate.commit index).events ≠ [] := by
              intro hnil
              have hlength := congrArg List.length hnil
              rw [TrackedAggregate.commit, List.length_drop, List.length_nil] at hlength
              omega
            have hcurrent : Current tree.aggregates (aggregate.commit index) := by
              obtain ⟨other, hother, hevents, hlength⟩ := slice_commit hget hle
              rw [show tree.aggregates[(aggregate.commit index).aggregate]? = some aggregate
                from hget] at hother
              cases hother
              exact ⟨hne, aggregate, hget, rfl, hevents, hlength⟩
            have hwaiting : (aggregate.commit index :: tree.waiting).Perm
                (waiting { tree with
                  completion := .handling result (aggregate.commit index) remaining }) := by
              unfold waiting
              rw [hold, Option.toList_none, List.append_nil]
              exact (List.perm_append_singleton _ _).symm
            refine ⟨h.collected.of_completion hopened (by intro _ _ _ hcontra; cases hcontra),
              ((h.cursors.cons hcurrent hfree).perm hwaiting).congr rfl rfl rfl rfl id, ?_, ?_, ?_⟩
            · intro list hlist
              dsimp only [RootCompletion.owed] at hlist
              split_ifs at hlist with hsuccess
              cases hlist
              exact howed hsuccess
            · intro other hother others hothers
              cases hother
              rw [show tree.aggregates[(aggregate.commit index).aggregate]? = some aggregate
                from hget] at hothers
              cases hothers
              dsimp only [TrackedAggregate.commit]
              rw [List.length_drop]
              omega
            · intro other calls answer hcommitted
              cases hcommitted
      · refine hnext fun other hother => ?_
        rw [hget] at hother
        cases hother
        exact of_decide_eq_false (Bool.eq_false_iff.2 hunstaged)

theorem Tidy.continues (h : tree.Tidy) {root : CommandResult ρ ValidationResult}
    {result : AggregateRootCommitResult α κ} {remaining : List ℕ}
    (hhandling : tree.completion = .handling root result remaining)
    {prepared : Except (Thrown ValidationResult) (Preparation α σ κ)} {append : Append}
    {thrown : Option (Thrown ValidationResult)}
    (hhandled : tree.handled tree.unit.context (.commit result) prepared append = (next, thrown)) :
    (∀ error, Tidy { next with completion := .threw root error }) ∧
      (thrown = none → Tidy { next with completion := .enrolling root remaining }) := by
  have hopened := h.collected.opened_of (by rw [hhandling]; intro _ _ _ hcontra; cases hcontra)
  have hframe := handled_frame hhandled
  obtain ⟨hcollected, -, -, -, hcompleted⟩ :=
    h.collected.handled tree.unit.context (.commit result) prepared append
  rw [hhandled] at hcollected hcompleted
  have hwaiting : tree.waiting.Perm
      (result :: tree.handling.filterMap fun call => call.value.result?) := by
    unfold waiting
    rw [hhandling]
    exact List.perm_append_singleton _ _
  have hcursors := (h.cursors.perm hwaiting).handled hhandled
  have hrest : ∀ {completion : RootCompletion α κ ρ}, completion.waiting = none →
      Cursors { next with completion := completion }
        (waiting { next with completion := completion }) := by
    intro completion hnone
    unfold waiting
    dsimp only
    rw [hnone, Option.toList_none, List.append_nil, hframe.handling]
    exact hcursors.congr rfl rfl rfl rfl id
  constructor
  · intro error
    refine ⟨hcollected.of_completion (hcompleted.trans hopened)
      (by intro _ _ _ hcontra; cases hcontra), hrest rfl, ?_⟩
    exact enrolled_of_idle rfl rfl (by intro _ _ _ hcontra; cases hcontra)
  · rintro rfl
    refine ⟨hcollected.of_completion (hcompleted.trans hopened)
      (by intro _ _ _ hcontra; cases hcontra), hrest rfl, ?_, ?_, ?_⟩
    · intro list hlist index other hother hlt
      dsimp only [RootCompletion.owed] at hlist
      split_ifs at hlist with hsuccess
      cases hlist
      have howed : tree.completion.owed = some (result.aggregate :: remaining) := by
        rw [hhandling]
        exact if_pos hsuccess
      obtain ⟨aggregate, hget, hpending, hstaged⟩ := hframe.aggregates index other hother
      rw [hpending] at hlt
      have hmem := h.enrolled.owed _ howed index aggregate hget (Nat.lt_of_le_of_lt hstaged hlt)
      refine (List.mem_cons.1 hmem).resolve_left ?_
      rintro rfl
      -- the aggregate at hand has been staged as a whole
      rcases handled_cases hhandled with ⟨error, unit, hthrown, -⟩ |
        ⟨routed, accepted, hclosed, -⟩ | ⟨routed, unit, -, -, -, -, -, rfl⟩
      · cases hthrown
      · rw [hopened] at hclosed
        cases hclosed
      · obtain ⟨old, hold, rfl⟩ := getElem?_modify_eq_some.1 hother
        rw [hget] at hold
        cases hold
        rw [if_pos rfl] at hlt
        have hcovers := h.enrolled.covers result (by rw [hhandling]; rfl) aggregate hget
        obtain ⟨-, current, hcurrent, hstart, -⟩ :=
          h.cursors.current result (hwaiting.mem_iff.2 List.mem_cons_self)
        rw [hget] at hcurrent
        cases hcurrent
        rw [(routed.entries_commit result).1] at hlt
        exact absurd hlt (by
          change ¬ aggregate.staged + result.events.length < aggregate.pending.length
          omega)
    · intro other hother
      cases hother
    · intro other calls answer hcommitted
      cases hcommitted

theorem Tidy.commitUnit (h : tree.Tidy) {result : CommandResult ρ ValidationResult}
    (henrolling : tree.completion = .enrolling result []) {timeout : Option CompletionTimeout}
    {calls : CommitCalls} :
    Tidy { tree with
      unit := (tree.unit.commit result timeout calls).unit
      issued := tree.issued ++ (tree.unit.commit result timeout calls).issued.toList
      completion := .committed result calls (tree.unit.commit result timeout calls).answer } where
  collected := h.collected.commitUnit
    (h.collected.opened_of (by rw [henrolling]; intro _ _ _ hcontra; cases hcontra))
  cursors := by
    have hsame : waiting { tree with
        unit := (tree.unit.commit result timeout calls).unit
        issued := tree.issued ++ (tree.unit.commit result timeout calls).issued.toList
        completion := .committed result calls (tree.unit.commit result timeout calls).answer } =
        tree.waiting := by
      unfold waiting
      rw [henrolling]
      rfl
    rw [hsame]
    refine h.cursors.congr rfl rfl rfl rfl fun hfalse => ?_
    have hclosed := (commit_unit tree.unit result timeout calls).2.2
    cases hclosed.symm.trans hfalse
  enrolled := by
    have hopened := h.collected.opened_of
      (by rw [henrolling]; intro _ _ _ hcontra; cases hcontra)
    refine ⟨?_, ?_, ?_⟩
    · intro list hlist
      dsimp only [RootCompletion.owed] at hlist
      refine h.enrolled.owed list ?_
      rw [henrolling]
      exact hlist
    · intro other hother
      cases hother
    · intro other called answer hcommitted hsuccess append happend
      dsimp only at happend
      rw [h.cursors.direct hopened] at happend
      cases happend

/-- Orderly steps keep the tree tidy. -/
theorem tidy_step {timeout : Option CompletionTimeout} {event : TreeEvent α σ κ ρ}
    (h : tree.Tidy) (horderly : tree.Orderly event)
    (hstep : step timeout tree event = some next) : next.Tidy := by
  have hcollected := (collected_step h.collected hstep).1
  cases event with
  | track sourceId scope reference =>
      dsimp only [step] at hstep
      split_ifs at hstep with hclosed
      cases hstep
      refine ⟨hcollected, h.cursors.applies (applies_track _ rfl), ?_, ?_, h.enrolled.direct⟩
      · intro list hlist index other hother hunstaged
        rcases (applies_track tree.aggregates rfl).new index other hother with
          ⟨aggregate, hget, -⟩ | ⟨hle, -⟩
        · have hsame : tree.aggregates[index]? = some other := by
            rw [← hother]
            exact (List.getElem?_append_left (List.getElem?_eq_some_iff.1 hget).1).symm
          exact h.enrolled.owed list hlist index other hsame hunstaged
        · change (tree.aggregates ++ _)[index]? = some other at hother
          rw [List.getElem?_append_right hle] at hother
          obtain ⟨hindex, rfl⟩ := List.getElem?_eq_some_iff.1 hother
          rw [List.getElem_singleton] at hunstaged
          cases hunstaged
      · intro result hresult other hother
        obtain ⟨-, aggregate, hget, -⟩ := h.cursors.current result (by
          unfold waiting
          rw [show tree.completion.waiting = some result from hresult]
          exact List.mem_append_right _ (List.mem_singleton_self _))
        have hsame : tree.aggregates[result.aggregate]? = some other := by
          rw [← hother]
          exact (List.getElem?_append_left (List.getElem?_eq_some_iff.1 hget).1).symm
        exact h.enrolled.covers result hresult other hsame
  | apply index applied =>
      dsimp only [step] at hstep
      split_ifs at hstep
      cases hstep
      have hrunning : tree.completion = .running := horderly
      refine ⟨hcollected, h.cursors.applies (applies_apply _ _ _), enrolled_of_idle ?_ ?_ ?_⟩
      · change tree.completion.owed = none
        rw [hrunning]
        rfl
      · change tree.completion.waiting = none
        rw [hrunning]
        rfl
      · intro _ _ _ hcommitted
        rw [show tree.completion = _ from hcommitted] at hrunning
        cases hrunning
  | commit index =>
      obtain ⟨aggregate, hget, rfl⟩ := Option.map_eq_some_iff.1 hstep
      refine ⟨hcollected, ?_, h.enrolled.congr rfl rfl rfl⟩
      refine ⟨h.cursors.staged_le, ?_, h.cursors.current, h.cursors.nodup, h.cursors.direct,
        h.cursors.known, h.cursors.staged⟩
      intro result hresult
      rcases List.mem_append.1 hresult with hold | hnew
      · exact h.cursors.results result hold
      · rw [List.mem_singleton.1 hnew]
        exact slice_commit hget (h.cursors.staged_le index aggregate hget)
  | handleEvents context events scopes =>
      cases hstep
      exact h.handle fun result hresult => by cases hresult
  | handleCommit context position =>
      obtain ⟨result, hget, rfl⟩ := Option.map_eq_some_iff.1 hstep
      refine h.handle fun other hother => ?_
      cases hother
      exact ⟨h.cursors.results result (List.mem_of_getElem? hget), horderly result hget⟩
  | handled index prepared append =>
      obtain ⟨call, hcall, rfl⟩ := Option.map_eq_some_iff.1 hstep
      exact h.handled hcall
  | nestedCompleted result =>
      dsimp only [step, ChronicleUnitOfWork.nestedCompleted] at hstep
      split_ifs at hstep with hclosed
      · cases hstep
        exact h
      · cases hstep
        exact ⟨hcollected, h.cursors.congr rfl rfl rfl rfl id, h.enrolled.congr rfl rfl rfl⟩
  | nestedRefused =>
      cases hstep
      exact ⟨hcollected, h.cursors.congr rfl rfl rfl rfl id, h.enrolled.congr rfl rfl rfl⟩
  | complete result resolve =>
      dsimp only [step] at hstep
      split at hstep
      · next hrunning =>
          cases hstep
          exact h.complete hrunning result resolve
      · cases hstep
  | enroll =>
      dsimp only [step] at hstep
      split at hstep
      · next result index remaining henrolling =>
          cases hstep
          exact h.enroll henrolling (horderly result index remaining henrolling)
      · cases hstep
  | enrolled prepared append =>
      dsimp only [step] at hstep
      split at hstep
      · next result commit remaining hhandling =>
          cases hhandled : tree.handled tree.unit.context (.commit commit) prepared append with
          | mk after thrown =>
              rw [hhandled] at hstep
              obtain ⟨hthrew, hgoes⟩ := h.continues hhandling hhandled
              cases thrown with
              | some error =>
                  cases hstep
                  exact hthrew error
              | none =>
                  cases hstep
                  exact hgoes rfl
      · cases hstep
  | commitUnit calls =>
      dsimp only [step] at hstep
      split at hstep
      · next result henrolling =>
          cases hstep
          exact h.commitUnit henrolling
      · cases hstep

/-! ### Runs -/

omit [DecidableEq σ] [DecidableEq κ] in
/-- A commit that is answered with a success has issued all there was. -/
theorem commit_answer_isSuccess {unit : ChronicleUnitOfWork (EventForEventSourceId α) σ κ}
    {result final : CommandResult ρ ValidationResult} {timeout : Option CompletionTimeout}
    {calls : CommitCalls} (hopened : unit.completed = false)
    (hanswer : (unit.commit result timeout calls).answer = .ok final)
    (hsuccess : final.isSuccess = true) :
    result.isSuccess = true ∧
      ((unit.commit result timeout calls).issued = none → unit.entries = []) := by
  unfold ChronicleUnitOfWork.commit at hanswer ⊢
  split_ifs at hanswer ⊢ with hcompleted hfailed hnested hempty haborted
  · cases hanswer
    rw [hsuccess] at hfailed
    cases hfailed
  · cases hanswer
    cases hsuccess
  · cases hanswer
    exact ⟨hsuccess, fun _ => List.isEmpty_iff.1 hempty⟩
  · cases hanswer
    cases hsuccess
  · refine ⟨by simpa using hfailed, fun hissued => ?_⟩
    rw [settle_issued] at hissued
    cases hissued

/-- A root command that has succeeded has issued all that was collected. -/
def Answered (tree : CommandTree α σ κ ρ) : Prop :=
  ∀ result calls final, tree.completion = .committed result calls (.ok final) →
    final.isSuccess = true → result.isSuccess = true ∧ (tree.issued = [] → tree.collected = [])

/-- A step other than the commit leaves a committed tree as it is, and reaches none. -/
theorem committed_step {timeout : Option CompletionTimeout} {event : TreeEvent α σ κ ρ}
    (hstep : step timeout tree event = some next) {result : CommandResult ρ ValidationResult}
    {calls : CommitCalls} {answer} (hcommitted : next.completion = .committed result calls answer) :
    tree.completion = .committed result calls answer ∨
      tree.completion = .enrolling result [] ∧
        answer = (tree.unit.commit result timeout calls).answer ∧
        next.stagings = tree.stagings ∧
        next.issued = tree.issued ++ (tree.unit.commit result timeout calls).issued.toList := by
  cases event with
  | track sourceId scope reference =>
      dsimp only [step] at hstep
      split_ifs at hstep
      cases hstep
      exact .inl hcommitted
  | apply index applied =>
      dsimp only [step] at hstep
      split_ifs at hstep
      cases hstep
      exact .inl hcommitted
  | commit index =>
      obtain ⟨aggregate, -, rfl⟩ := Option.map_eq_some_iff.1 hstep
      exact .inl hcommitted
  | handleEvents context events scopes =>
      cases hstep
      exact .inl ((handle_sameRecords _ _).2.symm.trans hcommitted)
  | handleCommit context position =>
      obtain ⟨result, -, rfl⟩ := Option.map_eq_some_iff.1 hstep
      exact .inl ((handle_sameRecords _ _).2.symm.trans hcommitted)
  | handled index prepared append =>
      obtain ⟨call, -, rfl⟩ := Option.map_eq_some_iff.1 hstep
      cases hhandled : ({ tree with handling := tree.handling.eraseIdx index } :
          CommandTree α σ κ ρ).handled call.context call.value prepared append with
      | mk after thrown =>
          rw [hhandled] at hcommitted
          exact .inl ((handled_frame hhandled).completion.symm.trans hcommitted)
  | nestedCompleted result =>
      dsimp only [step, ChronicleUnitOfWork.nestedCompleted] at hstep
      split_ifs at hstep
      · cases hstep
        exact .inl hcommitted
      · cases hstep
        exact .inl hcommitted
  | nestedRefused =>
      cases hstep
      exact .inl hcommitted
  | complete result resolve =>
      dsimp only [step] at hstep
      split at hstep
      · cases hstep
        unfold complete at hcommitted
        split_ifs at hcommitted
        split at hcommitted
        · cases hcommitted
        · cases hcommitted
      · cases hstep
  | enroll =>
      dsimp only [step] at hstep
      split at hstep
      · cases hstep
        unfold enroll at hcommitted
        split at hcommitted
        · cases hcommitted
        · split_ifs at hcommitted
          split at hcommitted
          · cases hcommitted
          · cases hcommitted
      · cases hstep
  | enrolled prepared append =>
      dsimp only [step] at hstep
      split at hstep
      · split at hstep
        · cases hstep
          cases hcommitted
        · cases hstep
          cases hcommitted
      · cases hstep
  | commitUnit calls =>
      dsimp only [step] at hstep
      split at hstep
      · next henrolling =>
          cases hstep
          cases hcommitted
          exact .inr ⟨henrolling, rfl, rfl, rfl⟩
      · cases hstep

theorem answered_step {timeout : Option CompletionTimeout} {event : TreeEvent α σ κ ρ}
    (hcollected : tree.Collected) (h : tree.Answered)
    (hstep : step timeout tree event = some next) : next.Answered := by
  intro result calls final hcommitted hsuccess
  rcases committed_step hstep hcommitted with hold | ⟨henrolling, hanswer, hstagings, hissued⟩
  · have hclosed := (hcollected.committed result calls ⟨_, hold⟩).1
    obtain ⟨-, hstagings, hissued⟩ := closed_step hcollected hclosed hstep
    have hcollected' : next.collected = tree.collected := by
      rw [collected, hstagings]
      rfl
    rw [hissued, hcollected']
    exact h result calls final hold hsuccess
  · have hopened := hcollected.opened_of
      (by rw [henrolling]; intro _ _ _ hcontra; cases hcontra)
    obtain ⟨hroot, hnone⟩ := commit_answer_isSuccess hopened hanswer.symm hsuccess
    refine ⟨hroot, fun hempty => ?_⟩
    rw [hissued, (hcollected.opened (hcollected.uncommitted hopened)).2, List.nil_append] at hempty
    have hcollected' : next.collected = tree.collected := by
      rw [collected, hstagings]
      rfl
    rw [hcollected', ← hcollected.entries]
    exact hnone (Option.toList_eq_nil_iff.1 hempty)

theorem tidy_start (context : CommandContext) :
    (start context : CommandTree α σ κ ρ).Tidy where
  collected := collected_start context
  cursors := by
    refine ⟨?_, ?_, ?_, List.nodup_nil, fun _ => rfl, ?_, ?_⟩
    · intro index aggregate hget
      cases hget
    · intro result hresult
      cases hresult
    · intro result hresult
      cases hresult
    · intro staging hstaging
      cases hstaging
    · intro _ index aggregate hget
      cases hget
  enrolled := enrolled_of_idle rfl rfl (by intro _ _ _ hcontra; cases hcontra)

/-- In every run in which no two calls of `handle` for one aggregate overlap and nothing is
applied once the root command completes, the events of each aggregate are appended once. -/
theorem appended_once (context : CommandContext) (timeout : Option CompletionTimeout)
    {events : List (TreeEvent α σ κ ρ)} {tree : CommandTree α σ κ ρ}
    (horderly : (machine context timeout).Within Orderly (start context) events)
    (hrun : (machine context timeout).exec (start context) events = some tree) :
    AppendedOnce tree := by
  obtain ⟨htidy, hanswered⟩ : tree.Tidy ∧ tree.Answered :=
    (machine context timeout).exec_preserves (P := fun tree => tree.Tidy ∧ tree.Answered)
      (fun _ _ _ h hevent hstep =>
        ⟨tidy_step h.1 hevent hstep, answered_step h.1.collected h.2 hstep⟩)
      ⟨tidy_start context, fun _ _ _ hcommitted => by cases hcommitted⟩ horderly hrun
  refine ⟨?_, fun _ _ => handle_of_outOfDate, ?_, ?_, ?_⟩
  · intro aggregate hmem
    obtain ⟨index, hget⟩ := List.mem_iff_getElem?.1 hmem
    exact htidy.cursors.staged_le index aggregate hget
  · rintro result hresult ⟨aggregate, hget, hreason⟩
    obtain ⟨-, other, hother, hstart, -, hlength⟩ := htidy.cursors.current result hresult
    rw [hget] at hother
    cases hother
    rcases hreason with hne | hlt
    · exact hne hstart
    · omega
  · by_cases hcommits : ∃ result calls, tree.Commits result calls
    · obtain ⟨result, calls, hcommits⟩ := hcommits
      rw [(htidy.collected.committed result calls hcommits).2, htidy.collected.entries]
      split_ifs
      · exact .inr rfl
      · exact .inl rfl
    · refine .inl (htidy.collected.opened fun result calls h => hcommits ⟨result, calls, h⟩).2
  · intro result calls final hcommitted hsuccess index aggregate hget
    obtain ⟨hroot, hempty⟩ := hanswered result calls final hcommitted hsuccess
    have hdirect := htidy.enrolled.direct result calls _ hcommitted hroot
    have hall : aggregate.pending.take aggregate.staged = aggregate.pending := by
      refine List.take_of_length_le (Nat.le_of_not_lt fun hlt => ?_)
      have howed : tree.completion.owed = some [] := by
        rw [hcommitted]
        exact if_pos hroot
      exact absurd (htidy.enrolled.owed [] howed index aggregate hget hlt) List.not_mem_nil
    have hstaged := htidy.cursors.staged hdirect index aggregate hget
    rw [hall] at hstaged
    have hnone : (tree.direct.filter fun append => append.1 = some index) = [] := by
      refine List.filter_eq_nil_iff.2 fun append happend => ?_
      rw [hdirect append happend]
      simp
    rw [appendedFor, hnone, List.flatMap_nil, List.append_nil]
    split_ifs with hissued
    · have hnil : tree.stagedFor index = [] := by
        refine List.flatMap_eq_nil_iff.2 fun staging hstaging => ?_
        exact List.flatMap_eq_nil_iff.1 (hempty hissued) staging (List.mem_filter.1 hstaging).1
      rw [hnil] at hstaged
      exact hstaged
    · exact hstaged

end Steps

/-! ### Two calls for one aggregate -/

/-- An aggregate applies an event, and its command, which is not waited for, returns the commit
result: the handler has checked it and waits for the event store. -/
def applyingRun : List (TreeEvent ℕ ℕ String Unit) :=
  [.track "source-1" "tail" [], .apply 0 1, .commit 0, .handleCommit rootContext 0]

/-- The root command stages what the aggregate has left, then the handler goes on, and the root
command commits. -/
def overlappingRun : List (TreeEvent ℕ ℕ String Unit) :=
  applyingRun ++ [.complete rootResult none, .enroll,
    .enrolled (.ok plainPreparation) acceptedCalls.append,
    .handled 0 (.ok plainPreparation) acceptedCalls.append, .commitUnit acceptedCalls]

/-- The handler goes on before the root command completes. -/
def orderlyRun : List (TreeEvent ℕ ℕ String Unit) :=
  applyingRun ++ [.handled 0 (.ok plainPreparation) acceptedCalls.append,
    .complete rootResult none, .commitUnit acceptedCalls]

theorem overlapping_calls_append_twice : ∃ tree : CommandTree ℕ ℕ String Unit,
    (machine rootContext none).exec (start rootContext) overlappingRun = some tree ∧
    ¬ AppendedOnce tree := by
  refine ⟨_, rfl, fun h => ?_⟩
  exact absurd (h.staged_le _ List.mem_cons_self) (by decide)

theorem appended_once_orderly : ∃ tree : CommandTree ℕ ℕ String Unit,
    AppendedOnce tree ∧ tree.issued = [[⟨"source-1", 1, []⟩]] := by
  have horderly : (machine rootContext none).Within Orderly (start rootContext) orderlyRun := by
    refine ⟨trivial, fun tracked htracked => ?_⟩
    obtain rfl := Option.some.inj htracked
    refine ⟨rfl, fun applied happlied => ?_⟩
    obtain rfl := Option.some.inj happlied
    refine ⟨trivial, fun returned hreturned => ?_⟩
    obtain rfl := Option.some.inj hreturned
    refine ⟨fun result _ other hother => ?_, fun checked hchecked => ?_⟩
    · cases hother
    · obtain rfl := Option.some.inj hchecked
      exact ⟨trivial, fun _ _ => ⟨trivial, fun _ _ => ⟨trivial, fun _ _ => trivial⟩⟩⟩
  exact ⟨_, appended_once rootContext none horderly rfl, rfl⟩

end CommandTree

end Arc.Chronicle
