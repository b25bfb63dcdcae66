import Arc.Foundation.InsertionMap
import Mathlib.Data.Finset.Card

/-!
# Revision precedence on one hub connection

`SubscriptionRevisions` decides which subscribe and unsubscribe requests of one
connection are obeyed. Active entries and unsubscribe tombstones share one map,
kept in insertion order; every write deletes its key first, so the tombstones
stand in the order in which they were last recorded and `prune` evicts the
oldest ones.

Nothing below depends on the clock being monotone: a run is any list of
operations, each with the time at which it is performed.
-/

namespace Arc.Observable

/-- What is remembered about one query id. A tombstone is an inactive entry with
the time at which it was recorded. -/
structure RevisionState where
  revision : Option ℕ
  active : Bool
  requestKey : Option String
  tombstoneAt : Option ℤ
  deriving DecidableEq, Repr

/-- Two minutes, in milliseconds. -/
def retentionMs : ℤ := 2 * 60 * 1000

namespace RevisionState

def isTombstone (s : RevisionState) : Bool := !s.active && s.tombstoneAt.isSome

/-- The retention of the tombstone has elapsed. -/
def expired (now : ℤ) (s : RevisionState) : Bool :=
  !s.active && s.tombstoneAt.any fun recorded => decide (retentionMs ≤ now - recorded)

/-- The entry an accepted subscribe stores. -/
def subscribed (revision : Option ℕ) (requestKey : String) : RevisionState where
  revision := revision
  active := true
  requestKey := some requestKey
  tombstoneAt := none

/-- The entry an accepted revisioned unsubscribe stores. -/
def tombstone (revision : ℕ) (now : ℤ) : RevisionState where
  revision := some revision
  active := false
  requestKey := none
  tombstoneAt := some now

@[simp] theorem isTombstone_subscribed (revision : Option ℕ) (requestKey : String) :
    (subscribed revision requestKey).isTombstone = false := rfl

@[simp] theorem isTombstone_tombstone (revision : ℕ) (now : ℤ) :
    (tombstone revision now).isTombstone = true := rfl

theorem not_expired_of_active {s : RevisionState} (now : ℤ) (h : s.active = true) :
    s.expired now = false := by
  simp [expired, h]

theorem not_isTombstone_of_active {s : RevisionState} (h : s.active = true) :
    s.isTombstone = false := by
  simp [isTombstone, h]

theorem expired_tombstone {revision : ℕ} {recorded now : ℤ} :
    (tombstone revision recorded).expired now = true ↔ retentionMs ≤ now - recorded := by
  simp [expired, tombstone]

end RevisionState

/-- The revision table of one connection. -/
structure SubscriptionRevisions where
  maximumTombstones : ℕ
  states : InsertionMap String RevisionState

namespace SubscriptionRevisions

/-- A table without entries. -/
def new (maximumTombstones : ℕ) : SubscriptionRevisions where
  maximumTombstones := maximumTombstones
  states := .empty

def activeCount (r : SubscriptionRevisions) : ℕ :=
  (r.states.entries.filter fun e => e.2.active).length

def isActive (r : SubscriptionRevisions) (queryId : String) (revision : Option ℕ) : Bool :=
  (r.states.get queryId).any fun s => s.active && decide (s.revision = revision)

/-- The tombstones, oldest first. -/
def tombstones (states : InsertionMap String RevisionState) : List (String × RevisionState) :=
  states.entries.filter fun e => e.2.isTombstone

/-- The ids of the oldest tombstones in excess of the maximum. -/
def surplus (maximumTombstones : ℕ) (states : InsertionMap String RevisionState) : List String :=
  ((tombstones states).take ((tombstones states).length - maximumTombstones)).map Prod.fst

/-- The entries left once the expired tombstones are gone. -/
def unexpired (r : SubscriptionRevisions) (now : ℤ) : InsertionMap String RevisionState :=
  r.states.filter fun _ s => !s.expired now

/-- Drop the expired tombstones, then the oldest ones in excess of the maximum. -/
def prune (r : SubscriptionRevisions) (now : ℤ) : SubscriptionRevisions where
  maximumTombstones := r.maximumTombstones
  states := (r.unexpired now).filter fun id _ =>
    decide (id ∉ surplus r.maximumTombstones (r.unexpired now))

/-- Whether a subscribe is refused, given the entry stored for its query id. -/
def refusesSubscribe (existing : Option RevisionState) (revision : Option ℕ)
    (requestKey : String) : Bool :=
  match existing.bind RevisionState.revision with
  | some last => revision.all fun n => decide (n ≤ last)
  | none => revision.isNone &&
      existing.any fun s => s.active && decide (s.requestKey = some requestKey)

/-- Whether an unsubscribe is refused, given the entry stored for its query id. -/
def refusesUnsubscribe (existing : Option RevisionState) (revision : Option ℕ) : Bool :=
  match existing.bind RevisionState.revision with
  | some last => revision.all fun n => decide (n < last)
  | none => revision.isNone && !existing.any RevisionState.active

def subscribe (r : SubscriptionRevisions) (queryId : String) (revision : Option ℕ)
    (requestKey : String) (now : ℤ) : SubscriptionRevisions × Bool :=
  let pruned := r.prune now
  if refusesSubscribe (pruned.states.get queryId) revision requestKey then (pruned, false)
  else
    ({ pruned with
        states := (pruned.states.delete queryId).set queryId (.subscribed revision requestKey) },
      true)

def unsubscribe (r : SubscriptionRevisions) (queryId : String) (revision : Option ℕ)
    (now : ℤ) : SubscriptionRevisions × Bool :=
  let pruned := r.prune now
  if refusesUnsubscribe (pruned.states.get queryId) revision then (pruned, false)
  else match revision with
    | none => ({ pruned with states := pruned.states.delete queryId }, true)
    | some n =>
        (prune { pruned with
          states := (pruned.states.delete queryId).set queryId (.tombstone n now) } now, true)

/-- The natural end of a subscription; ignored unless that very revision is active. -/
def complete (r : SubscriptionRevisions) (queryId : String) (revision : Option ℕ)
    (now : ℤ) : SubscriptionRevisions × Bool :=
  if r.isActive queryId revision then r.unsubscribe queryId revision now else (r, false)

/-! ### Pruning -/

@[simp] theorem maximumTombstones_prune (r : SubscriptionRevisions) (now : ℤ) :
    (r.prune now).maximumTombstones = r.maximumTombstones := rfl

theorem mem_entries_unexpired {r : SubscriptionRevisions} {now : ℤ} {id : String}
    {s : RevisionState} :
    (id, s) ∈ (r.unexpired now).entries ↔
      (id, s) ∈ r.states.entries ∧ s.expired now = false := by
  simp [unexpired, InsertionMap.mem_entries_filter]

theorem mem_entries_prune {r : SubscriptionRevisions} {now : ℤ} {id : String}
    {s : RevisionState} :
    (id, s) ∈ (r.prune now).states.entries ↔
      ((id, s) ∈ r.states.entries ∧ s.expired now = false) ∧
        id ∉ surplus r.maximumTombstones (r.unexpired now) := by
  simp [prune, InsertionMap.mem_entries_filter, mem_entries_unexpired]

theorem get_of_get_prune {r : SubscriptionRevisions} {now : ℤ} {id : String}
    {s : RevisionState} (h : (r.prune now).states.get id = some s) :
    r.states.get id = some s := by
  rw [InsertionMap.get_eq_some_iff] at h ⊢
  exact (mem_entries_prune.1 h).1.1

/-- Only tombstones are in excess. -/
theorem exists_tombstone_of_mem_surplus {maximum : ℕ}
    {states : InsertionMap String RevisionState} {id : String}
    (h : id ∈ surplus maximum states) :
    ∃ s, (id, s) ∈ states.entries ∧ s.isTombstone = true := by
  obtain ⟨⟨id', s⟩, hmem, rfl⟩ := List.mem_map.1 h
  have htomb : (id', s) ∈ tombstones states := List.mem_of_mem_take hmem
  exact ⟨s, List.mem_filter.1 htomb⟩

/-- Pruning never evicts an active entry. -/
theorem get_prune_of_active {r : SubscriptionRevisions} {now : ℤ} {id : String}
    {s : RevisionState} (hget : r.states.get id = some s) (hactive : s.active = true) :
    (r.prune now).states.get id = some s := by
  have hmem := InsertionMap.get_eq_some_iff.1 hget
  have hlive := RevisionState.not_expired_of_active now hactive
  refine InsertionMap.get_eq_some_iff.2 (mem_entries_prune.2 ⟨⟨hmem, hlive⟩, ?_⟩)
  intro hsurplus
  obtain ⟨s', hmem', htomb⟩ := exists_tombstone_of_mem_surplus hsurplus
  have hsame := r.states.entries_functional hmem (mem_entries_unexpired.1 hmem').1
  rw [← hsame, RevisionState.not_isTombstone_of_active hactive] at htomb
  cases htomb

theorem nodup_keys_tombstones (states : InsertionMap String RevisionState) :
    ((tombstones states).map Prod.fst).Nodup :=
  states.nodup_keys.sublist (List.filter_sublist.map Prod.fst)

/-- The tombstones a pruning keeps are the youngest ones. -/
theorem tombstones_prune (r : SubscriptionRevisions) (now : ℤ) :
    tombstones (r.prune now).states =
      (tombstones (r.unexpired now)).drop
        ((tombstones (r.unexpired now)).length - r.maximumTombstones) := by
  rw [← InsertionMap.filter_not_mem_take _ (nodup_keys_tombstones _)]
  simp only [tombstones, prune, surplus, InsertionMap.filter, List.filter_filter]
  congr 1
  funext e
  rw [Bool.and_comm]
  congr

/-- After a pruning at most `maximumTombstones` tombstones are left. -/
theorem length_tombstones_prune_le (r : SubscriptionRevisions) (now : ℤ) :
    (tombstones (r.prune now).states).length ≤ r.maximumTombstones := by
  rw [tombstones_prune, List.length_drop]
  omega

/-! ### The active entries

`activeRevision` forgets the tombstones: what is left is a partial function from
query ids to revisions, and the operations are updates of it. -/

/-- The revision under which an id is active, if it is. -/
def activeRevision (r : SubscriptionRevisions) (queryId : String) : Option (Option ℕ) :=
  ((r.states.get queryId).filter RevisionState.active).map RevisionState.revision

theorem activeRevision_eq_some_iff {r : SubscriptionRevisions} {id : String}
    {revision : Option ℕ} :
    r.activeRevision id = some revision ↔
      ∃ s, r.states.get id = some s ∧ s.active = true ∧ s.revision = revision := by
  simp [activeRevision, Option.filter_eq_some_iff, and_assoc]

theorem isActive_iff {r : SubscriptionRevisions} {id : String} {revision : Option ℕ} :
    r.isActive id revision = true ↔ r.activeRevision id = some revision := by
  rw [activeRevision_eq_some_iff, isActive, Option.any_eq_true]
  simp

@[simp] theorem activeRevision_prune (r : SubscriptionRevisions) (now : ℤ) (id : String) :
    (r.prune now).activeRevision id = r.activeRevision id := by
  ext revision
  rw [activeRevision_eq_some_iff, activeRevision_eq_some_iff]
  constructor
  · rintro ⟨s, hget, hs⟩
    exact ⟨s, get_of_get_prune hget, hs⟩
  · rintro ⟨s, hget, hactive, hrevision⟩
    exact ⟨s, get_prune_of_active hget hactive, hactive, hrevision⟩

theorem activeRevision_delete_set (r : SubscriptionRevisions) (queryId id : String)
    (s : RevisionState) (maximum : ℕ) :
    activeRevision ⟨maximum, (r.states.delete queryId).set queryId s⟩ id =
      if id = queryId then (if s.active then some s.revision else none)
      else r.activeRevision id := by
  by_cases h : id = queryId
  · subst h
    by_cases hs : s.active = true <;> simp [activeRevision, hs]
  · simp [activeRevision, h, InsertionMap.get_set_of_ne, InsertionMap.get_delete_of_ne]

theorem activeRevision_delete (r : SubscriptionRevisions) (queryId id : String) (maximum : ℕ) :
    activeRevision ⟨maximum, r.states.delete queryId⟩ id =
      if id = queryId then none else r.activeRevision id := by
  by_cases h : id = queryId
  · subst h
    simp [activeRevision]
  · simp [activeRevision, h, InsertionMap.get_delete_of_ne]

theorem activeRevision_subscribe (r : SubscriptionRevisions) (queryId : String)
    (revision : Option ℕ) (requestKey : String) (now : ℤ) (id : String) :
    (r.subscribe queryId revision requestKey now).1.activeRevision id =
      if (r.subscribe queryId revision requestKey now).2 = true ∧ id = queryId
      then some revision else r.activeRevision id := by
  simp only [subscribe]
  split
  · simp
  · simpa [RevisionState.subscribed] using
      activeRevision_delete_set (r.prune now) queryId id (.subscribed revision requestKey) _

theorem activeRevision_unsubscribe (r : SubscriptionRevisions) (queryId : String)
    (revision : Option ℕ) (now : ℤ) (id : String) :
    (r.unsubscribe queryId revision now).1.activeRevision id =
      if (r.unsubscribe queryId revision now).2 = true ∧ id = queryId
      then none else r.activeRevision id := by
  simp only [unsubscribe]
  split
  · simp
  · cases revision with
    | none => simpa using activeRevision_delete (r.prune now) queryId id _
    | some n =>
        rw [activeRevision_prune]
        simpa [RevisionState.tombstone] using
          activeRevision_delete_set (r.prune now) queryId id (.tombstone n now) _

/-- An unsubscribe with the very revision that is active is never refused. -/
theorem unsubscribe_accepted {r : SubscriptionRevisions} {id : String} {revision : Option ℕ}
    (h : r.activeRevision id = some revision) (now : ℤ) :
    (r.unsubscribe id revision now).2 = true := by
  have hpruned := (r.activeRevision_prune now id).trans h
  obtain ⟨s, hget, hactive, hrevision⟩ := activeRevision_eq_some_iff.1 hpruned
  have haccepts : refusesUnsubscribe ((r.prune now).states.get id) revision = false := by
    rw [hget, ← hrevision, refusesUnsubscribe]
    cases hs : s.revision <;> simp [hs, hactive]
  cases revision <;> simp [unsubscribe, haccepts]

/-- The end of an active subscription deactivates its id and no other. -/
theorem activeRevision_complete {r : SubscriptionRevisions} {queryId : String}
    {revision : Option ℕ} (h : r.activeRevision queryId = some revision) (now : ℤ)
    (id : String) :
    (r.complete queryId revision now).1.activeRevision id =
      if id = queryId then none else r.activeRevision id := by
  rw [complete, if_pos (isActive_iff.2 h), activeRevision_unsubscribe, unsubscribe_accepted h]
  simp

/-- The active entries are counted by their ids. -/
theorem activeCount_eq (r : SubscriptionRevisions) :
    r.activeCount = (r.states.filter fun _ s => s.active).size := rfl

theorem mem_keys_filter_active {r : SubscriptionRevisions} {id : String} :
    id ∈ (r.states.filter fun _ s => s.active).keys ↔
      ∃ revision, r.activeRevision id = some revision := by
  rw [InsertionMap.mem_keys_iff, InsertionMap.get_filter]
  simp [activeRevision]

end SubscriptionRevisions

end Arc.Observable
