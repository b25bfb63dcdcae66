import Mathlib.Data.List.Basic
import Mathlib.Data.List.Nodup
import Mathlib.Data.List.Perm.Basic

/-!
# Maps that remember insertion order

`InsertionMap κ α` is a finite map listed in the order its keys were first
inserted, the order in which an ECMAScript `Map` is iterated. Setting a present
key replaces its value in place; deleting a key and setting it again moves it to
the end. The key list carries its own `Nodup` proof, so a lookup and a
membership statement are interchangeable (`get_eq_some_iff`).
-/

namespace Arc

/-- A finite map whose entries stand in insertion order. -/
structure InsertionMap (κ α : Type*) where
  entries : List (κ × α)
  nodup_keys : (entries.map Prod.fst).Nodup

namespace InsertionMap

variable {κ α : Type*}

@[ext] theorem ext {m n : InsertionMap κ α} (h : m.entries = n.entries) : m = n := by
  cases m
  cases n
  cases h
  rfl

/-- Deleting the keys of the first `k` entries of a list with distinct keys
leaves the entries after them. -/
theorem filter_not_mem_take [DecidableEq κ] (l : List (κ × α))
    (hl : (l.map Prod.fst).Nodup) (k : ℕ) :
    l.filter (fun e => decide (e.1 ∉ (l.take k).map Prod.fst)) = l.drop k := by
  have hnodup := hl
  rw [← List.take_append_drop k l, List.map_append, List.nodup_append] at hnodup
  conv_lhs => rw [← List.take_append_drop k l, List.filter_append]
  rw [List.take_append_drop]
  have hleft : (l.take k).filter
      (fun e => decide (e.1 ∉ (l.take k).map Prod.fst)) = [] := by
    rw [List.filter_eq_nil_iff]
    intro e he
    rw [decide_eq_true_iff, not_not]
    exact List.mem_map_of_mem he
  have hright : (l.drop k).filter
      (fun e => decide (e.1 ∉ (l.take k).map Prod.fst)) = l.drop k := by
    rw [List.filter_eq_self]
    intro e he
    have hdisjoint := hnodup.2.2
    rw [decide_eq_true_iff]
    intro hmem
    exact hdisjoint e.1 hmem e.1 (List.mem_map_of_mem he) rfl
  rw [hleft, hright, List.nil_append]

/-- The map without entries. -/
def empty : InsertionMap κ α := ⟨[], List.nodup_nil⟩

@[simp] theorem entries_empty : (empty : InsertionMap κ α).entries = [] := rfl

/-- The keys in insertion order. -/
def keys (m : InsertionMap κ α) : List κ := m.entries.map Prod.fst

/-- The number of entries. -/
def size (m : InsertionMap κ α) : ℕ := m.entries.length

theorem length_keys (m : InsertionMap κ α) : m.keys.length = m.size :=
  List.length_map _

/-- Two entries of one key are the same entry. -/
theorem entries_functional (m : InsertionMap κ α) {k : κ} {v w : α}
    (hv : (k, v) ∈ m.entries) (hw : (k, w) ∈ m.entries) : v = w := by
  have h := List.inj_on_of_nodup_map m.nodup_keys hv hw rfl
  exact congrArg Prod.snd h

/-- Two maps with the same keys have the same number of entries. -/
theorem size_eq_of_keys {β : Type*} {m : InsertionMap κ α} {n : InsertionMap κ β}
    (h : ∀ k, k ∈ m.keys ↔ k ∈ n.keys) : m.size = n.size := by
  rw [← m.length_keys, ← n.length_keys]
  exact ((List.perm_ext_iff_of_nodup m.nodup_keys n.nodup_keys).2 h).length_eq

/-- Keep the entries that satisfy `p`, in their order. -/
def filter (m : InsertionMap κ α) (p : κ → α → Bool) : InsertionMap κ α where
  entries := m.entries.filter fun e => p e.1 e.2
  nodup_keys := m.nodup_keys.sublist (List.filter_sublist.map Prod.fst)

theorem mem_entries_filter {m : InsertionMap κ α} {p : κ → α → Bool} {k : κ} {v : α} :
    (k, v) ∈ (m.filter p).entries ↔ (k, v) ∈ m.entries ∧ p k v = true :=
  List.mem_filter

variable [DecidableEq κ]

/-- The value stored under `k`. -/
def get (m : InsertionMap κ α) (k : κ) : Option α := m.entries.lookup k

/-- A lookup answers exactly the stored entry. -/
theorem get_eq_some_iff {m : InsertionMap κ α} {k : κ} {v : α} :
    m.get k = some v ↔ (k, v) ∈ m.entries := by
  constructor
  · intro h
    obtain ⟨l, r, hsplit, -⟩ := List.lookup_eq_some_iff.1 h
    rw [hsplit]
    simp
  · intro h
    obtain ⟨l, r, hsplit⟩ := List.append_of_mem h
    refine List.lookup_eq_some_iff.2 ⟨l, r, hsplit, ?_⟩
    intro p hp
    have hnodup := m.nodup_keys
    rw [hsplit, List.map_append, List.map_cons] at hnodup
    have hne : p.1 ≠ k := by
      intro heq
      exact (List.nodup_append.1 hnodup).2.2 p.1 (List.mem_map_of_mem hp) k
        List.mem_cons_self heq
    simpa [bne_iff_ne] using fun h => hne h.symm

theorem get_eq_none_iff {m : InsertionMap κ α} {k : κ} :
    m.get k = none ↔ k ∉ m.keys := by
  rw [Option.eq_none_iff_forall_ne_some]
  constructor
  · intro h hk
    obtain ⟨⟨k', v⟩, hmem, rfl⟩ := List.mem_map.1 hk
    exact h v (get_eq_some_iff.2 hmem)
  · intro h v hv
    exact h (List.mem_map_of_mem (f := Prod.fst) (get_eq_some_iff.1 hv))

theorem mem_keys_iff {m : InsertionMap κ α} {k : κ} :
    k ∈ m.keys ↔ ∃ v, m.get k = some v := by
  rw [← Option.isSome_iff_exists, ← not_iff_not, ← get_eq_none_iff,
    Option.not_isSome_iff_eq_none]

theorem eq_empty_of_get {m : InsertionMap κ α} (h : ∀ k, m.get k = none) : m = empty := by
  ext1
  rw [entries_empty, List.eq_nil_iff_forall_not_mem]
  rintro ⟨k, v⟩ hmem
  have hget := get_eq_some_iff.2 hmem
  rw [h k] at hget
  cases hget

@[simp] theorem get_empty (k : κ) : (empty : InsertionMap κ α).get k = none := rfl

theorem get_filter {m : InsertionMap κ α} {p : κ → α → Bool} {k : κ} :
    (m.filter p).get k = (m.get k).filter (p k) := by
  ext v
  rw [get_eq_some_iff, mem_entries_filter, Option.filter_eq_some_iff, get_eq_some_iff]

/-- Remove the entry of `k`, if there is one. -/
def delete (m : InsertionMap κ α) (k : κ) : InsertionMap κ α :=
  m.filter fun k' _ => decide (k' ≠ k)

@[simp] theorem get_delete_self (m : InsertionMap κ α) (k : κ) : (m.delete k).get k = none := by
  simp [delete, get_filter]

theorem get_delete_of_ne (m : InsertionMap κ α) {k k' : κ} (h : k' ≠ k) :
    (m.delete k).get k' = m.get k' := by
  ext v
  simp [delete, get_eq_some_iff, mem_entries_filter, h]

/-- Set the value of `k`: in place when the key is present, at the end otherwise. -/
def set (m : InsertionMap κ α) (k : κ) (v : α) : InsertionMap κ α :=
  if h : k ∈ m.keys then
    { entries := m.entries.map fun e => if e.1 = k then (k, v) else e
      nodup_keys := by
        have hkeys : (m.entries.map fun e => if e.1 = k then (k, v) else e).map Prod.fst =
            m.entries.map Prod.fst := by
          rw [List.map_map]
          apply List.map_congr_left
          intro e _
          by_cases he : e.1 = k <;> simp [he]
        rw [hkeys]
        exact m.nodup_keys }
  else
    { entries := m.entries ++ [(k, v)]
      nodup_keys := by
        rw [List.map_append]
        refine List.nodup_append.2 ⟨m.nodup_keys, List.nodup_singleton _, ?_⟩
        intro a ha b hb hab
        obtain rfl : b = k := by simpa using hb
        exact h (hab ▸ ha) }

theorem entries_set_of_not_mem {m : InsertionMap κ α} {k : κ} {v : α} (h : k ∉ m.keys) :
    (m.set k v).entries = m.entries ++ [(k, v)] := by
  simp [set, h]

theorem entries_set_of_mem {m : InsertionMap κ α} {k : κ} {v : α} (h : k ∈ m.keys) :
    (m.set k v).entries = m.entries.map fun e => if e.1 = k then (k, v) else e := by
  simp [set, h]

theorem mem_entries_set {m : InsertionMap κ α} {k k' : κ} {v w : α} :
    (k', w) ∈ (m.set k v).entries ↔
      (k' = k ∧ w = v) ∨ (k' ≠ k ∧ (k', w) ∈ m.entries) := by
  by_cases h : k ∈ m.keys
  · rw [entries_set_of_mem h, List.mem_map]
    constructor
    · rintro ⟨e, he, heq⟩
      by_cases hk : e.1 = k
      · rw [if_pos hk] at heq
        cases heq
        exact Or.inl ⟨rfl, rfl⟩
      · rw [if_neg hk] at heq
        subst heq
        exact Or.inr ⟨hk, he⟩
    · rintro (⟨rfl, rfl⟩ | ⟨hk, hmem⟩)
      · obtain ⟨e, he, rfl⟩ := List.mem_map.1 h
        exact ⟨e, he, by simp⟩
      · exact ⟨(k', w), hmem, by simp [hk]⟩
  · rw [entries_set_of_not_mem h, List.mem_append, List.mem_singleton, Prod.mk.injEq]
    constructor
    · rintro (hmem | heq)
      · have hne : k' ≠ k := by
          rintro rfl
          exact h (List.mem_map_of_mem (f := Prod.fst) hmem)
        exact Or.inr ⟨hne, hmem⟩
      · exact Or.inl heq
    · rintro (heq | ⟨-, hmem⟩)
      · exact Or.inr heq
      · exact Or.inl hmem

theorem mem_keys_set {m : InsertionMap κ α} {k k' : κ} {v : α} :
    k' ∈ (m.set k v).keys ↔ k' = k ∨ k' ∈ m.keys := by
  constructor
  · intro h
    obtain ⟨⟨key, w⟩, hmem, rfl⟩ := List.mem_map.1 h
    rcases mem_entries_set.1 hmem with ⟨rfl, -⟩ | ⟨-, hmem⟩
    · exact Or.inl rfl
    · exact Or.inr (List.mem_map_of_mem (f := Prod.fst) hmem)
  · intro h
    by_cases hk : k' = k
    · exact List.mem_map.2 ⟨(k', v), mem_entries_set.2 (Or.inl ⟨hk, rfl⟩), rfl⟩
    · obtain ⟨⟨key, w⟩, hmem, rfl⟩ := List.mem_map.1 (h.resolve_left hk)
      exact List.mem_map.2 ⟨(key, w), mem_entries_set.2 (Or.inr ⟨hk, hmem⟩), rfl⟩

theorem keys_set_of_not_mem {m : InsertionMap κ α} {k : κ} {v : α} (h : k ∉ m.keys) :
    (m.set k v).keys = m.keys ++ [k] := by
  unfold keys
  rw [entries_set_of_not_mem h, List.map_append]
  rfl

@[simp] theorem get_set_self (m : InsertionMap κ α) (k : κ) (v : α) :
    (m.set k v).get k = some v := by
  rw [get_eq_some_iff, mem_entries_set]
  exact Or.inl ⟨rfl, rfl⟩

theorem get_set_of_ne (m : InsertionMap κ α) {k k' : κ} (v : α) (h : k' ≠ k) :
    (m.set k v).get k' = m.get k' := by
  ext w
  simp [get_eq_some_iff, mem_entries_set, h]

/-- Deleting a key and setting it again moves it to the end. -/
theorem entries_delete_set (m : InsertionMap κ α) (k : κ) (v : α) :
    ((m.delete k).set k v).entries = (m.delete k).entries ++ [(k, v)] :=
  entries_set_of_not_mem (get_eq_none_iff.1 (m.get_delete_self k))

/-- A replacing set keeps the number of entries. -/
theorem size_set_of_mem {m : InsertionMap κ α} {k : κ} {v w : α} (h : m.get k = some w) :
    (m.set k v).size = m.size := by
  rw [size, entries_set_of_mem (mem_keys_iff.2 ⟨w, h⟩), List.length_map, size]

/-- A set of a new key adds one entry. -/
theorem size_set_of_not_mem {m : InsertionMap κ α} {k : κ} {v : α} (h : m.get k = none) :
    (m.set k v).size = m.size + 1 := by
  rw [size, entries_set_of_not_mem (get_eq_none_iff.1 h), List.length_append, size]
  rfl

/-- A filter that does not see `k` does not see that it is deleted. -/
theorem filter_entries_delete (m : InsertionMap κ α) {k : κ} {p : κ × α → Bool}
    (hp : ∀ w, m.get k = some w → p (k, w) = false) :
    (m.delete k).entries.filter p = m.entries.filter p := by
  unfold delete filter
  rw [List.filter_filter]
  refine List.filter_congr fun e he => ?_
  by_cases heq : e.1 = k
  · obtain ⟨k', w⟩ := e
    subst heq
    rw [hp w (get_eq_some_iff.2 he)]
    simp
  · simp [heq]

/-- A filter that sees `k` neither before nor after does not see that it is set. -/
theorem filter_entries_set (m : InsertionMap κ α) {k : κ} {v : α} {p : κ × α → Bool}
    (hp : ∀ w, m.get k = some w → p (k, w) = false) (hv : p (k, v) = false) :
    (m.set k v).entries.filter p = m.entries.filter p := by
  by_cases h : k ∈ m.keys
  · rw [entries_set_of_mem h, List.filter_map]
    have hsame : m.entries.filter (p ∘ fun e => if e.1 = k then (k, v) else e) =
        m.entries.filter p := by
      refine List.filter_congr fun e he => ?_
      by_cases heq : e.1 = k
      · obtain ⟨k', w⟩ := e
        subst heq
        simp [hv, hp w (get_eq_some_iff.2 he)]
      · simp [heq]
    have hother : ∀ e ∈ m.entries.filter p, (if e.1 = k then (k, v) else e) = id e := by
      intro e he
      obtain ⟨hmem, hseen⟩ := List.mem_filter.1 he
      refine if_neg fun heq => ?_
      obtain ⟨k', w⟩ := e
      subst heq
      rw [hp w (get_eq_some_iff.2 hmem)] at hseen
      cases hseen
    rw [hsame, List.map_congr_left hother, List.map_id]
  · rw [entries_set_of_not_mem h, List.filter_append]
    simp [hv]

theorem size_delete_le (m : InsertionMap κ α) (k : κ) : (m.delete k).size ≤ m.size :=
  List.length_filter_le _ _

end InsertionMap

end Arc
