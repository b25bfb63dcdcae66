import Arc.Foundation.InsertionMap
import Mathlib.Data.Finset.Card
import Mathlib.Order.Interval.Finset.Nat

/-!
# Counting in a ledger

A ledger is a list of records, one for each position ever issued; a record is
changed in place and never removed. What an implementation keeps as a counter, a
set of positions or a map from positions to owners is a count over the ledger:
`countP_set` says how one changed record moves a count, `card_eq_countP` and
`length_filter_eq_countP` read a set and a map of positions as counts.
-/

namespace Arc

namespace Ledger

variable {α : Type*}

/-- One changed record moves a count by the difference at that record. -/
theorem countP_set (p : α → Bool) {l : List α} {k : ℕ} {a : α} (b : α) (h : l[k]? = some a) :
    (l.set k b).countP p + (if p a then 1 else 0) = l.countP p + (if p b then 1 else 0) := by
  obtain ⟨hlt, rfl⟩ := List.getElem?_eq_some_iff.1 h
  have hcounted : (if p l[k] then 1 else 0) ≤ l.countP p := by
    split_ifs with hp
    · exact List.countP_pos_iff.2 ⟨l[k], List.getElem_mem hlt, hp⟩
    · exact Nat.zero_le _
  rw [List.countP_set hlt]
  omega

/-- A change that does not matter to `p` keeps the count. -/
theorem countP_set_of_eq (p : α → Bool) {l : List α} {k : ℕ} {a : α} (b : α)
    (h : l[k]? = some a) (hp : p b = p a) : (l.set k b).countP p = l.countP p := by
  have hcount := countP_set p b h
  rw [hp] at hcount
  omega

/-- The positions whose records satisfy `p`. -/
def positions (p : α → Bool) (l : List α) : Finset ℕ :=
  (Finset.range l.length).filter fun k => l[k]?.any p

theorem mem_positions {p : α → Bool} {l : List α} {k : ℕ} :
    k ∈ positions p l ↔ ∃ a, l[k]? = some a ∧ p a = true := by
  rw [positions, Finset.mem_filter, Finset.mem_range, Option.any_eq_true]
  constructor
  · exact fun h => h.2
  · rintro ⟨a, ha, hp⟩
    exact ⟨(List.getElem?_eq_some_iff.1 ha).1, a, ha, hp⟩

theorem positions_append (p : α → Bool) (l : List α) (a : α) :
    positions p (l ++ [a]) =
      if p a then insert l.length (positions p l) else positions p l := by
  ext k
  have hmem : k ∈ positions p (l ++ [a]) ↔
      k ∈ positions p l ∨ (k = l.length ∧ p a = true) := by
    rw [mem_positions, mem_positions]
    rcases Nat.lt_trichotomy k l.length with hk | rfl | hk
    · rw [List.getElem?_append_left hk]
      exact ⟨Or.inl, fun h => h.resolve_right fun h' => absurd h'.1 hk.ne⟩
    · simp
    · have hlong : (l ++ [a]).length ≤ k := by
        rw [List.length_append, List.length_singleton]
        exact hk
      rw [List.getElem?_eq_none hlong, List.getElem?_eq_none hk.le]
      simp [hk.ne']
  rw [hmem]
  split_ifs with hp
  · simp [hp, or_comm]
  · simp [hp]

theorem card_positions (p : α → Bool) (l : List α) : (positions p l).card = l.countP p := by
  induction l using List.reverseRecOn with
  | nil => rfl
  | append_singleton l a ih =>
      rw [positions_append, List.countP_append]
      have hfresh : l.length ∉ positions p l := by
        rw [mem_positions]
        simp
      split_ifs with hp
      · rw [Finset.card_insert_of_notMem hfresh, ih]
        simp [hp]
      · rw [ih]
        simp [hp]

/-- A set of positions is counted by the records it stands for. -/
theorem card_eq_countP {p : α → Bool} {l : List α} {s : Finset ℕ}
    (h : ∀ k, k ∈ s ↔ ∃ a, l[k]? = some a ∧ p a = true) : s.card = l.countP p := by
  rw [← card_positions]
  congr 1
  ext k
  rw [h, mem_positions]

/-- The positions a map gives to one owner are counted by the records they stand for. -/
theorem length_filter_eq_countP {ω : Type*} [DecidableEq ω] {p : α → Bool} {l : List α}
    {m : InsertionMap ℕ ω} {owner : ω}
    (h : ∀ k, m.get k = some owner ↔ ∃ a, l[k]? = some a ∧ p a = true) :
    (m.entries.filter fun e => decide (e.2 = owner)).length = l.countP p := by
  have hnodup : ((m.entries.filter fun e => decide (e.2 = owner)).map Prod.fst).Nodup :=
    m.nodup_keys.sublist (List.filter_sublist.map Prod.fst)
  rw [← List.length_map Prod.fst, ← List.toFinset_card_of_nodup hnodup]
  refine card_eq_countP fun k => ?_
  rw [← h, InsertionMap.get_eq_some_iff]
  simp

end Ledger

end Arc
