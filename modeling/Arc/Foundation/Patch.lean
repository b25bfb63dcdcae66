import Mathlib.Data.List.Basic

/-!
# Patches of keyed collections

A `Patch` lists whole items to add, to put in the place of the item with the
same key, and to remove. `Patch.apply key p items` is what its receiver does.
Order and multiplicity are not transferred: `Turns key p before after` says that
the patch takes every list with the items of `before` to a list with the items
of `after`, where two lists have the same items when they have the same members.

Two rules prove `Turns` from the members of the patch alone: one for patches
that compare whole items, one for patches that compare items of equal key and
therefore ask that a key determines its item on both sides.
-/

namespace Arc

/-- Whole items that are new, that take the place of the item with their key, and
that are gone. -/
structure Patch (α : Type*) where
  added : List α
  replaced : List α
  removed : List α

/-- Two lists with the same members. -/
def SameItems {α : Type*} (xs ys : List α) : Prop := ∀ x, x ∈ xs ↔ x ∈ ys

namespace SameItems

variable {α : Type*} {xs ys : List α}

theorem refl (xs : List α) : SameItems xs xs := fun _ => Iff.rfl

theorem symm (h : SameItems xs ys) : SameItems ys xs := fun x => (h x).symm

instance [DecidableEq α] : Decidable (SameItems xs ys) :=
  decidable_of_iff ((∀ x ∈ xs, x ∈ ys) ∧ ∀ y ∈ ys, y ∈ xs)
    ⟨fun h x => ⟨h.1 x, h.2 x⟩, fun h => ⟨fun x => (h x).1, fun y => (h y).2⟩⟩

end SameItems

/-- Every item has a key and no two items share one. -/
def KeyedBy {α κ : Type*} (key : α → Option κ) (items : List α) : Prop :=
  (∀ x ∈ items, ∃ k, key x = some k) ∧
    ∀ x ∈ items, ∀ y ∈ items, key x = key y → x = y

/-- The first item stored under the key `k`. -/
def itemAt {α κ : Type*} [DecidableEq κ] (key : α → Option κ) (items : List α) (k : κ) :
    Option α :=
  items.find? fun x => decide (key x = some k)

section Keys

variable {α κ : Type*} {key : α → Option κ} {xs ys : List α}

theorem KeyedBy.congr (h : KeyedBy key xs) (hsame : SameItems xs ys) : KeyedBy key ys :=
  ⟨fun x hx => h.1 x ((hsame x).2 hx),
    fun x hx y hy => h.2 x ((hsame x).2 hx) y ((hsame y).2 hy)⟩

variable [DecidableEq κ]

/-- On uniquely keyed items a key finds exactly the item that has it. -/
theorem KeyedBy.itemAt_eq_some_iff (h : KeyedBy key xs) {k : κ} {x : α} :
    itemAt key xs k = some x ↔ x ∈ xs ∧ key x = some k := by
  constructor
  · intro hfind
    exact ⟨List.mem_of_find?_eq_some hfind, by simpa using List.find?_some hfind⟩
  · rintro ⟨hx, hk⟩
    have hsome : (itemAt key xs k).isSome := by
      rw [itemAt, List.find?_isSome]
      exact ⟨x, hx, by simpa using hk⟩
    obtain ⟨y, hy⟩ := Option.isSome_iff_exists.1 hsome
    have hkey : key y = some k := by simpa using List.find?_some hy
    rw [hy, h.2 y (List.mem_of_find?_eq_some hy) x hx (hkey.trans hk.symm)]

/-- The map from keys to items depends on the items alone. -/
theorem KeyedBy.itemAt_congr (h : KeyedBy key xs) (hsame : SameItems xs ys) (k : κ) :
    itemAt key xs k = itemAt key ys k := by
  ext x
  rw [h.itemAt_eq_some_iff, (h.congr hsame).itemAt_eq_some_iff, hsame x]

end Keys

namespace Patch

variable {α κ : Type*} [DecidableEq α] [DecidableEq κ]

/-- Drop the removed items and those whose key is replaced, then add the
replacing and the added items. -/
def apply (key : α → Option κ) (p : Patch α) (items : List α) : List α :=
  items.filter (fun x => decide (x ∉ p.removed) &&
    p.replaced.all fun r => decide (key x = none ∨ key x ≠ key r)) ++ (p.replaced ++ p.added)

theorem mem_apply {key : α → Option κ} {p : Patch α} {items : List α} {x : α} :
    x ∈ p.apply key items ↔
      (x ∈ items ∧ x ∉ p.removed ∧ ∀ r ∈ p.replaced, key x = none ∨ key x ≠ key r) ∨
        x ∈ p.replaced ∨ x ∈ p.added := by
  simp [apply, List.mem_filter]

/-- The patch takes the items of `before` to the items of `after`. -/
def Turns (key : α → Option κ) (p : Patch α) (before after : List α) : Prop :=
  ∀ items, SameItems items before → SameItems (p.apply key items) after

/-- A patch that compares whole items. -/
theorem turns_of_items {key : α → Option κ} {p : Patch α} {before after : List α}
    (hadded : ∀ x, x ∈ p.added ↔ x ∈ after ∧ x ∉ before)
    (hremoved : ∀ x, x ∈ p.removed ↔ x ∈ before ∧ x ∉ after)
    (hreplaced : p.replaced = []) : p.Turns key before after := by
  intro items hitems x
  rw [mem_apply, hreplaced, hadded, hremoved, hitems]
  simp only [List.not_mem_nil, false_or, IsEmpty.forall_iff, implies_true, and_true]
  tauto

/-- A patch that compares the items of equal key. -/
theorem turns_of_keys {key : α → Option κ} {p : Patch α} {before after : List α}
    (hbefore : KeyedBy key before) (hafter : KeyedBy key after)
    (hadded : ∀ x, x ∈ p.added ↔ x ∈ after ∧ ∀ y ∈ before, key y ≠ key x)
    (hreplaced : ∀ x, x ∈ p.replaced ↔ x ∈ after ∧ ∃ y ∈ before, key y = key x ∧ y ≠ x)
    (hremoved : ∀ x, x ∈ p.removed ↔ x ∈ before ∧ ∀ y ∈ after, key y ≠ key x) :
    p.Turns key before after := by
  intro items hitems x
  rw [mem_apply, hitems x]
  constructor
  · rintro (⟨hx, hkept, hunreplaced⟩ | hx | hx)
    · have hstays : ∃ y ∈ after, key y = key x := by
        by_contra hnone
        push Not at hnone
        exact hkept ((hremoved x).2 ⟨hx, hnone⟩)
      obtain ⟨y, hy, hkey⟩ := hstays
      by_cases hsame : x = y
      · exact hsame ▸ hy
      · obtain ⟨k, hk⟩ := hbefore.1 x hx
        rcases hunreplaced y ((hreplaced y).2 ⟨hy, x, hx, hkey.symm, hsame⟩) with hno | hne
        · rw [hk] at hno
          cases hno
        · exact absurd hkey.symm hne
    · exact ((hreplaced x).1 hx).1
    · exact ((hadded x).1 hx).1
  · intro hx
    by_cases hnew : ∃ y ∈ before, key y = key x
    · obtain ⟨y, hy, hkey⟩ := hnew
      by_cases hsame : y = x
      · subst hsame
        refine Or.inl ⟨hy, fun hgone => ((hremoved y).1 hgone).2 y hx rfl, ?_⟩
        intro r hr
        obtain ⟨hrafter, z, hz, hzr, hne⟩ := (hreplaced r).1 hr
        refine Or.inr fun hyr => hne ?_
        rw [hafter.2 r hrafter y hx hyr.symm] at hzr ⊢
        exact hbefore.2 z hz y hy hzr
      · exact Or.inr (Or.inl ((hreplaced x).2 ⟨hx, y, hy, hkey, hsame⟩))
    · push Not at hnew
      exact Or.inr (Or.inr ((hadded x).2 ⟨hx, hnew⟩))

end Patch

end Arc
