import Mathlib.Data.Fintype.EquivFin
import Mathlib.Order.WellFounded
import Mathlib.Data.Fintype.Order
import Mathlib.Logic.Relation

/-!
# Relations without cycles

A relation on which no path leads back stays so when it shrinks, and when it gains a pair whose
ends are not yet connected the other way. On finitely many elements it leads nowhere from some.
-/

namespace Arc

open Relation

variable {α : Type} {r r' : α → α → Prop}

/-- No path of the relation leads back to where it began. -/
def Acyclic (r : α → α → Prop) : Prop :=
  ∀ a, ¬ TransGen r a a

theorem Acyclic.mono (h : Acyclic r) (hle : ∀ a b, r' a b → r a b) : Acyclic r' :=
  fun a hcycle => h a (TransGen.mono hle _ _ hcycle)

/-- A path with the new pair uses it last, or not at all. -/
theorem transGen_insert {x y : α} (hle : ∀ a b, r' a b → r a b ∨ a = x ∧ b = y) {a b : α}
    (hpath : TransGen r' a b) : TransGen r a b ∨ ReflTransGen r a x ∧ ReflTransGen r y b ∨
      ReflTransGen r y x := by
  induction hpath with
  | single hab =>
      rcases hle _ _ hab with hr | ⟨rfl, rfl⟩
      · exact .inl (TransGen.single hr)
      · exact .inr (.inl ⟨ReflTransGen.refl, ReflTransGen.refl⟩)
  | tail _ hbc ih =>
      rcases hle _ _ hbc with hr | ⟨rfl, rfl⟩
      · rcases ih with hpath | ⟨hbefore, hafter⟩ | hback
        · exact .inl (hpath.tail hr)
        · exact .inr (.inl ⟨hbefore, hafter.tail hr⟩)
        · exact .inr (.inr hback)
      · rcases ih with hpath | ⟨-, hafter⟩ | hback
        · exact .inr (.inl ⟨hpath.to_reflTransGen, ReflTransGen.refl⟩)
        · exact .inr (.inr hafter)
        · exact .inr (.inr hback)

/-- A new pair closes no cycle unless its ends are connected the other way. -/
theorem Acyclic.insert (h : Acyclic r) {x y : α} (hle : ∀ a b, r' a b → r a b ∨ a = x ∧ b = y)
    (hback : ¬ ReflTransGen r y x) : Acyclic r' := by
  intro a hcycle
  rcases transGen_insert hle hcycle with hpath | ⟨hbefore, hafter⟩ | hpath
  · exact h a hpath
  · exact hback (hafter.trans hbefore)
  · exact hback hpath

/-- Among finitely many elements, one leads to none of them. -/
theorem Acyclic.exists_sink (h : Acyclic r) {s : Finset α} (hs : s.Nonempty) :
    ∃ a ∈ s, ∀ b ∈ s, ¬ r a b := by
  let path : s → s → Prop := fun a b => TransGen r b.1 a.1
  have htrans : IsTrans s path := ⟨fun _ _ _ hab hbc => hbc.trans hab⟩
  have hirrefl : Std.Irrefl path := ⟨fun a hcycle => h a.1 hcycle⟩
  have hfounded : WellFounded path := Finite.wellFounded_of_trans_of_irrefl path
  obtain ⟨a, ha⟩ := hs
  obtain ⟨last, -, hlast⟩ := hfounded.has_min Set.univ ⟨⟨a, ha⟩, trivial⟩
  exact ⟨last.1, last.2, fun b hb hr => hlast ⟨b, hb⟩ trivial (TransGen.single hr)⟩

end Arc
