import Mathlib.Data.List.Sort

/-!
# Stable sorts under a map

`List.mergeSort` by a comparison, ascending or descending, keeps the order of what compares equal.
A map under which one sort is the other in both directions does not change the comparison
(`compare_eq_of_sorts`); the converse needs nothing of the comparisons.
-/

namespace Arc

variable {α β : Type*}

/-- A comparison that is an order on the members of a list. -/
structure OrderedOn (compare : α → α → Ordering) (list : List α) : Prop where
  swap : ∀ a ∈ list, ∀ b ∈ list, compare b a = (compare a b).swap
  trans : ∀ a ∈ list, ∀ b ∈ list, ∀ c ∈ list, (compare a b).isLE = true →
    (compare b c).isLE = true → (compare a c).isLE = true

namespace OrderedOn

variable {compare : α → α → Ordering} {list : List α}

theorem refl (h : OrderedOn compare list) {a : α} (ha : a ∈ list) : compare a a = .eq := by
  have hswap := h.swap a ha a ha
  cases haa : compare a a with
  | eq => rfl
  | lt =>
      rw [haa] at hswap
      cases hswap
  | gt =>
      rw [haa] at hswap
      cases hswap

/-- The comparison the other way round. -/
theorem flip (h : OrderedOn compare list) : OrderedOn (fun a b => compare b a) list where
  swap := fun a ha b hb => h.swap b hb a ha
  trans := fun a ha b hb c hc hab hbc => h.trans c hc b hb a ha hbc hab

theorem isGE_eq (h : OrderedOn compare list) {a b : α} (ha : a ∈ list) (hb : b ∈ list) :
    (compare a b).isGE = (compare b a).isLE := by
  rw [h.swap a ha b hb]
  cases compare a b with
  | lt => rfl
  | eq => rfl
  | gt => rfl

theorem total (h : OrderedOn compare list) {a b : α} (ha : a ∈ list) (hb : b ∈ list) :
    ((compare a b).isLE || (compare b a).isLE) = true := by
  rw [h.swap a ha b hb]
  cases compare a b with
  | lt => rfl
  | eq => rfl
  | gt => rfl

/-- What compares equal to the two sides compares like them. -/
theorem congr (h : OrderedOn compare list) {a b c d : α} (ha : a ∈ list) (hb : b ∈ list)
    (hc : c ∈ list) (hd : d ∈ list) (hac : compare a c = .eq) (hbd : compare b d = .eq) :
    compare a b = compare c d := by
  have hca : compare c a = .eq := by
    rw [h.swap a ha c hc, hac]
    rfl
  have hdb : compare d b = .eq := by
    rw [h.swap b hb d hd, hbd]
    rfl
  have hforth : (compare a b).isLE = true → (compare c d).isLE = true := fun hab =>
    h.trans c hc b hb d hd (h.trans c hc a ha b hb (by rw [hca]; rfl) hab) (by rw [hbd]; rfl)
  have hback : (compare c d).isLE = true → (compare a b).isLE = true := fun hcd =>
    h.trans a ha d hd b hb (h.trans a ha c hc d hd (by rw [hac]; rfl) hcd) (by rw [hdb]; rfl)
  have hforth' : (compare b a).isLE = true → (compare d c).isLE = true := fun hba =>
    h.trans d hd a ha c hc (h.trans d hd b hb a ha (by rw [hdb]; rfl) hba) (by rw [hac]; rfl)
  have hback' : (compare d c).isLE = true → (compare b a).isLE = true := fun hdc =>
    h.trans b hb c hc a ha (h.trans b hb d hd c hc (by rw [hbd]; rfl) hdc) (by rw [hca]; rfl)
  rw [h.swap a ha b hb] at hforth' hback'
  rw [h.swap c hc d hd] at hforth' hback'
  cases hab : compare a b with
  | lt => cases hcd : compare c d <;> simp_all
  | eq => cases hcd : compare c d <;> simp_all
  | gt => cases hcd : compare c d <;> simp_all

end OrderedOn

/-! ### Sorting by what is an order on the members -/

/-- The sort of a list as that of its members. -/
theorem mergeSort_attach (le : α → α → Bool) (list : List α) :
    (list.attach.mergeSort fun a b => le a.1 b.1).map Subtype.val = list.mergeSort le := by
  rw [List.map_mergeSort (s := le) fun _ _ _ _ => rfl, List.attach_map_subtype_val]

/-- A sort asks for the comparison of members only. -/
theorem mergeSort_congr {r s : α → α → Bool} {list : List α}
    (h : ∀ a ∈ list, ∀ b ∈ list, r a b = s a b) : list.mergeSort r = list.mergeSort s := by
  have hmap := List.map_mergeSort (f := id) h
  rwa [List.map_id, List.map_id] at hmap

theorem pairwise_mergeSort_of_mem {compare : α → α → Ordering} {list : List α}
    (h : OrderedOn compare list) :
    (list.mergeSort fun a b => (compare a b).isLE).Pairwise fun a b =>
      (compare a b).isLE = true := by
  rw [← mergeSort_attach, List.pairwise_map]
  refine List.pairwise_mergeSort ?_ ?_ _
  · intro a b c hab hbc
    exact h.trans a a.2 b b.2 c c.2 hab hbc
  · intro a b
    exact h.total a.2 b.2

/-- What compares equal keeps its order. -/
theorem pair_sublist_mergeSort_of_mem {compare : α → α → Ordering} {list : List α}
    (h : OrderedOn compare list) {a b : α} (hab : (compare a b).isLE = true)
    (hsub : [a, b].Sublist list) :
    [a, b].Sublist (list.mergeSort fun a b => (compare a b).isLE) := by
  have hattach : [a, b].Sublist (list.attach.map Subtype.val) := by
    rw [List.attach_map_subtype_val]
    exact hsub
  obtain ⟨pair, hpair, heq⟩ := List.sublist_map_iff.1 hattach
  match pair, hpair, heq with
  | [first, second], hpair, heq =>
      rw [List.map_cons, List.map_cons, List.map_nil] at heq
      obtain ⟨hfirst, htail⟩ := List.cons.inj heq
      obtain ⟨hsecond, -⟩ := List.cons.inj htail
      subst hfirst hsecond
      rw [← mergeSort_attach]
      refine List.Sublist.map Subtype.val (List.pair_sublist_mergeSort ?_ ?_ hab hpair)
      · intro a b c hab hbc
        exact h.trans a a.2 b b.2 c c.2 hab hbc
      · intro a b
        exact h.total a.2 b.2

theorem pair_sublist_or {list : List α} {a b : α} (ha : a ∈ list) (hb : b ∈ list) (hne : a ≠ b) :
    [a, b].Sublist list ∨ [b, a].Sublist list := by
  induction list with
  | nil => cases ha
  | cons first rest ih =>
      rcases List.mem_cons.1 ha with rfl | harest
      · rcases List.mem_cons.1 hb with rfl | hbrest
        · exact absurd rfl hne
        · exact .inl ((List.singleton_sublist.2 hbrest).cons_cons a)
      · rcases List.mem_cons.1 hb with rfl | hbrest
        · exact .inr ((List.singleton_sublist.2 harest).cons_cons b)
        · exact (ih harest hbrest).imp (fun h => h.cons first) fun h => h.cons first

/-! ### The comparison of two sorts -/

section Sorts

variable {first second : α → α → Ordering} {f : α → β} {list : List α}

/-- The two sorts of a list are the same under the map. -/
def SameSort (first second : α → α → Ordering) (f : α → β) (list : List α) : Prop :=
  (list.mergeSort fun a b => (first a b).isLE).map f =
    (list.mergeSort fun a b => (second a b).isLE).map f

/-- A pair that one sort has in this order, the other has up to the map. -/
theorem SameSort.pair (h : SameSort first second f list) (hsecond : OrderedOn second list)
    (hmap : ∀ a ∈ list, ∀ b ∈ list, ∀ c ∈ list, ∀ d ∈ list, f a = f c → f b = f d →
      second a b = second c d) {a b : α} (ha : a ∈ list) (hb : b ∈ list)
    (hsub : [a, b].Sublist (list.mergeSort fun a b => (first a b).isLE)) :
    (second a b).isLE = true := by
  have hmapped := hsub.map f
  rw [h, List.map_cons, List.map_cons, List.map_nil] at hmapped
  obtain ⟨pair, hpair, heq⟩ := List.sublist_map_iff.1 hmapped
  obtain ⟨c, rest, rfl, hac, hrest⟩ := List.map_eq_cons_iff.1 heq.symm
  obtain ⟨d, last, rfl, hbd, hlast⟩ := List.map_eq_cons_iff.1 hrest
  obtain rfl := List.map_eq_nil_iff.1 hlast
  have hc : c ∈ list := List.mem_mergeSort.1 (hpair.subset List.mem_cons_self)
  have hd : d ∈ list :=
    List.mem_mergeSort.1 (hpair.subset (List.mem_cons_of_mem _ List.mem_cons_self))
  rw [hmap a ha b hb c hc d hd hac.symm hbd.symm]
  have hpairwise := (pairwise_mergeSort_of_mem hsecond).sublist hpair
  exact (List.pairwise_cons.1 hpairwise).1 d List.mem_cons_self

/-- Where the first comparison tells two members apart, so does the second. -/
theorem lt_of_sorts (hfirst : OrderedOn first list) (hsecond : OrderedOn second list)
    (hmapFirst : ∀ a ∈ list, ∀ b ∈ list, ∀ c ∈ list, ∀ d ∈ list, f a = f c → f b = f d →
      first a b = first c d)
    (hmapSecond : ∀ a ∈ list, ∀ b ∈ list, ∀ c ∈ list, ∀ d ∈ list, f a = f c → f b = f d →
      second a b = second c d)
    (hascending : SameSort first second f list)
    (hdescending : SameSort (fun a b => first b a) (fun a b => second b a) f list)
    {a b : α} (ha : a ∈ list) (hb : b ∈ list) (hlt : first a b = .lt) : second a b = .lt := by
  have hgt : first b a = .gt := by
    rw [hfirst.swap a ha b hb, hlt]
    rfl
  have hne : a ≠ b := by
    rintro rfl
    rw [hfirst.refl ha] at hlt
    cases hlt
  have hsorted : [a, b].Sublist (list.mergeSort fun a b => (first a b).isLE) := by
    refine (pair_sublist_or (List.mem_mergeSort.2 ha) (List.mem_mergeSort.2 hb) hne).resolve_right ?_
    intro hsub
    have hpairwise := (pairwise_mergeSort_of_mem hfirst).sublist hsub
    have hle := (List.pairwise_cons.1 hpairwise).1 a List.mem_cons_self
    rw [hgt] at hle
    cases hle
  have hle := hascending.pair hsecond hmapSecond ha hb hsorted
  cases heq : second a b with
  | lt => rfl
  | gt =>
      rw [heq] at hle
      cases hle
  | eq =>
      have heq' : second b a = .eq := by
        rw [hsecond.swap a ha b hb, heq]
        rfl
      -- equal under the second, the two keep their order in both directions
      rcases pair_sublist_or ha hb hne with hsub | hsub
      · have hkept := pair_sublist_mergeSort_of_mem hsecond.flip
          (show (second b a).isLE = true by rw [heq']; rfl) hsub
        have hge := SameSort.pair hdescending.symm hfirst.flip
          (fun a ha b hb c hc d hd hac hbd => hmapFirst b hb a ha d hd c hc hbd hac) ha hb hkept
        rw [hgt] at hge
        cases hge
      · have hkept := pair_sublist_mergeSort_of_mem hsecond
          (show (second b a).isLE = true by rw [heq']; rfl) hsub
        have hback := SameSort.pair hascending.symm hfirst hmapFirst hb ha hkept
        rw [hgt] at hback
        cases hback

/-- Two comparisons whose sorts are the same under the map in both directions are the same. -/
theorem compare_eq_of_sorts (hfirst : OrderedOn first list) (hsecond : OrderedOn second list)
    (hmapFirst : ∀ a ∈ list, ∀ b ∈ list, ∀ c ∈ list, ∀ d ∈ list, f a = f c → f b = f d →
      first a b = first c d)
    (hmapSecond : ∀ a ∈ list, ∀ b ∈ list, ∀ c ∈ list, ∀ d ∈ list, f a = f c → f b = f d →
      second a b = second c d)
    (hascending : SameSort first second f list)
    (hdescending : SameSort (fun a b => first b a) (fun a b => second b a) f list)
    {a b : α} (ha : a ∈ list) (hb : b ∈ list) : first a b = second a b := by
  have hforth : ∀ {a b : α}, a ∈ list → b ∈ list → first a b = .lt → second a b = .lt :=
    fun ha hb => lt_of_sorts hfirst hsecond hmapFirst hmapSecond hascending hdescending ha hb
  have hback : ∀ {a b : α}, a ∈ list → b ∈ list → second a b = .lt → first a b = .lt :=
    fun ha hb => lt_of_sorts hsecond hfirst hmapSecond hmapFirst hascending.symm hdescending.symm
      ha hb
  cases hab : first a b with
  | lt => exact (hforth ha hb hab).symm
  | gt =>
      have hlt : second b a = .lt := by
        refine hforth hb ha ?_
        rw [hfirst.swap a ha b hb, hab]
        rfl
      rw [hsecond.swap b hb a ha, hlt]
      rfl
  | eq =>
      cases hsab : second a b with
      | eq => rfl
      | lt =>
          rw [hback ha hb hsab] at hab
          cases hab
      | gt =>
          have hlt : first b a = .lt := by
            refine hback hb ha ?_
            rw [hsecond.swap a ha b hb, hsab]
            rfl
          rw [hfirst.swap b hb a ha, hlt] at hab
          cases hab

end Sorts

end Arc
