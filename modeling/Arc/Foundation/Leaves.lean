import Mathlib.Data.Fintype.Basic
import Mathlib.Data.Finset.Card
import Mathlib.Data.List.Nodup

/-!
# Leaves of shared groups

Values are primitives and references to objects, and an object may be a group of further
values; groups may share members and contain themselves. `leaves` collects what is in a list of
values and remembers the objects it has come to, so that every object is reported once, over
any number of collections that share the set. `LeafOf` says what is in a value, and `Flattens`
what its groups hold when they are written out in place, which only ends without a cycle.
-/

namespace Arc

/-- A primitive, or a reference to an object. -/
inductive Member (π ι : Type)
  | primitive (value : π)
  | reference (object : ι)
  deriving DecidableEq, Repr

namespace Member

variable {π ι : Type}

def object? : Member π ι → Option ι
  | primitive _ => none
  | reference object => some object

theorem mem_filterMap_object? {object : ι} {values : List (Member π ι)} :
    object ∈ values.filterMap object? ↔ reference object ∈ values := by
  rw [List.mem_filterMap]
  constructor
  · rintro ⟨value, hmem, heq⟩
    cases value with
    | primitive value => cases heq
    | reference other =>
        cases heq
        exact hmem
  · intro hmem
    exact ⟨_, hmem, rfl⟩

section Spec

variable (members : ι → List (Member π ι))

/-- A leaf that is in a value. -/
inductive LeafOf : Member π ι → Member π ι → Prop
  | primitive (value : π) : LeafOf (primitive value) (primitive value)
  | object {object : ι} (h : members object = []) : LeafOf (reference object) (reference object)
  | member {object : ι} {member leaf : Member π ι} (h : member ∈ members object)
      (hleaf : LeafOf member leaf) : LeafOf (reference object) leaf

/-- The groups of the values written out in place. -/
inductive Flattens : List (Member π ι) → List (Member π ι) → Prop
  | nil : Flattens [] []
  | primitive {rest leaves : List (Member π ι)} (value : π) (h : Flattens rest leaves) :
      Flattens (primitive value :: rest) (primitive value :: leaves)
  | object {rest leaves : List (Member π ι)} {object : ι} (hleaf : members object = [])
      (h : Flattens rest leaves) : Flattens (reference object :: rest) (reference object :: leaves)
  | group {rest leaves : List (Member π ι)} {object : ι} (hgroup : members object ≠ [])
      (h : Flattens (members object ++ rest) leaves) : Flattens (reference object :: rest) leaves

variable {members}

theorem Flattens.append {values leaves others more : List (Member π ι)}
    (h : Flattens members values leaves) (hothers : Flattens members others more) :
    Flattens members (values ++ others) (leaves ++ more) := by
  induction h with
  | nil => exact hothers
  | primitive value _ ih => exact Flattens.primitive value ih
  | object hleaf _ ih => exact Flattens.object hleaf ih
  | group hgroup _ ih =>
      refine Flattens.group hgroup ?_
      rw [List.append_assoc] at ih
      exact ih

/-- Values that are leaves stand for themselves. -/
theorem flattens_self {values : List (Member π ι)}
    (h : ∀ object, reference object ∈ values → members object = []) :
    Flattens members values values := by
  induction values with
  | nil => exact Flattens.nil
  | cons value rest ih =>
      have hrest := ih fun object hmem => h object (List.mem_cons_of_mem _ hmem)
      cases value with
      | primitive value => exact Flattens.primitive value hrest
      | reference object => exact Flattens.object (h object List.mem_cons_self) hrest

end Spec

/-! ### Collecting -/

/-- What a collection gives: the leaves it met first, the objects met by now, and whether it
came to an object again. -/
structure Collected (π ι : Type) where
  leaves : List (Member π ι)
  reported : Finset ι
  repeated : Bool

def Collected.cons (leaf : Member π ι) (collected : Collected π ι) : Collected π ι :=
  { collected with leaves := leaf :: collected.leaves }

theorem card_unreported_lt [Fintype ι] [DecidableEq ι] {reported : Finset ι} {object : ι}
    (h : object ∉ reported) :
    (Finset.univ \ insert object reported).card < (Finset.univ \ reported).card := by
  refine Finset.card_lt_card (Finset.ssubset_iff_subset_ne.2
    ⟨Finset.sdiff_subset_sdiff (Finset.Subset.refl _) (Finset.subset_insert _ _), fun heq => ?_⟩)
  have hmem : object ∈ Finset.univ \ insert object reported :=
    heq ▸ Finset.mem_sdiff.2 ⟨Finset.mem_univ _, h⟩
  exact (Finset.mem_sdiff.1 hmem).2 (Finset.mem_insert_self _ _)

/-- Collect the leaves of the values, in order. -/
def collect [Fintype ι] [DecidableEq ι] (members : ι → List (Member π ι)) (reported : Finset ι)
    (repeated : Bool) : List (Member π ι) → Collected π ι
  | [] => ⟨[], reported, repeated⟩
  | primitive value :: rest => (collect members reported repeated rest).cons (primitive value)
  | reference object :: rest =>
      if _h : object ∈ reported then collect members reported true rest
      else if members object = [] then
        (collect members (insert object reported) repeated rest).cons (reference object)
      else collect members (insert object reported) repeated (members object ++ rest)
termination_by pending => ((Finset.univ \ reported).card, pending.length)
decreasing_by
  · exact Prod.Lex.right _ (Nat.lt_succ_self _)
  · exact Prod.Lex.right _ (Nat.lt_succ_self _)
  · exact Prod.Lex.left _ _ (card_unreported_lt _h)
  · exact Prod.Lex.left _ _ (card_unreported_lt _h)

/-- The value is among the leaves, or its object has been met. -/
def Covered (found : List (Member π ι)) (reported : Finset ι) : Member π ι → Prop
  | primitive value => primitive value ∈ found
  | reference object => object ∈ reported

/-- What the objects met so far hold has been found, or is still to come. -/
def Closed (members : ι → List (Member π ι)) (found : List (Member π ι)) (reported : Finset ι)
    (pending : List (Member π ι)) : Prop :=
  ∀ object ∈ reported, (members object = [] → reference object ∈ found) ∧
    ∀ member ∈ members object, Covered found reported member ∨ member ∈ pending

variable {members : ι → List (Member π ι)}

theorem Covered.mono {found more : List (Member π ι)} {reported later : Finset ι}
    {value : Member π ι} (h : Covered found reported value) (hfound : found ⊆ more)
    (hreported : reported ⊆ later) : Covered more later value := by
  cases value with
  | primitive value => exact hfound h
  | reference object => exact hreported h

/-- With nothing to come, every leaf of what was met has been found. -/
theorem mem_of_closed {found : List (Member π ι)} {reported : Finset ι}
    (hclosed : Closed members found reported []) {value leaf : Member π ι}
    (hcovered : Covered found reported value) (hleaf : LeafOf members value leaf) :
    leaf ∈ found := by
  induction hleaf with
  | primitive value => exact hcovered
  | object h => exact (hclosed _ hcovered).1 h
  | member h _ ih =>
      exact ih (((hclosed _ hcovered).2 _ h).resolve_right List.not_mem_nil)

/-- What a collection leaves behind. -/
structure CollectLaw (members : ι → List (Member π ι)) (reported : Finset ι) (repeated : Bool)
    (pending : List (Member π ι)) (collected : Collected π ι) : Prop where
  grows : reported ⊆ collected.reported
  nodup : (collected.leaves.filterMap object?).Nodup
  fresh : ∀ object, reference object ∈ collected.leaves →
    object ∉ reported ∧ object ∈ collected.reported ∧ members object = []
  closed : ∀ found, Closed members found reported pending →
    Closed members (found ++ collected.leaves) collected.reported [] ∧
      ∀ value ∈ pending, Covered (found ++ collected.leaves) collected.reported value
  sound : ∀ leaf ∈ collected.leaves, ∃ value ∈ pending, LeafOf members value leaf
  flat : collected.repeated = false →
    repeated = false ∧ Flattens members pending collected.leaves

theorem Closed.of_primitive {found rest : List (Member π ι)} {reported : Finset ι} {value : π}
    (h : Closed members found reported (primitive value :: rest)) :
    Closed members (found ++ [primitive value]) reported rest := by
  intro object hmem
  obtain ⟨hleaf, hall⟩ := h object hmem
  refine ⟨fun hempty => List.mem_append_left _ (hleaf hempty), fun member hmember => ?_⟩
  rcases hall member hmember with hcovered | hpending
  · exact .inl (hcovered.mono (List.subset_append_left _ _) (Finset.Subset.refl _))
  · rcases List.mem_cons.1 hpending with rfl | hrest
    · exact .inl (List.mem_append_right _ List.mem_cons_self)
    · exact .inr hrest

theorem Closed.of_reported {found rest : List (Member π ι)} {reported : Finset ι} {object : ι}
    (hobject : object ∈ reported) (h : Closed members found reported (reference object :: rest)) :
    Closed members found reported rest := by
  intro other hmem
  obtain ⟨hleaf, hall⟩ := h other hmem
  refine ⟨hleaf, fun member hmember => ?_⟩
  rcases hall member hmember with hcovered | hpending
  · exact .inl hcovered
  · rcases List.mem_cons.1 hpending with rfl | hrest
    · exact .inl hobject
    · exact .inr hrest

/-- An object that is met with what it holds still to come. -/
theorem Closed.meet [DecidableEq ι] {found more rest : List (Member π ι)} {reported : Finset ι}
    {object : ι} (h : Closed members found reported (reference object :: rest))
    (hmore : members object = [] → reference object ∈ more) :
    Closed members (found ++ more) (insert object reported) (members object ++ rest) := by
  intro other hmem
  rcases Finset.mem_insert.1 hmem with rfl | hmem
  · exact ⟨fun hempty => List.mem_append_right _ (hmore hempty),
      fun member hmember => .inr (List.mem_append_left _ hmember)⟩
  · obtain ⟨hleaf, hall⟩ := h other hmem
    refine ⟨fun hempty => List.mem_append_left _ (hleaf hempty), fun member hmember => ?_⟩
    rcases hall member hmember with hcovered | hpending
    · exact .inl (hcovered.mono (List.subset_append_left _ _) (Finset.subset_insert _ _))
    · rcases List.mem_cons.1 hpending with rfl | hrest
      · exact .inl (Finset.mem_insert_self _ _)
      · exact .inr (List.mem_append_right _ hrest)

namespace CollectLaw

variable {reported : Finset ι} {repeated : Bool} {rest : List (Member π ι)}
  {collected : Collected π ι}

/-- What the rest yields is in one of the values. -/
theorem sound_cons (h : CollectLaw members reported repeated rest collected)
    (first : Member π ι) {leaf : Member π ι} (hmem : leaf ∈ collected.leaves) :
    ∃ value ∈ first :: rest, LeafOf members value leaf := by
  obtain ⟨root, hroot, hleaf⟩ := h.sound leaf hmem
  exact ⟨root, List.mem_cons_of_mem _ hroot, hleaf⟩

theorem cons_primitive (h : CollectLaw members reported repeated rest collected) (value : π) :
    CollectLaw members reported repeated (primitive value :: rest)
      (collected.cons (primitive value)) where
  grows := h.grows
  nodup := h.nodup
  fresh object hmem := h.fresh object ((List.mem_cons.1 hmem).resolve_left (by simp))
  closed found hfound := by
    obtain ⟨hclosed, hcovered⟩ := h.closed _ hfound.of_primitive
    rw [List.append_assoc] at hclosed hcovered
    refine ⟨hclosed, fun other hmem => ?_⟩
    rcases List.mem_cons.1 hmem with rfl | hmem
    · exact List.mem_append_right _ List.mem_cons_self
    · exact hcovered other hmem
  sound leaf hmem := by
    rcases List.mem_cons.1 hmem with rfl | hmem
    · exact ⟨_, List.mem_cons_self, LeafOf.primitive value⟩
    · exact h.sound_cons _ hmem
  flat hflat := ⟨(h.flat hflat).1, Flattens.primitive value (h.flat hflat).2⟩

theorem cons_reported {object : ι} (h : CollectLaw members reported true rest collected)
    (hmet : object ∈ reported) :
    CollectLaw members reported repeated (reference object :: rest) collected where
  grows := h.grows
  nodup := h.nodup
  fresh := h.fresh
  closed found hfound := by
    obtain ⟨hclosed, hcovered⟩ := h.closed _ (hfound.of_reported hmet)
    refine ⟨hclosed, fun other hmem => ?_⟩
    rcases List.mem_cons.1 hmem with rfl | hmem
    · exact h.grows hmet
    · exact hcovered other hmem
  sound _leaf hmem := h.sound_cons _ hmem
  flat hflat := absurd (h.flat hflat).1 (by decide)

variable [DecidableEq ι] {object : ι}

theorem cons_object (h : CollectLaw members (insert object reported) repeated rest collected)
    (hnew : object ∉ reported) (hempty : members object = []) :
    CollectLaw members reported repeated (reference object :: rest)
      (collected.cons (reference object)) where
  grows := (Finset.subset_insert _ _).trans h.grows
  nodup := by
    refine List.nodup_cons.2 ⟨fun hmem => ?_, h.nodup⟩
    exact (h.fresh object (mem_filterMap_object?.1 hmem)).1 (Finset.mem_insert_self _ _)
  fresh other hmem := by
    rcases List.mem_cons.1 hmem with heq | hmem
    · cases heq
      exact ⟨hnew, h.grows (Finset.mem_insert_self _ _), hempty⟩
    · obtain ⟨hother, hlater, hleaf⟩ := h.fresh other hmem
      exact ⟨fun hold => hother (Finset.mem_insert_of_mem hold), hlater, hleaf⟩
  closed found hfound := by
    have hmeet := hfound.meet (fun _ => List.mem_singleton_self _)
    rw [hempty, List.nil_append] at hmeet
    obtain ⟨hclosed, hcovered⟩ := h.closed _ hmeet
    rw [List.append_assoc] at hclosed hcovered
    refine ⟨hclosed, fun other hmem => ?_⟩
    rcases List.mem_cons.1 hmem with rfl | hmem
    · exact h.grows (Finset.mem_insert_self _ _)
    · exact hcovered other hmem
  sound leaf hmem := by
    rcases List.mem_cons.1 hmem with rfl | hmem
    · exact ⟨_, List.mem_cons_self, LeafOf.object hempty⟩
    · exact h.sound_cons _ hmem
  flat hflat := ⟨(h.flat hflat).1, Flattens.object hempty (h.flat hflat).2⟩

theorem cons_group
    (h : CollectLaw members (insert object reported) repeated (members object ++ rest) collected)
    (hgroup : members object ≠ []) :
    CollectLaw members reported repeated (reference object :: rest) collected where
  grows := (Finset.subset_insert _ _).trans h.grows
  nodup := h.nodup
  fresh other hmem := by
    obtain ⟨hother, hlater, hleaf⟩ := h.fresh other hmem
    exact ⟨fun hold => hother (Finset.mem_insert_of_mem hold), hlater, hleaf⟩
  closed found hfound := by
    have hmeet : Closed members (found ++ []) (insert object reported)
        (members object ++ rest) := hfound.meet (fun hempty => absurd hempty hgroup)
    rw [List.append_nil] at hmeet
    obtain ⟨hclosed, hcovered⟩ := h.closed _ hmeet
    refine ⟨hclosed, fun other hmem => ?_⟩
    rcases List.mem_cons.1 hmem with rfl | hmem
    · exact h.grows (Finset.mem_insert_self _ _)
    · exact hcovered other (List.mem_append_right _ hmem)
  sound leaf hmem := by
    obtain ⟨root, hroot, hleaf⟩ := h.sound leaf hmem
    rcases List.mem_append.1 hroot with hmember | hrest
    · exact ⟨_, List.mem_cons_self, LeafOf.member hmember hleaf⟩
    · exact ⟨root, List.mem_cons_of_mem _ hrest, hleaf⟩
  flat hflat := ⟨(h.flat hflat).1, Flattens.group hgroup (h.flat hflat).2⟩

end CollectLaw

variable (members) in
/-- Every step of a collection keeps the law. -/
theorem collect_law [Fintype ι] [DecidableEq ι] (reported : Finset ι) (repeated : Bool)
    (pending : List (Member π ι)) :
    CollectLaw members reported repeated pending (collect members reported repeated pending) := by
  fun_induction collect members reported repeated pending with
  | case1 reported repeated =>
      exact {
        grows := Finset.Subset.refl _
        nodup := List.nodup_nil
        fresh := by simp
        closed := fun found h => ⟨by simpa using h, by simp⟩
        sound := by simp
        flat := fun h => ⟨h, Flattens.nil⟩ }
  | case2 reported repeated value rest ih => exact ih.cons_primitive value
  | case3 reported repeated object rest hmet ih => exact ih.cons_reported hmet
  | case4 reported repeated object rest hmet hempty ih => exact ih.cons_object hmet hempty
  | case5 reported repeated object rest hmet hgroup ih => exact ih.cons_group hgroup

end Member

end Arc
