import Arc.Foundation.Leaves
import Mathlib.Logic.Relation

/-!
# Preorder of shared objects

Nodes may stand for objects, and the nodes below one that does lead on to further objects;
objects may be shared and lead back to themselves. `visits` lists the nodes at which each
object is met first, in the order of a recursive walk (`preorder_visits`), which meets every
object that can be reached (`mem_objects_of_reaches`) and none twice.
-/

namespace Arc

/-- What a node stands for, and the nodes below it. -/
structure Walk (α ι : Type) where
  object? : α → Option ι
  next : α → List α

namespace Walk

variable {α ι : Type} (walk : Walk α ι)

/-- The objects of the nodes. -/
def objects (nodes : List α) : List ι :=
  nodes.filterMap walk.object?

/-- The node stands for an object, and the other is below it. -/
def Edge (node other : α) : Prop :=
  (walk.object? node).isSome ∧ other ∈ walk.next node

def Reaches : α → α → Prop :=
  Relation.ReflTransGen walk.Edge

section Order

variable [DecidableEq ι]

/-- The nodes of a list are walked one after the other: at an object that has not been met, the
node is visited and what is below it is walked before the rest. -/
inductive Preorder : Finset ι → List α → List α → Finset ι → Prop
  | nil (met : Finset ι) : Preorder met [] [] met
  | plain {met final : Finset ι} {node : α} {rest visited : List α}
      (hplain : walk.object? node = none) (hrest : Preorder met rest visited final) :
      Preorder met (node :: rest) visited final
  | met {met final : Finset ι} {node : α} {rest visited : List α} {object : ι}
      (hobject : walk.object? node = some object) (hmet : object ∈ met)
      (hrest : Preorder met rest visited final) : Preorder met (node :: rest) visited final
  | first {met between final : Finset ι} {node : α} {rest below visited : List α} {object : ι}
      (hobject : walk.object? node = some object) (hfirst : object ∉ met)
      (hbelow : Preorder (insert object met) (walk.next node) below between)
      (hrest : Preorder between rest visited final) :
      Preorder met (node :: rest) (node :: (below ++ visited)) final

variable {walk}

theorem Preorder.split {met final : Finset ι} {nodes more visited : List α}
    (h : walk.Preorder met (nodes ++ more) visited final) :
    ∃ first between second, visited = first ++ second ∧
      walk.Preorder met nodes first between ∧ walk.Preorder between more second final := by
  induction nodes generalizing met visited with
  | nil => exact ⟨[], met, visited, rfl, Preorder.nil met, h⟩
  | cons node rest ih =>
      cases h with
      | plain hplain hrest =>
          obtain ⟨first, between, second, heq, hfirst, hsecond⟩ := ih hrest
          exact ⟨first, between, second, heq, Preorder.plain hplain hfirst, hsecond⟩
      | met hobject hmet hrest =>
          obtain ⟨first, between, second, heq, hfirst, hsecond⟩ := ih hrest
          exact ⟨first, between, second, heq, Preorder.met hobject hmet hfirst, hsecond⟩
      | @first _ _ _ _ _ below _ _ hobject hnew hbelow hrest =>
          obtain ⟨first, between, second, rfl, hfirst, hsecond⟩ := ih hrest
          refine ⟨node :: (below ++ first), between, second, ?_,
            Preorder.first hobject hnew hbelow hfirst, hsecond⟩
          simp

/-- A walk goes one way. -/
theorem Preorder.unique {met final last : Finset ι} {nodes visited others : List α}
    (h : walk.Preorder met nodes visited final) (hother : walk.Preorder met nodes others last) :
    visited = others ∧ final = last := by
  induction h generalizing others last with
  | nil met =>
      cases hother
      exact ⟨rfl, rfl⟩
  | plain hplain _ ih =>
      cases hother with
      | plain _ hrest => exact ih hrest
      | met hobject _ _ => simp [hplain] at hobject
      | first hobject _ _ _ => simp [hplain] at hobject
  | met hobject hmet _ ih =>
      cases hother with
      | plain hplain _ => simp [hplain] at hobject
      | met _ _ hrest => exact ih hrest
      | first hsame hnew _ _ =>
          rw [hobject] at hsame
          cases hsame
          exact absurd hmet hnew
  | first hobject hnew _ _ ihbelow ihrest =>
      cases hother with
      | plain hplain _ => simp [hplain] at hobject
      | met hsame hmet _ =>
          rw [hobject] at hsame
          cases hsame
          exact absurd hmet hnew
      | first hsame _ hbelow hrest =>
          rw [hobject] at hsame
          cases hsame
          obtain ⟨rfl, rfl⟩ := ihbelow hbelow
          obtain ⟨rfl, rfl⟩ := ihrest hrest
          exact ⟨rfl, rfl⟩

end Order

/-! ### The visits of a walk -/

section Visits

/-- The nodes that are visited: those at which an object is met that has not been met. -/
def visits [Fintype ι] [DecidableEq ι] (met : Finset ι) : List α → List α
  | [] => []
  | node :: pending =>
      match walk.object? node with
      | none => visits met pending
      | some object =>
          if _h : object ∈ met then visits met pending
          else node :: visits (insert object met) (walk.next node ++ pending)
termination_by pending => ((Finset.univ \ met).card, pending.length)
decreasing_by
  · exact Prod.Lex.right _ (Nat.lt_succ_self _)
  · exact Prod.Lex.right _ (Nat.lt_succ_self _)
  · exact Prod.Lex.left _ _ (Member.card_unreported_lt _h)

theorem visits_first [Fintype ι] [DecidableEq ι] {met : Finset ι} {node : α} {pending : List α}
    {object : ι} (hobject : walk.object? node = some object) (hnew : object ∉ met) :
    walk.visits met (node :: pending) =
      node :: walk.visits (insert object met) (walk.next node ++ pending) := by
  rw [visits]
  simp [hobject, hnew]

theorem preorder_visits [Fintype ι] [DecidableEq ι] (met : Finset ι) (pending : List α) :
    ∃ final, walk.Preorder met pending (walk.visits met pending) final := by
  fun_induction visits walk met pending with
  | case1 met => exact ⟨met, Preorder.nil met⟩
  | case2 met node pending hplain ih =>
      obtain ⟨final, hrest⟩ := ih
      exact ⟨final, Preorder.plain hplain hrest⟩
  | case3 met node pending object hobject hmet ih =>
      obtain ⟨final, hrest⟩ := ih
      exact ⟨final, Preorder.met hobject hmet hrest⟩
  | case4 met node pending object hobject hnew ih =>
      obtain ⟨final, hwalk⟩ := ih
      obtain ⟨below, between, rest, heq, hbelow, hrest⟩ := hwalk.split
      rw [heq]
      exact ⟨final, Preorder.first hobject hnew hbelow hrest⟩

/-- What the visits of a walk are. -/
structure VisitLaw (met : Finset ι) (pending visited : List α) : Prop where
  nodup : (walk.objects visited).Nodup
  fresh : ∀ object ∈ walk.objects visited, object ∉ met
  named : ∀ node ∈ visited, (walk.object? node).isSome
  sound : ∀ node ∈ visited, ∃ root ∈ pending, walk.Reaches root node
  covers : ∀ node ∈ pending, ∀ object, walk.object? node = some object →
    object ∈ met ∨ object ∈ walk.objects visited
  closed : ∀ node ∈ visited, ∀ other ∈ walk.next node, ∀ object,
    walk.object? other = some object → object ∈ met ∨ object ∈ walk.objects visited

variable {walk}

theorem objects_cons {node : α} {object : ι} (h : walk.object? node = some object)
    (rest : List α) : walk.objects (node :: rest) = object :: walk.objects rest := by
  simp [objects, h]

theorem mem_objects {nodes : List α} {object : ι} :
    object ∈ walk.objects nodes ↔ ∃ node ∈ nodes, walk.object? node = some object :=
  List.mem_filterMap

/-- Among nodes for different objects, one stands for an object. -/
theorem eq_of_object_eq {nodes : List α} (h : (walk.objects nodes).Nodup) {node other : α}
    {object : ι} (hnode : node ∈ nodes) (hother : other ∈ nodes)
    (hobject : walk.object? node = some object) (hsame : walk.object? other = some object) :
    node = other := by
  induction nodes with
  | nil => cases hnode
  | cons first rest ih =>
      have hrest : (walk.objects rest).Nodup :=
        h.sublist ((List.sublist_cons_self first rest).filterMap _)
      rcases List.mem_cons.1 hnode with rfl | hbelow
      · rcases List.mem_cons.1 hother with rfl | hlater
        · rfl
        · rw [objects_cons hobject, List.nodup_cons] at h
          exact absurd (mem_objects.2 ⟨other, hlater, hsame⟩) h.1
      · rcases List.mem_cons.1 hother with rfl | hlater
        · rw [objects_cons hsame, List.nodup_cons] at h
          exact absurd (mem_objects.2 ⟨node, hbelow, hobject⟩) h.1
        · exact ih hrest hbelow hlater

/-- The rest of the nodes is walked when the first one adds nothing. -/
theorem VisitLaw.skip {met : Finset ι} {node : α} {pending visited : List α}
    (h : walk.VisitLaw met pending visited)
    (hskip : ∀ object, walk.object? node = some object → object ∈ met) :
    walk.VisitLaw met (node :: pending) visited where
  nodup := h.nodup
  fresh := h.fresh
  named := h.named
  sound := fun other hmem => by
    obtain ⟨root, hroot, hreaches⟩ := h.sound other hmem
    exact ⟨root, List.mem_cons_of_mem _ hroot, hreaches⟩
  covers := fun other hmem object hobject => by
    rcases List.mem_cons.1 hmem with rfl | hmem
    · exact .inl (hskip object hobject)
    · exact h.covers other hmem object hobject
  closed := h.closed

/-- A node for a new object is visited, and what is below it is walked next. -/
theorem VisitLaw.first [DecidableEq ι] {met : Finset ι} {node : α} {pending visited : List α}
    {object : ι} (h : walk.VisitLaw (insert object met) (walk.next node ++ pending) visited)
    (hobject : walk.object? node = some object) (hnew : object ∉ met) :
    walk.VisitLaw met (node :: pending) (node :: visited) := by
  -- what is met or visited below is met or visited here
  have hlift : ∀ other, (other ∈ insert object met ∨ other ∈ walk.objects visited) →
      other ∈ met ∨ other ∈ object :: walk.objects visited := by
    intro other hother
    rcases hother with hmet | hvisited
    · rcases Finset.mem_insert.1 hmet with rfl | hmet
      · exact .inr List.mem_cons_self
      · exact .inl hmet
    · exact .inr (List.mem_cons_of_mem _ hvisited)
  refine {
    nodup := ?_
    fresh := fun other hmem => ?_
    named := fun other hmem => ?_
    sound := fun other hmem => ?_
    covers := fun other hmem below hbelow => ?_
    closed := fun other hmem child hchild below hbelow => ?_ }
  · rw [objects_cons hobject]
    exact List.nodup_cons.2 ⟨fun hmem => h.fresh object hmem (Finset.mem_insert_self _ _),
      h.nodup⟩
  · rw [objects_cons hobject] at hmem
    rcases List.mem_cons.1 hmem with rfl | hmem
    · exact hnew
    · exact fun hmet => h.fresh other hmem (Finset.mem_insert_of_mem hmet)
  · rcases List.mem_cons.1 hmem with rfl | hmem
    · simp [hobject]
    · exact h.named other hmem
  · rcases List.mem_cons.1 hmem with rfl | hmem
    · exact ⟨_, List.mem_cons_self, .refl⟩
    · obtain ⟨root, hroot, hreaches⟩ := h.sound other hmem
      rcases List.mem_append.1 hroot with hroot | hroot
      · have hedge : walk.Edge node root := ⟨by simp [hobject], hroot⟩
        exact ⟨node, List.mem_cons_self, .head hedge hreaches⟩
      · exact ⟨root, List.mem_cons_of_mem _ hroot, hreaches⟩
  · rw [objects_cons hobject]
    rcases List.mem_cons.1 hmem with rfl | hmem
    · rw [hobject] at hbelow
      cases hbelow
      exact .inr List.mem_cons_self
    · exact hlift below (h.covers other (List.mem_append_right _ hmem) below hbelow)
  · rw [objects_cons hobject]
    rcases List.mem_cons.1 hmem with rfl | hmem
    · exact hlift below (h.covers child (List.mem_append_left _ hchild) below hbelow)
    · exact hlift below (h.closed other hmem child hchild below hbelow)

theorem visit_law [Fintype ι] [DecidableEq ι] (met : Finset ι) (pending : List α) :
    walk.VisitLaw met pending (walk.visits met pending) := by
  fun_induction visits walk met pending with
  | case1 met =>
      exact {
        nodup := List.nodup_nil
        fresh := by simp [objects]
        named := by simp
        sound := by simp
        covers := by simp
        closed := by simp }
  | case2 met node pending hplain ih =>
      refine ih.skip fun object hobject => ?_
      rw [hplain] at hobject
      cases hobject
  | case3 met node pending object hobject hmet ih =>
      refine ih.skip fun other hother => ?_
      rw [hobject] at hother
      cases hother
      exact hmet
  | case4 met node pending object hobject hnew ih => exact ih.first hobject hnew

/-- Every object that can be reached is met, if what is below an object does not depend on the
node that stands for it. -/
theorem mem_objects_of_reaches [Fintype ι] [DecidableEq ι]
    (hcongr : ∀ node other, walk.object? node = walk.object? other →
      (walk.next node).map walk.object? = (walk.next other).map walk.object?)
    {pending : List α} {root node : α} (hroot : root ∈ pending) (h : walk.Reaches root node)
    {object : ι} (hobject : walk.object? node = some object) :
    object ∈ walk.objects (walk.visits ∅ pending) := by
  have hlaw : walk.VisitLaw ∅ pending (walk.visits ∅ pending) := visit_law ∅ pending
  induction h generalizing object with
  | refl => exact (hlaw.covers root hroot object hobject).resolve_left (Finset.notMem_empty _)
  | @tail parent node _ hedge ih =>
      obtain ⟨above, habove⟩ := Option.isSome_iff_exists.1 hedge.1
      obtain ⟨visited, hvisited, hsame⟩ := List.mem_filterMap.1 (ih habove)
      have hmem : some object ∈ (walk.next visited).map walk.object? := by
        rw [hcongr visited parent (hsame.trans habove.symm), ← hobject]
        exact List.mem_map_of_mem hedge.2
      obtain ⟨child, hchild, heq⟩ := List.mem_map.1 hmem
      exact (hlaw.closed visited hvisited child hchild object heq).resolve_left
        (Finset.notMem_empty _)

end Visits

end Walk

end Arc
