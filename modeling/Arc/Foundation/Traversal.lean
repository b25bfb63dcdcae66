import Mathlib.Data.Finset.Card
import Mathlib.Data.Finset.SDiff
import Mathlib.Logic.Relation

/-!
# Walking a graph

A graph is walked with a stack of nodes still to visit and a set of visited ones. The visit of
a node may refuse, which ends the walk, and names the nodes next to it. The walk ends on every
finite graph, cycles included, and succeeds exactly when no node it can reach refuses
(`walk_eq_ok_iff`).
-/

namespace Arc

/-- Finitely many nodes, each with what its visit gives: an error, or the nodes next to it. -/
structure Graph (α ε : Type) where
  nodes : Finset α
  visit : α → Except ε (List α)

namespace Graph

variable {α ε : Type} [DecidableEq α]

/-- Visit the nodes of the stack and those next to them, each once. -/
def walk (graph : Graph α ε) (visited : Finset α) : List α → Except ε Unit
  | [] => .ok ()
  | node :: pending =>
      if _h : node ∈ visited ∨ node ∉ graph.nodes then walk graph visited pending
      else
        match graph.visit node with
        | .error error => .error error
        | .ok next => walk graph (insert node visited) (next.reverse ++ pending)
termination_by pending => ((graph.nodes \ visited).card, pending.length)
decreasing_by
  · exact Prod.Lex.right _ (Nat.lt_succ_self _)
  · refine Prod.Lex.left _ _ (Finset.card_lt_card ?_)
    rw [not_or, not_not] at _h
    refine Finset.ssubset_iff_subset_ne.2 ⟨Finset.sdiff_subset_sdiff (Finset.Subset.refl _)
      (Finset.subset_insert _ _), fun heq => ?_⟩
    have hmem : node ∈ graph.nodes \ insert node visited :=
      heq ▸ Finset.mem_sdiff.2 ⟨_h.2, _h.1⟩
    exact (Finset.mem_sdiff.1 hmem).2 (Finset.mem_insert_self _ _)

/-- The visit of the one node names the other. -/
def Edge (graph : Graph α ε) (node other : α) : Prop :=
  node ∈ graph.nodes ∧ ∃ next, graph.visit node = .ok next ∧ other ∈ next

/-- The nodes a walk from the roots comes to. -/
def Reaches (graph : Graph α ε) (roots : List α) (node : α) : Prop :=
  node ∈ graph.nodes ∧ ∃ root ∈ roots, Relation.ReflTransGen graph.Edge root node

/-- What the visited nodes name has been visited, or is still on the stack. -/
def Closed (graph : Graph α ε) (visited : Finset α) (pending : List α) : Prop :=
  ∀ node ∈ visited, ∃ next, graph.visit node = .ok next ∧
    ∀ other ∈ next, other ∈ graph.nodes → other ∈ visited ∨ other ∈ pending

variable {graph : Graph α ε} {visited : Finset α} {pending : List α}

/-- A walk that succeeds has visited a closed set of nodes. -/
theorem closed_of_walk (h : graph.walk visited pending = .ok ())
    (hclosed : graph.Closed visited pending) :
    ∃ final, visited ⊆ final ∧ (∀ node ∈ pending, node ∈ graph.nodes → node ∈ final) ∧
      graph.Closed final [] := by
  fun_induction walk graph visited pending with
  | case1 visited => exact ⟨visited, Finset.Subset.refl _, by simp, hclosed⟩
  | case2 visited node pending hskip ih =>
      have hrest : graph.Closed visited pending := by
        intro other hother
        obtain ⟨next, hnext, hall⟩ := hclosed other hother
        refine ⟨next, hnext, fun child hchild hnode => ?_⟩
        rcases hall child hchild hnode with hvisited | hpending
        · exact .inl hvisited
        · rcases List.mem_cons.1 hpending with rfl | hpending
          · exact .inl (hskip.resolve_right fun hnot => hnot hnode)
          · exact .inr hpending
      obtain ⟨final, hsub, hpending, hfinal⟩ := ih h hrest
      refine ⟨final, hsub, fun other hother hnode => ?_, hfinal⟩
      rcases List.mem_cons.1 hother with rfl | hother
      · exact hsub (hskip.resolve_right fun hnot => hnot hnode)
      · exact hpending other hother hnode
  | case3 visited node pending hskip error herror => cases h
  | case4 visited node pending hskip next hnext ih =>
      rw [List.unattach_reverse, List.unattach_attach] at ih
      have hrest : graph.Closed (insert node visited) (next.reverse ++ pending) := by
        intro other hother
        rcases Finset.mem_insert.1 hother with rfl | hother
        · exact ⟨next, hnext, fun child hchild _ =>
            .inr (List.mem_append_left _ (List.mem_reverse.2 hchild))⟩
        · obtain ⟨children, hchildren, hall⟩ := hclosed other hother
          refine ⟨children, hchildren, fun child hchild hnode => ?_⟩
          rcases hall child hchild hnode with hvisited | hpending
          · exact .inl (Finset.mem_insert_of_mem hvisited)
          · rcases List.mem_cons.1 hpending with rfl | hpending
            · exact .inl (Finset.mem_insert_self _ _)
            · exact .inr (List.mem_append_right _ hpending)
      obtain ⟨final, hsub, hpending, hfinal⟩ := ih h hrest
      refine ⟨final, (Finset.subset_insert _ _).trans hsub, fun other hother hnode => ?_, hfinal⟩
      rcases List.mem_cons.1 hother with rfl | hother
      · exact hsub (Finset.mem_insert_self _ _)
      · exact hpending other (List.mem_append_right _ hother) hnode

/-- A walk fails with the error of a node it can reach. -/
theorem reaches_of_walk {error : ε} (h : graph.walk visited pending = .error error) :
    ∃ node, graph.Reaches pending node ∧ graph.visit node = .error error := by
  fun_induction walk graph visited pending with
  | case1 visited => cases h
  | case2 visited node pending hskip ih =>
      obtain ⟨found, ⟨hnode, root, hroot, hpath⟩, herror⟩ := ih h
      exact ⟨found, ⟨hnode, root, List.mem_cons_of_mem _ hroot, hpath⟩, herror⟩
  | case3 visited node pending hskip error' herror =>
      rw [not_or, not_not] at hskip
      cases h
      exact ⟨node, ⟨hskip.2, node, List.mem_cons_self, .refl⟩, herror⟩
  | case4 visited node pending hskip next hnext ih =>
      rw [List.unattach_reverse, List.unattach_attach] at ih
      rw [not_or, not_not] at hskip
      obtain ⟨found, ⟨hnode, root, hroot, hpath⟩, herror⟩ := ih h
      rcases List.mem_append.1 hroot with hroot | hroot
      · have hedge : graph.Edge node root := ⟨hskip.2, next, hnext, List.mem_reverse.1 hroot⟩
        exact ⟨found, ⟨hnode, node, List.mem_cons_self, .head hedge hpath⟩, herror⟩
      · exact ⟨found, ⟨hnode, root, List.mem_cons_of_mem _ hroot, hpath⟩, herror⟩

/-- A walk succeeds exactly when every node it can reach lets itself be visited. -/
theorem walk_eq_ok_iff {roots : List α} :
    graph.walk ∅ roots = .ok () ↔
      ∀ node, graph.Reaches roots node → ∃ next, graph.visit node = .ok next := by
  constructor
  · rintro h node ⟨hnode, root, hroot, hpath⟩
    obtain ⟨final, -, hroots, hfinal⟩ := closed_of_walk h (fun node hmem => by simp at hmem)
    have hmem : node ∈ final := by
      induction hpath with
      | refl => exact hroots root hroot hnode
      | tail hpath hedge ih =>
          obtain ⟨hsource, next, hnext, hother⟩ := hedge
          obtain ⟨next', hnext', hall⟩ := hfinal _ (ih hsource)
          rw [hnext] at hnext'
          cases hnext'
          exact (hall _ hother hnode).resolve_right List.not_mem_nil
    obtain ⟨next, hnext, -⟩ := hfinal node hmem
    exact ⟨next, hnext⟩
  · intro h
    cases hwalk : graph.walk ∅ roots with
    | ok _ => rfl
    | error error =>
        obtain ⟨node, hreached, herror⟩ := reaches_of_walk hwalk
        obtain ⟨next, hnext⟩ := h node hreached
        rw [herror] at hnext
        cases hnext

end Graph

end Arc
