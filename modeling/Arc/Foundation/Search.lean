import Mathlib.Data.Finset.Card
import Mathlib.Logic.Relation

/-!
# Searching a graph in depth

A search looks at a node: the node may be what is searched for, lead nowhere, or lead to others,
which are searched in turn unless the node has been seen. The depth of the search is bounded by
its fuel. What is found can be reached, on every graph; with as much fuel as there are nodes that
lead on, everything that can be reached is found.
-/

namespace Arc

/-- What looking at a node gives. -/
inductive Look (α β : Type)
  | found (value : β)
  | stop
  | next (nodes : List α)

namespace Search

variable {α β : Type} [DecidableEq α]

/-- Visit the nodes in order until one is found, with what has been seen. -/
def first (visit : α → List α → Option β × List α) : List α → List α → Option β × List α
  | [], seen => (none, seen)
  | node :: rest, seen =>
      match visit node seen with
      | (some value, after) => (some value, after)
      | (none, after) => first visit rest after

/-- Search from a node, with what has been seen. -/
def search (look : α → Look α β) : ℕ → α → List α → Option β × List α
  | 0, node, seen =>
      match look node with
      | .found value => (some value, seen)
      | _ => (none, seen)
  | fuel + 1, node, seen =>
      match look node with
      | .found value => (some value, seen)
      | .stop => (none, seen)
      | .next nodes =>
          if node ∈ seen then (none, seen)
          else first (search look fuel) nodes (node :: seen)

/-- The one node leads to the other. -/
def Edge (look : α → Look α β) (node other : α) : Prop :=
  ∃ nodes, look node = .next nodes ∧ other ∈ nodes

/-- The nodes a search can come to. -/
def Reaches (look : α → Look α β) : α → α → Prop :=
  Relation.ReflTransGen (Edge look)

variable {look : α → Look α β} {fuel : ℕ} {node : α} {seen : List α}

/-! ### What is found can be reached -/

omit [DecidableEq α] in
theorem first_sound {visit : α → List α → Option β × List α} {nodes : List α} {value : β}
    (h : (first visit nodes seen).1 = some value) :
    ∃ other ∈ nodes, ∃ before, (visit other before).1 = some value := by
  induction nodes generalizing seen with
  | nil => cases h
  | cons other rest ih =>
      rw [first] at h
      split at h
      · rename_i found after hvisit
        exact ⟨other, List.mem_cons_self, seen, by rw [hvisit]; exact h⟩
      · rename_i after hvisit
        obtain ⟨next, hnext, before, hbefore⟩ := ih h
        exact ⟨next, List.mem_cons_of_mem _ hnext, before, hbefore⟩

theorem search_sound {value : β} (h : (search look fuel node seen).1 = some value) :
    ∃ other, Reaches look node other ∧ look other = .found value := by
  induction fuel generalizing node seen with
  | zero =>
      rw [search] at h
      split at h
      · rename_i found hlook
        exact ⟨node, Relation.ReflTransGen.refl, by rw [hlook, Option.some.inj h]⟩
      · cases h
  | succ fuel ih =>
      rw [search] at h
      split at h
      · rename_i found hlook
        exact ⟨node, Relation.ReflTransGen.refl, by rw [hlook, Option.some.inj h]⟩
      · cases h
      · rename_i nodes hlook
        by_cases hseen : node ∈ seen
        · rw [if_pos hseen] at h
          cases h
        · rw [if_neg hseen] at h
          obtain ⟨next, hnext, before, hbefore⟩ := first_sound h
          obtain ⟨other, hreaches, hfound⟩ := ih hbefore
          exact ⟨other, Relation.ReflTransGen.head ⟨nodes, hlook, hnext⟩ hreaches, hfound⟩

/-! ### What can be reached is found -/

/-- What a search that found nothing leaves behind: it has come to the node, and what the nodes
it has newly seen lead to has been come to as well. -/
structure Explored (look : α → Look α β) (nodes seen after : List α) : Prop where
  grows : ∀ other ∈ seen, other ∈ after
  none_found : ∀ other ∈ nodes, ∀ value, look other ≠ .found value
  come : ∀ other ∈ nodes, ∀ leads, look other = .next leads → other ∈ after
  closed : ∀ other ∈ after, other ∉ seen → ∀ leads, look other = .next leads →
    ∀ next ∈ leads, (∀ value, look next ≠ .found value) ∧
      ∀ further, look next = .next further → next ∈ after

theorem Explored.append {nodes others seen middle after : List α}
    (hfirst : Explored look nodes seen middle) (hrest : Explored look others middle after) :
    Explored look (nodes ++ others) seen after where
  grows other hother := hrest.grows other (hfirst.grows other hother)
  none_found other hother := by
    rcases List.mem_append.1 hother with hnode | hnode
    · exact hfirst.none_found other hnode
    · exact hrest.none_found other hnode
  come other hother leads hlook := by
    rcases List.mem_append.1 hother with hnode | hnode
    · exact hrest.grows other (hfirst.come other hnode leads hlook)
    · exact hrest.come other hnode leads hlook
  closed other hother hnew leads hlook next hnext := by
    by_cases hmiddle : other ∈ middle
    · obtain ⟨hnone, hcome⟩ := hfirst.closed other hmiddle hnew leads hlook next hnext
      exact ⟨hnone, fun further hfurther => hrest.grows next (hcome further hfurther)⟩
    · exact hrest.closed other hother hmiddle leads hlook next hnext

theorem first_explored {visit : α → List α → Option β × List α} {P : List α → Prop}
    {nodes after : List α} (hnone : first visit nodes seen = (none, after)) (hP : P seen)
    (hgrows : ∀ before later, P before → (∀ other ∈ before, other ∈ later) → P later)
    (hvisit : ∀ other ∈ nodes, ∀ before later, P before → visit other before = (none, later) →
      Explored look [other] before later) : Explored look nodes seen after := by
  induction nodes generalizing seen with
  | nil =>
      cases hnone
      exact ⟨fun _ h => h, by simp, by simp, fun _ h hnew => absurd h hnew⟩
  | cons other rest ih =>
      rw [first] at hnone
      split at hnone
      · cases hnone
      · rename_i middle hmiddle
        have hfirst := hvisit other List.mem_cons_self seen middle hP hmiddle
        have hrest := ih hnone (hgrows seen middle hP hfirst.grows)
          (fun next hnext => hvisit next (List.mem_cons_of_mem _ hnext))
        exact hfirst.append hrest

omit [DecidableEq α] in
/-- A node that is not searched for and has been seen, or leads nowhere. -/
theorem Explored.of_seen (hnot : ∀ value, look node ≠ .found value)
    (hseen : ∀ leads, look node = .next leads → node ∈ seen) :
    Explored look [node] seen seen where
  grows _ hother := hother
  none_found other hother := by
    rw [List.mem_singleton.1 hother]
    exact hnot
  come other hother leads hleads := by
    rw [List.mem_singleton.1 hother] at hleads ⊢
    exact hseen leads hleads
  closed _ hother hnew := absurd hother hnew

theorem card_sdiff_cons_lt {graph : Finset α} (hnode : node ∈ graph) (hseen : node ∉ seen) :
    (graph \ (node :: seen).toFinset).card < (graph \ seen.toFinset).card := by
  refine Finset.card_lt_card (Finset.ssubset_iff_subset_ne.2 ⟨?_, fun heq => ?_⟩)
  · refine Finset.sdiff_subset_sdiff (Finset.Subset.refl _) ?_
    intro other hother
    simp only [List.toFinset_cons, Finset.mem_insert]
    exact .inr hother
  · have hmem : node ∈ graph \ seen.toFinset :=
      Finset.mem_sdiff.2 ⟨hnode, by simpa using hseen⟩
    rw [← heq] at hmem
    simp at hmem

/-- A search with fuel for all nodes that lead on and have not been seen explores them. -/
theorem search_explored {graph : Finset α}
    (hgraph : ∀ other ∈ graph, ∀ leads, look other = .next leads → ∀ next ∈ leads, next ∈ graph)
    {after : List α} (hnode : node ∈ graph) (hfuel : (graph \ seen.toFinset).card ≤ fuel)
    (hnone : search look fuel node seen = (none, after)) : Explored look [node] seen after := by
  induction fuel generalizing node seen after with
  | zero =>
      have hseen : node ∈ seen := by
        have hempty := Finset.card_eq_zero.1 (Nat.le_zero.1 hfuel)
        have hmem := Finset.sdiff_eq_empty_iff_subset.1 hempty hnode
        exact List.mem_toFinset.1 hmem
      rw [search] at hnone
      split at hnone
      · cases hnone
      · rename_i hnot
        cases hnone
        exact .of_seen hnot fun _ _ => hseen
  | succ fuel ih =>
      rw [search] at hnone
      split at hnone
      · cases hnone
      · rename_i hlook
        cases hnone
        exact .of_seen (by simp [hlook]) (by simp [hlook])
      · rename_i nodes hlook
        have hnot : ∀ value, look node ≠ .found value := by simp [hlook]
        by_cases hseen : node ∈ seen
        · rw [if_pos hseen] at hnone
          cases hnone
          exact .of_seen hnot fun _ _ => hseen
        · rw [if_neg hseen] at hnone
          have hless : (graph \ (node :: seen).toFinset).card ≤ fuel :=
            Nat.le_of_lt_succ ((card_sdiff_cons_lt hnode hseen).trans_le hfuel)
          have hinner : Explored look nodes (node :: seen) after := by
            refine first_explored (P := fun before =>
              (graph \ before.toFinset).card ≤ fuel) hnone hless ?_ ?_
            · intro before later hbefore hgrows
              refine (Finset.card_le_card ?_).trans hbefore
              refine Finset.sdiff_subset_sdiff (Finset.Subset.refl _) ?_
              intro other hother
              exact List.mem_toFinset.2 (hgrows other (List.mem_toFinset.1 hother))
            · intro other hother before later hbefore hvisit
              exact ih (hgraph node hnode nodes hlook other hother) hbefore hvisit
          refine ⟨fun other hother => hinner.grows other (List.mem_cons_of_mem _ hother),
            fun other hother => ?_, fun other hother _ _ => ?_, ?_⟩
          · rw [List.mem_singleton.1 hother]
            exact hnot
          · rw [List.mem_singleton.1 hother]
            exact hinner.grows node List.mem_cons_self
          · intro other hother hnew leads hleads next hnext
            by_cases hsame : other = node
            · subst hsame
              rw [hlook] at hleads
              cases hleads
              exact ⟨hinner.none_found next hnext, hinner.come next hnext⟩
            · refine hinner.closed other hother ?_ leads hleads next hnext
              simp [hsame, hnew]

/-- Searching a finite graph with enough fuel finds something exactly when something that is
searched for can be reached. -/
theorem search_isSome_iff {graph : Finset α}
    (hgraph : ∀ other ∈ graph, ∀ leads, look other = .next leads → ∀ next ∈ leads, next ∈ graph)
    (hnode : node ∈ graph) (hfuel : graph.card ≤ fuel) :
    (search look fuel node []).1.isSome = true ↔
      ∃ other value, Reaches look node other ∧ look other = .found value := by
  constructor
  · intro h
    obtain ⟨value, hvalue⟩ := Option.isSome_iff_exists.1 h
    obtain ⟨other, hreaches, hfound⟩ := search_sound hvalue
    exact ⟨other, value, hreaches, hfound⟩
  · rintro ⟨other, value, hreaches, hfound⟩
    by_contra hnone
    have hresult : search look fuel node [] = (none, (search look fuel node []).2) :=
      Prod.ext (Option.not_isSome_iff_eq_none.1 hnone) rfl
    have hexplored := search_explored hgraph hnode (by simpa using hfuel) hresult
    have hall : ∀ last, Reaches look node last → (∀ found, look last ≠ .found found) ∧
        ∀ leads, look last = .next leads → last ∈ (search look fuel node []).2 := by
      intro last hlast
      induction hlast with
      | refl =>
          exact ⟨hexplored.none_found node List.mem_cons_self,
            hexplored.come node List.mem_cons_self⟩
      | @tail middle last _ hedge ih =>
          obtain ⟨leads, hleads, hmem⟩ := hedge
          exact hexplored.closed middle (ih.2 leads hleads) (by simp) leads hleads last hmem
    exact (hall other hreaches).1 value hfound

end Search

end Arc
