import Arc.DependencyInjection.ServiceLifetimes
import Arc.Foundation.Acyclic
import Mathlib.Data.List.Count

/-!
# The waits of a registry

The pending resolutions never wait for each other in a circle: a wait is refused exactly when its
node already waits, directly or not, for the one that would wait. So some pending resolution waits
for no pending one, and a wait is counted until its handler runs.
-/

namespace Arc.DependencyInjection

namespace ServiceContainer

open Relation

variable {κ : Type} {c c' : ServiceContainer κ} {source node target : ℕ}

/-- A pending node waits for a pending one. -/
def Waiting (c : ServiceContainer κ) (source node : ℕ) : Prop :=
  c.isPending source = true ∧ c.isPending node = true ∧ 0 < c.waits source node

/-- What is kept of the waits. -/
structure Waits (c : ServiceContainer κ) : Prop where
  counted : ∀ source node, c.waits source node = c.held.count (source, node)
  known : ∀ wait ∈ c.held, wait.1 < c.nodes ∧ wait.2 < c.nodes
  chains : ∀ node, node < c.nodes → ∀ ancestor ∈ (c.node node).chain, ancestor < c.nodes
  acyclic : Acyclic c.Waiting

/-! ### What `reaches` finds -/

theorem Waits.known_of_pos (h : Waits c) (hpos : 0 < c.waits source node) :
    source < c.nodes ∧ node < c.nodes := by
  rw [h.counted] at hpos
  exact h.known _ (List.count_pos_iff.1 hpos)

theorem lookFor_self (hpending : c.isPending target = true) :
    c.lookFor target target = .found () := by
  simp [lookFor, hpending]

theorem lookFor_of_ne (hpending : c.isPending node = true) (hne : node ≠ target) :
    c.lookFor target node =
      .next ((List.range c.nodes).filter fun other => 0 < c.waits node other) := by
  simp [lookFor, hpending, hne]

theorem of_lookFor_found (h : c.lookFor target node = .found ()) :
    node = target ∧ c.isPending node = true := by
  unfold lookFor at h
  split at h
  · cases h
  · rename_i hpending
    split at h
    · exact ⟨by assumption, by simpa using hpending⟩
    · cases h

theorem of_edge {other : ℕ} (h : Search.Edge (c.lookFor target) node other) :
    c.isPending node = true ∧ other < c.nodes ∧ 0 < c.waits node other := by
  obtain ⟨nodes, hlook, hmem⟩ := h
  unfold lookFor at hlook
  split at hlook
  · cases hlook
  · rename_i hpending
    split at hlook
    · cases hlook
    · cases hlook
      rw [List.mem_filter, List.mem_range] at hmem
      exact ⟨by simpa using hpending, hmem.1, by simpa using hmem.2⟩

/-- Along a path to the target, all nodes are pending. -/
theorem waiting_of_reaches {other : ℕ} (hpath : Search.Reaches (c.lookFor target) node other)
    (hfound : c.lookFor target other = .found ()) :
    c.isPending node = true ∧ ReflTransGen c.Waiting node target := by
  obtain ⟨rfl, hpending⟩ := of_lookFor_found hfound
  induction hpath using ReflTransGen.head_induction_on with
  | refl => exact ⟨hpending, ReflTransGen.refl⟩
  | head hedge _ ih =>
      obtain ⟨hfirst, -, hpos⟩ := of_edge hedge
      exact ⟨hfirst, ReflTransGen.head ⟨hfirst, ih.1, hpos⟩ ih.2⟩

theorem reaches_of_waiting (h : Waits c) (hpath : ReflTransGen c.Waiting node target) :
    Search.Reaches (c.lookFor target) node target := by
  induction hpath using ReflTransGen.head_induction_on with
  | refl => exact ReflTransGen.refl
  | @head first second hwaiting _ ih =>
      by_cases hsame : first = target
      · rw [hsame]
        exact ReflTransGen.refl
      · refine ReflTransGen.head ⟨_, lookFor_of_ne hwaiting.1 hsame, ?_⟩ ih
        rw [List.mem_filter, List.mem_range]
        exact ⟨(h.known_of_pos hwaiting.2.2).2, by simpa using hwaiting.2.2⟩

/-- `reaches` decides whether a node waits for a pending one. -/
theorem reaches_iff (h : Waits c) (hnode : node < c.nodes) (htarget : c.isPending target = true) :
    c.reaches node target = true ↔
      c.isPending node = true ∧ ReflTransGen c.Waiting node target := by
  have hgraph : ∀ other ∈ Finset.range c.nodes, ∀ leads, c.lookFor target other = .next leads →
      ∀ next ∈ leads, next ∈ Finset.range c.nodes := fun other _ leads hlook next hnext =>
    Finset.mem_range.2 (of_edge ⟨leads, hlook, hnext⟩).2.1
  unfold reaches
  rw [Search.search_isSome_iff hgraph (Finset.mem_range.2 hnode) (Finset.card_range _).le]
  constructor
  · rintro ⟨other, value, hpath, hfound⟩
    exact waiting_of_reaches hpath hfound
  · rintro ⟨-, hpath⟩
    exact ⟨target, (), reaches_of_waiting h hpath, lookFor_self htarget⟩

/-- A wait is refused exactly when it would close a circle. -/
theorem waitFor_error_iff (h : Waits c) (hnode : node < c.nodes) (name : String)
    {chain : List ℕ} (hsource : (chain.filter c.isPending).getLast? = some source) :
    (∃ error, c.waitFor node name chain = .error error) ↔
      c.isPending node = true ∧ ReflTransGen c.Waiting node source := by
  have hmem := List.mem_of_getLast? hsource
  rw [List.mem_filter] at hmem
  unfold waitFor
  rw [hsource, ← reaches_iff h hnode hmem.2]
  cases hpending : c.isPending node with
  | false =>
      have hnot : c.reaches node source = true → False := fun hreaches => by
        have hboth := (reaches_iff h hnode hmem.2).1 hreaches
        rw [hpending] at hboth
        cases hboth.1
      simpa using hnot
  | true => cases hreaches : c.reaches node source <;> simp [hreaches]

/-! ### Steps that leave the waits -/

theorem Waits.frame (h : Waits c) (hwaits : c'.waits = c.waits) (hheld : c'.held = c.held)
    (hnodes : c'.nodes = c.nodes) (hchain : ∀ node, (c'.node node).chain = (c.node node).chain)
    (hpending : ∀ node, c'.isPending node = true → c.isPending node = true) : Waits c' where
  counted source node := by rw [hwaits, hheld, h.counted]
  known wait hwait := by
    rw [hnodes]
    exact h.known wait (hheld ▸ hwait)
  chains node hnode ancestor hancestor := by
    rw [hnodes] at hnode ⊢
    rw [hchain] at hancestor
    exact h.chains node hnode ancestor hancestor
  acyclic := by
    refine h.acyclic.mono fun first second hwaiting => ?_
    obtain ⟨hfirst, hsecond, hpos⟩ := hwaiting
    exact ⟨hpending first hfirst, hpending second hsecond, hwaits ▸ hpos⟩

/-- A new node waits for none, and none waits for it. -/
theorem Waits.enter [DecidableEq κ] (h : Waits c) (scope : ℕ) (token : κ)
    (lifetime : ServiceLifetime) {chain : List ℕ} (hchain : ∀ ancestor ∈ chain, ancestor < c.nodes)
    (captive : Bool) : Waits (c.enter scope token lifetime chain captive) where
  counted := h.counted
  known wait hwait := by
    have hknown := h.known wait hwait
    simp only [ServiceContainer.enter]
    omega
  chains node hnode ancestor hancestor := by
    simp only [ServiceContainer.enter] at hnode hancestor ⊢
    by_cases hnew : node = c.nodes
    · rw [hnew, Function.update_self] at hancestor
      have hlt := hchain ancestor hancestor
      omega
    · rw [Function.update_of_ne hnew] at hancestor
      have hlt := h.chains node (by omega) ancestor hancestor
      omega
  acyclic := by
    refine h.acyclic.mono fun first second hwaiting => ?_
    obtain ⟨hfirst, hsecond, hpos⟩ := hwaiting
    obtain ⟨hfirstKnown, hsecondKnown⟩ := h.known_of_pos hpos
    simp only [isPending, ServiceContainer.enter] at hfirst hsecond
    rw [Function.update_of_ne (Nat.ne_of_lt hfirstKnown)] at hfirst
    rw [Function.update_of_ne (Nat.ne_of_lt hsecondKnown)] at hsecond
    exact ⟨hfirst, hsecond, hpos⟩

/-! ### Adding and ending a wait -/

theorem addWait_waits (c : ServiceContainer κ) (source node first second : ℕ) :
    (c.addWait source node).waits first second =
      c.waits first second + if (first, second) = (source, node) then 1 else 0 := by
  by_cases hfirst : first = source
  · subst hfirst
    by_cases hsecond : second = node
    · subst hsecond
      simp [addWait]
    · simp [addWait, hsecond]
  · simp [addWait, hfirst]

theorem Waits.addWait (h : Waits c) (hsource : source < c.nodes) (hnode : node < c.nodes)
    (hpending : c.isPending source = true) (hreaches : c.reaches node source = false)
    (hwaiting : c.isPending node = true) : Waits (c.addWait source node) where
  counted first second := by
    rw [addWait_waits, h.counted, ServiceContainer.addWait, List.count_append]
    by_cases hsame : (first, second) = (source, node)
    · simp [hsame]
    · rw [if_neg hsame, List.count_singleton, if_neg (by simpa using Ne.symm hsame)]
  known wait hwait := by
    rcases List.mem_append.1 hwait with hold | hnew
    · exact h.known wait hold
    · rw [List.mem_singleton.1 hnew]
      exact ⟨hsource, hnode⟩
  chains := h.chains
  acyclic := by
    have hback : ¬ ReflTransGen c.Waiting node source := by
      intro hpath
      have htrue := (reaches_iff h hnode hpending).2 ⟨hwaiting, hpath⟩
      rw [hreaches] at htrue
      cases htrue
    refine h.acyclic.insert (fun first second hadded => ?_) hback
    obtain ⟨hfirst, hsecond, hpos⟩ := hadded
    rw [addWait_waits] at hpos
    by_cases hsame : (first, second) = (source, node)
    · exact .inr (Prod.mk.inj hsame)
    · rw [if_neg hsame] at hpos
      exact .inl ⟨hfirst, hsecond, hpos⟩

theorem Waits.release (h : Waits c) (hstep : c.release source node = some c') : Waits c' := by
  unfold ServiceContainer.release at hstep
  by_cases hheld : (source, node) ∈ c.held ∧ c.isPending node = false
  · rw [if_pos hheld] at hstep
    cases hstep
    have hle : ∀ first second, Function.update c.waits source
        (Function.update (c.waits source) node (c.waits source node - 1)) first second =
          (c.held.erase (source, node)).count (first, second) := by
      intro first second
      rw [List.count_erase, ← h.counted]
      by_cases hfirst : first = source
      · subst hfirst
        by_cases hsecond : second = node
        · subst hsecond
          simp
        · simp [hsecond, Ne.symm hsecond]
      · simp [hfirst, Ne.symm hfirst]
    exact
      { counted := hle
        known := fun wait hwait => h.known wait (List.mem_of_mem_erase hwait)
        chains := h.chains
        acyclic := by
          refine h.acyclic.mono fun first second hwaiting => ?_
          obtain ⟨hfirst, hsecond, hpos⟩ := hwaiting
          refine ⟨hfirst, hsecond, ?_⟩
          change 0 < Function.update c.waits source _ first second at hpos
          rw [hle, List.count_erase, ← h.counted] at hpos
          omega }
  · rw [if_neg hheld] at hstep
    cases hstep

/-! ### Every run -/

section Run

variable [DecidableEq κ] {registry : ServiceRegistry κ}

omit [DecidableEq κ] in
theorem mem_livingChain (h : Waits c) {caller : Option ServiceCaller}
    (hcaller : caller.all (fun caller => caller.node < c.nodes) = true) :
    ∀ ancestor ∈ c.livingChain caller, ancestor < c.nodes := by
  intro ancestor hancestor
  cases caller with
  | none => cases hancestor
  | some caller =>
      have hknown : caller.node < c.nodes := by simpa using hcaller
      have hmem := (List.mem_filter.1 hancestor).1
      rcases List.mem_append.1 hmem with habove | hself
      · exact h.chains caller.node hknown ancestor habove
      · rw [List.mem_singleton.1 hself]
        exact hknown

theorem Waits.resolve (h : Waits c) (hheld : Held registry c) {scope : ℕ} {token : ServiceToken κ}
    {caller : Option ServiceCaller}
    (hcaller : caller.all (fun caller => caller.node < c.nodes) = true)
    (hresolve : c.resolve registry scope token caller = .ok (c', node)) : Waits c' := by
  obtain ⟨registration, target, base, -, -, hgiven, hwaited⟩ := resolve_eq_ok hresolve
  have hchain := mem_livingChain h hcaller
  have hbase : Waits base ∧ node < base.nodes ∧ c.nodes ≤ base.nodes := by
    rcases hgiven with ⟨rfl, -, hcached⟩ | ⟨rfl, rfl, -⟩
    · exact ⟨h, (hheld.cached _ _ _ hcached).1, Nat.le_refl _⟩
    · exact ⟨h.enter target token.key registration.lifetime hchain _, Nat.lt_succ_self _,
        Nat.le_succ _⟩
  rcases hwaited with rfl | ⟨source, hsource, hpending, hwaiting, hreaches, rfl⟩
  · exact hbase.1
  · exact hbase.1.addWait (Nat.lt_of_lt_of_le (hchain source hsource) hbase.2.2) hbase.2.1 hpending
      hreaches hwaiting

omit [DecidableEq κ] in
theorem Waits.setOutcome (h : Waits c) (node : ℕ) (outcome : Option ServiceValue) :
    Waits (c.setOutcome node outcome) := by
  refine h.frame rfl rfl rfl (fun other => ?_) (fun other hpending => ?_)
  · by_cases hother : other = node
    · simp [ServiceContainer.setOutcome, hother]
    · simp [ServiceContainer.setOutcome, hother]
  · by_cases hother : other = node
    · subst hother
      simpa [ServiceContainer.setOutcome, isPending] using hpending
    · simpa [ServiceContainer.setOutcome, isPending, hother] using hpending

omit [DecidableEq κ] in
theorem Waits.complete (h : Waits c) {made : Option ServiceValue}
    (hstep : c.complete registry node made = some c') : Waits c' := by
  unfold ServiceContainer.complete at hstep
  split at hstep
  · split at hstep
    · cases hstep
      exact h.setOutcome _ _
    · rename_i value _
      cases hstep
      cases value with
      | plain => exact h.setOutcome _ _
      | object id =>
          simp only [construct]
          split
          · refine Waits.setOutcome ?_ _ _
            exact h.frame rfl rfl rfl (fun _ => rfl) (fun _ hpending => hpending)
          · split
            · exact h.setOutcome _ _
            · exact h.setOutcome _ _
    · cases hstep
      exact h.setOutcome _ _
  · cases hstep

omit [DecidableEq κ] in
theorem Waits.setSettled (h : Waits c) (node : ℕ) : Waits (c.setSettled node) := by
  refine h.frame rfl rfl rfl (fun other => ?_) (fun other hpending => ?_)
  · by_cases hother : other = node
    · simp [ServiceContainer.setSettled, hother]
    · simp [ServiceContainer.setSettled, hother]
  · by_cases hother : other = node
    · subst hother
      simp [ServiceContainer.setSettled, isPending] at hpending
    · simpa [ServiceContainer.setSettled, isPending, hother] using hpending

theorem Waits.forget (h : Waits c) (scope : ℕ) (token : κ) (node : ℕ) :
    Waits (c.forget scope token node) := by
  unfold ServiceContainer.forget
  split
  · exact h.frame rfl rfl rfl (fun _ => rfl) (fun _ hpending => hpending)
  · exact h

theorem Waits.settle (h : Waits c) (hstep : c.settle node = some c') : Waits c' := by
  unfold ServiceContainer.settle at hstep
  split at hstep
  · split at hstep
    · cases hstep
    · cases hstep
      exact h.setSettled node
    · cases hstep
      have hforgotten := (h.setSettled node).forget (c.node node).scope (c.node node).token node
      split
      · exact hforgotten.frame rfl rfl rfl (fun _ => rfl) (fun _ hpending => hpending)
      · exact hforgotten
  · cases hstep

theorem Waits.step (h : Waits c) (hheld : Held registry c) {event : ServiceEvent κ}
    (hstep : c.step registry event = some c') : Waits c' := by
  by_cases hevent : isScopeEvent event = true
  · obtain ⟨hnode, hnodes, hwaits, hunreleased, -, -⟩ := scope_frame hevent hstep
    refine h.frame hwaits hunreleased hnodes (fun node => by rw [hnode]) fun node hpending => ?_
    rwa [isPending, hnode] at hpending
  · cases event with
    | resolve scope token caller =>
        simp only [ServiceContainer.step] at hstep
        split at hstep
        · rename_i hknown
          cases hstep
          cases hresolve : c.resolve registry scope token caller with
          | error error => exact h
          | ok result =>
              have hwaits := h.resolve hheld hknown.2 hresolve
              exact { hwaits with }
        · cases hstep
    | complete node made => exact h.complete hstep
    | settle node => exact h.settle hstep
    | release source node => exact h.release hstep
    | _ => exact absurd rfl hevent

theorem Waits.initial [Inhabited κ] : Waits (serviceContainer registry).init where
  counted _ _ := rfl
  known _ hwait := by cases hwait
  chains _ hknown := absurd hknown (Nat.not_lt_zero _)
  acyclic node hcycle := by
    have hnone : ∀ first second, ¬ (serviceContainer registry).init.Waiting first second :=
      fun _ _ hwaiting => absurd hwaiting.2.2 (Nat.lt_irrefl 0)
    cases hcycle with
    | single hedge => exact hnone _ _ hedge
    | tail _ hedge => exact hnone _ _ hedge

theorem Waits.reachable [Inhabited κ] (hc : (serviceContainer registry).Reachable c) :
    Waits c ∧ Held registry c :=
  Machine.Reachable.invariant (serviceContainer registry) (P := fun c => Waits c ∧ Held registry c)
    ⟨Waits.initial, Held.initial⟩
    (fun _ _ _ h hstep => ⟨h.1.step h.2 hstep, h.2.step hstep⟩) hc

/-- While something is pending, some pending node waits for no pending one. -/
theorem Waits.exists_free (h : Waits c) (hnode : node < c.nodes)
    (hpending : c.isPending node = true) :
    ∃ free, free < c.nodes ∧ c.isPending free = true ∧ ∀ other, ¬ c.Waiting free other := by
  have hnonempty : ((Finset.range c.nodes).filter fun node => c.isPending node = true).Nonempty :=
    ⟨node, Finset.mem_filter.2 ⟨Finset.mem_range.2 hnode, hpending⟩⟩
  obtain ⟨free, hfree, hlast⟩ := h.acyclic.exists_sink hnonempty
  obtain ⟨hknown, hrunning⟩ := Finset.mem_filter.1 hfree
  refine ⟨free, Finset.mem_range.1 hknown, hrunning, fun other hwaiting => ?_⟩
  have hother := (h.known_of_pos hwaiting.2.2).2
  exact hlast other (Finset.mem_filter.2 ⟨Finset.mem_range.2 hother, hwaiting.2.1⟩) hwaiting

end Run

/-- The waits in each state of a run. -/
structure WaitLaw (c : ServiceContainer κ) : Prop where
  acyclic : Acyclic c.Waiting
  counted : ∀ source node, c.waits source node = c.held.count (source, node)
  refused : ∀ node, node < c.nodes → ∀ name chain source,
    (chain.filter c.isPending).getLast? = some source →
      ((∃ error, c.waitFor node name chain = .error error) ↔
        c.isPending node = true ∧ ReflTransGen c.Waiting node source)
  free : ∀ node, node < c.nodes → c.isPending node = true →
    ∃ free, free < c.nodes ∧ c.isPending free = true ∧ ∀ other, ¬ c.Waiting free other

end ServiceContainer

/-- In every state of every run the pending resolutions do not wait for each other in a circle,
each wait is counted until its handler runs, a wait is refused exactly when it would close a
circle, and while something is pending some pending resolution waits for no pending one. -/
theorem waits_acyclic {κ : Type} [DecidableEq κ] [Inhabited κ] (registry : ServiceRegistry κ)
    (c : ServiceContainer κ) (hc : (serviceContainer registry).Reachable c) :
    ServiceContainer.WaitLaw c := by
  have hwaits := (ServiceContainer.Waits.reachable hc).1
  exact
    { acyclic := hwaits.acyclic
      counted := hwaits.counted
      refused := fun _ hnode name _ _ hsource =>
        ServiceContainer.waitFor_error_iff hwaits hnode name hsource
      free := fun _ hnode hpending => hwaits.exists_free hnode hpending }

theorem waits_acyclic_account :
    ∃ c, (serviceContainer accounts).exec (serviceContainer accounts).init accountRun = some c ∧
      ServiceContainer.WaitLaw c := by
  obtain ⟨c, hc⟩ := Option.isSome_iff_exists.1 accountRun_isSome
  exact ⟨c, hc, waits_acyclic accounts c ⟨accountRun, hc⟩⟩

end Arc.DependencyInjection
