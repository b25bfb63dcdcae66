import Arc.DependencyInjection.ServiceCalls

/-!
# Lifetimes over whole runs

A singleton or scoped service has at most one attempt that is not forgotten, in the scope that
holds it, so all answers for it give one task; an attempt is forgotten when it has failed. A
factory under construction for a singleton is only ever given singletons.
-/

namespace Arc.DependencyInjection

/-- The lifetime that a key is registered with. -/
def ServiceRegistry.lifetimeOf {κ : Type} [DecidableEq κ] (registry : ServiceRegistry κ) (key : κ) :
    Option ServiceLifetime :=
  (registry.registrations.get key).map fun registration => registration.lifetime

namespace ServiceContainer

variable {κ : Type} [DecidableEq κ] {registry : ServiceRegistry κ} {c c' : ServiceContainer κ}
  {node : ℕ}

/-- The attempt has failed, and its handler has run. -/
def Forgotten (c : ServiceContainer κ) (node : ℕ) : Prop :=
  (c.node node).settled = true ∧ (c.node node).outcome = some none

/-- What is kept of the nodes and the caches. -/
structure Held (registry : ServiceRegistry κ) (c : ServiceContainer κ) : Prop where
  cached : ∀ scope key node, (c.scope scope).cache key = some node →
    node < c.nodes ∧ (c.node node).scope = scope ∧ (c.node node).token = key ∧ ¬ c.Forgotten node
  caches : ∀ node, node < c.nodes →
    registry.lifetimeOf (c.node node).token ≠ some .transient → ¬ c.Forgotten node →
    (c.scope (c.node node).scope).state ≠ .closed →
      (c.scope (c.node node).scope).cache (c.node node).token = some node
  one : ∀ first second, first < c.nodes → second < c.nodes →
    (c.node first).scope = (c.node second).scope → (c.node first).token = (c.node second).token →
    registry.lifetimeOf (c.node first).token ≠ some .transient → ¬ c.Forgotten first →
    ¬ c.Forgotten second → first = second
  lifetimes : ∀ node, node < c.nodes → ∃ lifetime,
    registry.lifetimeOf (c.node node).token = some lifetime ∧
      ((c.node node).scope = 0 ↔ lifetime = .singleton) ∧
      ((c.node node).singleton = true ↔ lifetime = .singleton)
  done : ∀ node, (c.node node).settled = true → (c.node node).outcome ≠ none
  failed : ∀ node, node < c.nodes → (c.node node).scope = 0 → c.Forgotten node →
    c.singletonFailed = true
  answered : ∀ answer ∈ c.answers, answer.node < c.nodes ∧
    (c.node answer.node).token = answer.token ∧
      ((c.node answer.node).scope = answer.scope ∨
        registry.lifetimeOf answer.token = some .singleton)
  captive : ∀ answer ∈ c.answers, ∀ owner, answer.owner = some owner → owner < c.nodes ∧
    ((c.node owner).singleton = true → registry.lifetimeOf answer.token = some .singleton)

/-! ### Steps that keep the nodes -/

theorem Held.frame (h : Held registry c) (hnodes : c'.nodes = c.nodes)
    (hnode : ∀ node, (c'.node node).scope = (c.node node).scope ∧
      (c'.node node).token = (c.node node).token ∧
      (c'.node node).singleton = (c.node node).singleton)
    (hforgotten : ∀ node, c'.Forgotten node ↔ c.Forgotten node)
    (hdone : ∀ node, (c'.node node).settled = true → (c'.node node).outcome ≠ none)
    (hcache : ∀ scope, (c'.scope scope).cache = (c.scope scope).cache ∧
        ((c.scope scope).state = .closed → (c'.scope scope).state = .closed) ∨
      (c'.scope scope).cache = (fun _ => none) ∧ (c'.scope scope).state = .closed)
    (hfailed : c.singletonFailed = true → c'.singletonFailed = true)
    (hanswers : c'.answers = c.answers) : Held registry c' where
  cached scope key node hentry := by
    rw [hnodes, (hnode node).1, (hnode node).2.1, hforgotten]
    rcases hcache scope with ⟨hsame, -⟩ | ⟨hcleared, -⟩
    · exact h.cached scope key node (hsame ▸ hentry)
    · rw [hcleared] at hentry
      cases hentry
  caches node hknown hlifetime hliving hopen := by
    rw [hnodes] at hknown
    rw [hforgotten] at hliving
    rw [(hnode node).1] at hopen ⊢
    rw [(hnode node).2.1] at hlifetime ⊢
    rcases hcache (c.node node).scope with ⟨hsame, hclosed⟩ | ⟨-, hclosed⟩
    · rw [hsame]
      exact h.caches node hknown hlifetime hliving (mt hclosed hopen)
    · exact absurd hclosed hopen
  one first second hfirst hsecond hscope htoken hlifetime hone htwo := by
    rw [hnodes] at hfirst hsecond
    rw [hforgotten] at hone htwo
    rw [(hnode first).1, (hnode second).1] at hscope
    rw [(hnode first).2.1, (hnode second).2.1] at htoken
    rw [(hnode first).2.1] at hlifetime
    exact h.one first second hfirst hsecond hscope htoken hlifetime hone htwo
  lifetimes node hknown := by
    rw [(hnode node).1, (hnode node).2.1, (hnode node).2.2]
    exact h.lifetimes node (hnodes ▸ hknown)
  done := hdone
  failed node hknown hscope hgone := by
    rw [(hnode node).1] at hscope
    rw [hforgotten] at hgone
    exact hfailed (h.failed node (hnodes ▸ hknown) hscope hgone)
  answered answer hanswer := by
    rw [hnodes, (hnode answer.node).1, (hnode answer.node).2.1]
    exact h.answered answer (hanswers ▸ hanswer)
  captive answer hanswer owner howner := by
    rw [hnodes, (hnode owner).2.2]
    exact h.captive answer (hanswers ▸ hanswer) owner howner

/-- An attempt that has not ended gets an outcome. -/
theorem Held.setOutcome (h : Held registry c) (hpending : (c.node node).outcome = none)
    (outcome : Option ServiceValue) : Held registry (c.setOutcome node outcome) := by
  have hrunning : (c.node node).settled = false := by
    cases hsettled : (c.node node).settled with
    | false => rfl
    | true => exact absurd hpending (h.done node hsettled)
  refine h.frame rfl (fun other => ?_) (fun other => ?_) (fun other => ?_)
    (fun _ => .inl ⟨rfl, id⟩) id rfl
  · by_cases hother : other = node
    · simp [ServiceContainer.setOutcome, hother]
    · simp [ServiceContainer.setOutcome, hother]
  · by_cases hother : other = node
    · subst hother
      simp [Forgotten, ServiceContainer.setOutcome, hrunning]
    · simp [Forgotten, ServiceContainer.setOutcome, hother]
  · have hdone := h.done other
    by_cases hother : other = node
    · simp [ServiceContainer.setOutcome, hother]
    · simpa [ServiceContainer.setOutcome, hother] using hdone

theorem Held.push (h : Held registry c) (scope object : ℕ) :
    Held registry (c.push scope object) := by
  refine h.frame rfl (fun _ => ⟨rfl, rfl, rfl⟩) (fun _ => Iff.rfl) h.done (fun other => .inl ?_) id
    rfl
  by_cases hother : other = scope
  · simp [ServiceContainer.push, setScope, hother]
  · simp [ServiceContainer.push, setScope, hother]

theorem Held.complete (h : Held registry c) {made : Option ServiceValue}
    (hstep : c.complete registry node made = some c') : Held registry c' := by
  unfold ServiceContainer.complete at hstep
  split at hstep
  · rename_i hpending
    split at hstep
    · cases hstep
      exact h.setOutcome hpending.2 _
    · rename_i value _
      cases hstep
      cases value with
      | plain => exact h.setOutcome hpending.2 _
      | object id =>
          simp only [construct]
          split
          · exact (h.push _ _).setOutcome hpending.2 _
          · split
            · exact h.setOutcome hpending.2 _
            · exact h.setOutcome hpending.2 _
    · cases hstep
      exact h.setOutcome hpending.2 _
  · cases hstep

/-! ### Settling -/

/-- A task that was fulfilled settles. -/
theorem Held.setSettled (h : Held registry c) {value : ServiceValue}
    (houtcome : (c.node node).outcome = some (some value)) :
    Held registry (c.setSettled node) := by
  refine h.frame rfl (fun other => ?_) (fun other => ?_) (fun other => ?_)
    (fun _ => .inl ⟨rfl, id⟩) id rfl
  · by_cases hother : other = node
    · simp [ServiceContainer.setSettled, hother]
    · simp [ServiceContainer.setSettled, hother]
  · by_cases hother : other = node
    · subst hother
      simp [Forgotten, ServiceContainer.setSettled, houtcome]
    · simp [Forgotten, ServiceContainer.setSettled, hother]
  · have hdone := h.done other
    by_cases hother : other = node
    · simp [ServiceContainer.setSettled, hother, houtcome]
    · simpa [ServiceContainer.setSettled, hother] using hdone

/-- The state after the handler of a failed task, but for the mark of a singleton. -/
def failedState (c : ServiceContainer κ) (node : ℕ) : ServiceContainer κ :=
  (c.setSettled node).forget (c.node node).scope (c.node node).token node

theorem failedState_node (c : ServiceContainer κ) (node other : ℕ) :
    ((c.failedState node).node other).scope = (c.node other).scope ∧
      ((c.failedState node).node other).token = (c.node other).token ∧
      ((c.failedState node).node other).singleton = (c.node other).singleton ∧
      ((c.failedState node).node other).outcome = (c.node other).outcome ∧
      (((c.failedState node).node other).settled = true ↔
        other = node ∨ (c.node other).settled = true) := by
  have hsame : (c.failedState node).node = (c.setSettled node).node := by
    unfold failedState forget
    split <;> rfl
  rw [hsame]
  by_cases hother : other = node
  · simp [setSettled, hother]
  · simp [setSettled, hother]

theorem forgotten_failedState (houtcome : (c.node node).outcome = some none) (other : ℕ) :
    (c.failedState node).Forgotten other ↔ other = node ∨ c.Forgotten other := by
  obtain ⟨-, -, -, hout, hsettled⟩ := failedState_node c node other
  unfold Forgotten
  rw [hout, hsettled]
  constructor
  · rintro ⟨hnew | hold, hnone⟩
    · exact .inl hnew
    · exact .inr ⟨hold, hnone⟩
  · rintro (rfl | ⟨hold, hnone⟩)
    · exact ⟨.inl rfl, houtcome⟩
    · exact ⟨.inr hold, hnone⟩

/-- Only the entry of the failed node is removed. -/
theorem failedState_cache (h : Held registry c) (node scope : ℕ) (key : κ) :
    ((c.failedState node).scope scope).cache key =
        (if (c.scope scope).cache key = some node then none else (c.scope scope).cache key) ∧
      ((c.failedState node).scope scope).state = (c.scope scope).state := by
  unfold failedState forget
  have hsame : (c.setSettled node).scope = c.scope := rfl
  rw [hsame]
  by_cases hentry : (c.scope (c.node node).scope).cache (c.node node).token = some node
  · rw [if_pos hentry]
    by_cases hscope : scope = (c.node node).scope
    · subst hscope
      by_cases hkey : key = (c.node node).token
      · subst hkey
        simp [setScope, hsame, hentry]
      · have hother : (c.scope (c.node node).scope).cache key ≠ some node := fun hkeyed =>
          hkey (h.cached _ _ _ hkeyed).2.2.1.symm
        simp [setScope, hsame, hkey, hother]
    · have hother : (c.scope scope).cache key ≠ some node := fun hkeyed =>
        hscope (h.cached _ _ _ hkeyed).2.1.symm
      simp [setScope, hsame, hscope, hother]
  · rw [if_neg hentry]
    have hother : (c.scope scope).cache key ≠ some node := by
      intro hkeyed
      obtain ⟨-, rfl, rfl, -⟩ := h.cached _ _ _ hkeyed
      exact hentry hkeyed
    rw [if_neg hother]
    exact ⟨rfl, rfl⟩

/-- A failed attempt is forgotten; of a singleton, it is the end of the registry. -/
theorem Held.fail (h : Held registry c) (houtcome : (c.node node).outcome = some none)
    (hend : (c.node node).scope = 0 → c'.singletonFailed = true)
    (hsame : c'.node = (c.failedState node).node ∧ c'.nodes = c.nodes ∧
      c'.scope = (c.failedState node).scope ∧ c'.answers = c.answers)
    (hkept : c.singletonFailed = true → c'.singletonFailed = true) : Held registry c' := by
  obtain ⟨hnode, hnodes, hscope, hanswers⟩ := hsame
  have hforgotten : ∀ other, c'.Forgotten other ↔ other = node ∨ c.Forgotten other := by
    intro other
    have hiff := forgotten_failedState (c := c) houtcome other
    unfold Forgotten at hiff ⊢
    rw [hnode]
    exact hiff
  constructor
  · intro scope key other hentry
    rw [hscope, (failedState_cache h node scope key).1] at hentry
    split at hentry
    · cases hentry
    · rename_i hne
      obtain ⟨hknown, hheld, htoken, hliving⟩ := h.cached scope key other hentry
      rw [hnodes, hnode, (failedState_node c node other).1, (failedState_node c node other).2.1,
        hforgotten]
      refine ⟨hknown, hheld, htoken, ?_⟩
      rintro (rfl | hgone)
      · exact hne hentry
      · exact hliving hgone
  · intro other hknown hlifetime hliving hopen
    rw [hforgotten, not_or] at hliving
    rw [hnodes] at hknown
    rw [hnode, (failedState_node c node other).2.1] at hlifetime
    rw [hnode, hscope, (failedState_node c node other).1,
      (failedState_cache h node _ (c.node node).token).2] at hopen
    rw [hnode, hscope, (failedState_node c node other).1, (failedState_node c node other).2.1,
      (failedState_cache h node _ _).1, h.caches other hknown hlifetime hliving.2 hopen,
      if_neg (by simpa using hliving.1)]
  · intro first second hfirst hsecond hheld htoken hlifetime hone htwo
    rw [hforgotten, not_or] at hone htwo
    rw [hnodes] at hfirst hsecond
    rw [hnode, (failedState_node c node first).1, (failedState_node c node second).1] at hheld
    rw [hnode, (failedState_node c node first).2.1, (failedState_node c node second).2.1] at htoken
    rw [hnode, (failedState_node c node first).2.1] at hlifetime
    exact h.one first second hfirst hsecond hheld htoken hlifetime hone.2 htwo.2
  · intro other hknown
    rw [hnode, (failedState_node c node other).1, (failedState_node c node other).2.1,
      (failedState_node c node other).2.2.1]
    exact h.lifetimes other (hnodes ▸ hknown)
  · intro other hsettled
    obtain ⟨-, -, -, hout, hiff⟩ := failedState_node c node other
    rw [hnode] at hsettled ⊢
    rw [hout]
    rcases hiff.1 hsettled with rfl | hold
    · rw [houtcome]
      simp
    · exact h.done other hold
  · intro other hknown hheld hgone
    rw [hnode, (failedState_node c node other).1] at hheld
    rcases (hforgotten other).1 hgone with rfl | hold
    · exact hend hheld
    · exact hkept (h.failed other (hnodes ▸ hknown) hheld hold)
  · intro answer hanswer
    rw [hnodes, hnode, (failedState_node c node answer.node).1,
      (failedState_node c node answer.node).2.1]
    exact h.answered answer (hanswers ▸ hanswer)
  · intro answer hanswer owner howner
    rw [hnodes, hnode, (failedState_node c node owner).2.2.1]
    exact h.captive answer (hanswers ▸ hanswer) owner howner

theorem Held.settle (h : Held registry c) (hstep : c.settle node = some c') : Held registry c' := by
  unfold ServiceContainer.settle at hstep
  split at hstep
  · split at hstep
    · cases hstep
    · rename_i value houtcome
      cases hstep
      exact h.setSettled houtcome
    · rename_i houtcome
      cases hstep
      have hflags : (c.failedState node).singletonFailed = c.singletonFailed ∧
          (c.failedState node).nodes = c.nodes ∧ (c.failedState node).answers = c.answers := by
        unfold failedState forget
        split <;> exact ⟨rfl, rfl, rfl⟩
      by_cases hsingleton : (c.node node).scope = 0
      · rw [if_pos hsingleton]
        exact h.fail houtcome (fun _ => rfl) ⟨rfl, hflags.2.1, rfl, hflags.2.2⟩ (fun _ => rfl)
      · rw [if_neg hsingleton]
        exact h.fail houtcome (fun hzero => absurd hzero hsingleton)
          ⟨rfl, hflags.2.1, rfl, hflags.2.2⟩ (fun hfailed => hflags.1.trans hfailed)
  · cases hstep

/-! ### Resolving -/

omit [DecidableEq κ] in
theorem canResolve_state {scope : ℕ} {caller : Option ServiceCaller}
    (h : c.canResolve scope caller = true) :
    (c.scope scope).state ≠ .closed ∧ c.singletonFailed = false := by
  unfold canResolve at h
  split at h
  · cases h
  · rename_i hlive
    simpa [and_comm] using hlive

section Enter

variable {target : ℕ} {key : κ} {lifetime : ServiceLifetime} {chain : List ℕ} {captive : Bool}

theorem enter_node_of_ne {other : ℕ} (hother : other ≠ c.nodes) :
    (c.enter target key lifetime chain captive).node other = c.node other :=
  Function.update_of_ne hother _ _

theorem enter_node_self :
    (c.enter target key lifetime chain captive).node c.nodes =
      { scope := target, token := key, chain := chain
        singleton := captive || lifetime = .singleton } :=
  Function.update_self _ _ _

theorem enter_forgotten (other : ℕ) :
    (c.enter target key lifetime chain captive).Forgotten other ↔
      other ≠ c.nodes ∧ c.Forgotten other := by
  by_cases hother : other = c.nodes
  · subst hother
    simp [Forgotten, enter_node_self]
  · simp [Forgotten, enter_node_of_ne hother, hother]

theorem enter_cache (scope : ℕ) (other : κ) :
    ((c.enter target key lifetime chain captive).scope scope).cache other =
        (if lifetime ≠ .transient ∧ scope = target ∧ other = key then some c.nodes
          else (c.scope scope).cache other) ∧
      ((c.enter target key lifetime chain captive).scope scope).state = (c.scope scope).state := by
  unfold enter
  by_cases htransient : lifetime = .transient
  · simp [htransient]
  · by_cases hscope : scope = target
    · subst hscope
      by_cases hother : other = key
      · simp [htransient, hother]
      · simp [htransient, hother]
    · simp [htransient, hscope]

/-- A new attempt for a service that its scope does not hold. -/
theorem Held.enter (h : Held registry c) (hopen : (c.scope target).state ≠ .closed)
    (hlifetime : registry.lifetimeOf key = some lifetime)
    (hnone : lifetime ≠ .transient → (c.scope target).cache key = none)
    (hsingleton : lifetime = .singleton → target = 0)
    (hother : lifetime ≠ .singleton → target ≠ 0 ∧ captive = false) :
    Held registry (c.enter target key lifetime chain captive) := by
  have hfresh : ∀ node, node < c.nodes → (c.node node).scope = target →
      (c.node node).token = key → lifetime ≠ .transient → c.Forgotten node := by
    intro node hknown hscope htoken htransient
    by_contra hliving
    have hcached := h.caches node hknown (by rw [htoken, hlifetime]; simpa using htransient) hliving
      (by rwa [hscope])
    rw [hscope, htoken, hnone htransient] at hcached
    cases hcached
  constructor
  · intro scope other node hentry
    rw [(enter_cache scope other).1] at hentry
    rw [enter_forgotten]
    split at hentry
    · rename_i hnew
      cases hentry
      rw [enter_node_self]
      exact ⟨Nat.lt_succ_self _, hnew.2.1.symm, hnew.2.2.symm, fun hgone => hgone.1 rfl⟩
    · obtain ⟨hknown, hscope, htoken, hliving⟩ := h.cached scope other node hentry
      rw [enter_node_of_ne (Nat.ne_of_lt hknown)]
      exact ⟨Nat.lt_succ_of_lt hknown, hscope, htoken, fun hgone => hliving hgone.2⟩
  · intro node hknown hheld hliving hstate
    rw [(enter_cache _ (c.node node).token).2] at hstate
    rw [(enter_cache _ _).1]
    rw [enter_forgotten] at hliving
    by_cases hnew : node = c.nodes
    · subst hnew
      rw [enter_node_self] at hheld ⊢
      have htransient : lifetime ≠ .transient := by
        rintro rfl
        exact hheld hlifetime
      rw [if_pos ⟨htransient, rfl, rfl⟩]
    · rw [enter_node_of_ne hnew] at hheld hstate ⊢
      have hold : node < c.nodes := Nat.lt_of_le_of_ne (Nat.le_of_lt_succ hknown) hnew
      have hremains : ¬ c.Forgotten node := fun hgone => hliving ⟨hnew, hgone⟩
      rw [if_neg fun hsame => hremains (hfresh node hold hsame.2.1 hsame.2.2 hsame.1)]
      exact h.caches node hold hheld hremains hstate
  · intro first second hfirst hsecond hscope htoken hheld hone htwo
    rw [enter_forgotten] at hone htwo
    by_cases hnew : first = c.nodes
    · by_cases hsame : second = c.nodes
      · rw [hnew, hsame]
      · exfalso
        subst hnew
        rw [enter_node_self] at hheld
        rw [enter_node_self, enter_node_of_ne hsame] at hscope htoken
        have hold : second < c.nodes := Nat.lt_of_le_of_ne (Nat.le_of_lt_succ hsecond) hsame
        refine htwo ⟨hsame, hfresh second hold hscope.symm htoken.symm ?_⟩
        rintro rfl
        exact hheld hlifetime
    · have hold : first < c.nodes := Nat.lt_of_le_of_ne (Nat.le_of_lt_succ hfirst) hnew
      rw [enter_node_of_ne hnew] at hheld
      by_cases hsame : second = c.nodes
      · exfalso
        subst hsame
        rw [enter_node_self, enter_node_of_ne hnew] at hscope htoken
        refine hone ⟨hnew, hfresh first hold hscope htoken ?_⟩
        rintro rfl
        rw [show (c.node first).token = key from htoken] at hheld
        exact hheld hlifetime
      · rw [enter_node_of_ne hnew, enter_node_of_ne hsame] at hscope htoken
        exact h.one first second hold
          (Nat.lt_of_le_of_ne (Nat.le_of_lt_succ hsecond) hsame) hscope htoken hheld
          (fun hgone => hone ⟨hnew, hgone⟩) (fun hgone => htwo ⟨hsame, hgone⟩)
  · intro node hknown
    by_cases hnew : node = c.nodes
    · subst hnew
      rw [enter_node_self]
      refine ⟨lifetime, hlifetime, ⟨fun hzero => ?_, hsingleton⟩, ⟨fun hflag => ?_, fun hl => ?_⟩⟩
      · by_contra hl
        exact (hother hl).1 hzero
      · by_contra hl
        simp [(hother hl).2, hl] at hflag
      · simp [hl]
    · rw [enter_node_of_ne hnew]
      exact h.lifetimes node (Nat.lt_of_le_of_ne (Nat.le_of_lt_succ hknown) hnew)
  · intro node hsettled
    by_cases hnew : node = c.nodes
    · subst hnew
      rw [enter_node_self] at hsettled
      cases hsettled
    · rw [enter_node_of_ne hnew] at hsettled ⊢
      exact h.done node hsettled
  · intro node hknown hscope hgone
    obtain ⟨hnew, hold⟩ := (enter_forgotten node).1 hgone
    rw [enter_node_of_ne hnew] at hscope
    exact h.failed node (Nat.lt_of_le_of_ne (Nat.le_of_lt_succ hknown) hnew) hscope hold
  · intro answer hanswer
    obtain ⟨hknown, hrest⟩ := h.answered answer hanswer
    rw [enter_node_of_ne (Nat.ne_of_lt hknown)]
    exact ⟨Nat.lt_succ_of_lt hknown, hrest⟩
  · intro answer hanswer owner howner
    obtain ⟨hknown, hrest⟩ := h.captive answer hanswer owner howner
    rw [enter_node_of_ne (Nat.ne_of_lt hknown)]
    exact ⟨Nat.lt_succ_of_lt hknown, hrest⟩

end Enter

theorem Held.addWait (h : Held registry c) (source node : ℕ) :
    Held registry (c.addWait source node) :=
  h.frame rfl (fun _ => ⟨rfl, rfl, rfl⟩) (fun _ => Iff.rfl) h.done (fun _ => .inl ⟨rfl, id⟩) id rfl

theorem Held.release (h : Held registry c) {source : ℕ}
    (hstep : c.release source node = some c') : Held registry c' := by
  unfold ServiceContainer.release at hstep
  split at hstep
  · cases hstep
    exact h.frame rfl (fun _ => ⟨rfl, rfl, rfl⟩) (fun _ => Iff.rfl) h.done
      (fun _ => .inl ⟨rfl, id⟩) id rfl
  · cases hstep

/-- The node of a call is that of the service, in the scope that holds it. -/
theorem Held.resolve (h : Held registry c) {scope : ℕ} {token : ServiceToken κ}
    {caller : Option ServiceCaller}
    (hresolve : c.resolve registry scope token caller = .ok (c', node)) :
    Held registry c' ∧ c'.answers = c.answers ∧ c.nodes ≤ c'.nodes ∧ node < c'.nodes ∧
      (∀ other, other < c.nodes → c'.node other = c.node other) ∧
      (c'.node node).token = token.key ∧
      ((c'.node node).scope = scope ∨ registry.lifetimeOf token.key = some .singleton) ∧
      (c.isCaptive caller = true → registry.lifetimeOf token.key = some .singleton) := by
  obtain ⟨registration, target, base, hget, hallowed, hgiven, hwaited⟩ := resolve_eq_ok hresolve
  have hlifetime : registry.lifetimeOf token.key = some registration.lifetime := by
    rw [ServiceRegistry.lifetimeOf, hget]
    rfl
  have hcaptive : c.isCaptive caller = true →
      registry.lifetimeOf token.key = some .singleton := by
    intro hcaught
    rw [hlifetime]
    by_contra hother
    have hnot := (hallowed.other fun hsingleton => hother (by rw [hsingleton])).2.2
    rw [hcaught] at hnot
    cases hnot
  have htarget : target = scope ∨ registry.lifetimeOf token.key = some .singleton := by
    by_cases hsingleton : registration.lifetime = .singleton
    · exact .inr (hlifetime.trans (by rw [hsingleton]))
    · exact .inl (hallowed.other hsingleton).1
  have hbase : Held registry base ∧ base.answers = c.answers ∧ c.nodes ≤ base.nodes ∧
      node < base.nodes ∧ (∀ other, other < c.nodes → base.node other = c.node other) ∧
      (base.node node).token = token.key ∧ (base.node node).scope = target := by
    rcases hgiven with ⟨rfl, -, hcached⟩ | ⟨rfl, rfl, hnone⟩
    · obtain ⟨hknown, hheld, htoken, -⟩ := h.cached _ _ _ hcached
      exact ⟨h, rfl, Nat.le_refl _, hknown, fun _ _ => rfl, htoken, hheld⟩
    · refine ⟨h.enter (canResolve_state hallowed.open').1 hlifetime hnone hallowed.singleton
        (fun hother => ?_), rfl, Nat.le_succ _, Nat.lt_succ_self _,
        fun other hknown => enter_node_of_ne (Nat.ne_of_lt hknown), ?_, ?_⟩
      · obtain ⟨rfl, hscope, hnot⟩ := hallowed.other hother
        exact ⟨hscope, hnot⟩
      · rw [enter_node_self]
      · rw [enter_node_self]
  obtain ⟨hheld, hanswers, hle, hknown, hsame, htoken, hscope⟩ := hbase
  have hplace : (base.node node).scope = scope ∨
      registry.lifetimeOf token.key = some .singleton := by
    rw [hscope]
    exact htarget
  rcases hwaited with rfl | ⟨source, -, -, -, -, rfl⟩
  · exact ⟨hheld, hanswers, hle, hknown, hsame, htoken, hplace, hcaptive⟩
  · exact ⟨hheld.addWait source node, hanswers, hle, hknown, hsame, htoken, hplace, hcaptive⟩

omit [DecidableEq κ] in
theorem livingOwner_eq_some {caller : Option ServiceCaller} {owner : ℕ}
    (howner : c.livingOwner caller = some owner) :
    ∃ from', caller = some from' ∧ from'.node = owner := by
  unfold livingOwner at howner
  split at howner
  · split at howner
    · cases howner
      exact ⟨_, rfl, rfl⟩
    · cases howner
  · cases howner

/-- The caller gets the answer, or the call has thrown. -/
theorem Held.answer (h : Held registry c) {scope : ℕ} {token : ServiceToken κ}
    {caller : Option ServiceCaller}
    (hcaller : caller.all (fun caller => caller.node < c.nodes) = true) :
    Held registry (c.answer scope token caller (c.resolve registry scope token caller)) := by
  cases hresolve : c.resolve registry scope token caller with
  | error error => exact h
  | ok result =>
      obtain ⟨after, node⟩ := result
      obtain ⟨hheld, hanswers, hle, hknown, hsame, htoken, hplace, hcaptive⟩ := h.resolve hresolve
      refine { hheld with answered := fun answer hanswer => ?_, captive := ?_ }
      · rcases List.mem_append.1 hanswer with hold | hnew
        · exact hheld.answered answer hold
        · rw [List.mem_singleton.1 hnew]
          exact ⟨hknown, htoken, hplace⟩
      · intro answer hanswer owner howner
        rcases List.mem_append.1 hanswer with hold | hnew
        · exact hheld.captive answer hold owner howner
        · rw [List.mem_singleton.1 hnew] at howner ⊢
          obtain ⟨from', rfl, rfl⟩ := livingOwner_eq_some howner
          have howned : from'.node < c.nodes := by simpa using hcaller
          refine ⟨Nat.lt_of_lt_of_le howned hle, fun hsingleton => hcaptive ?_⟩
          change (after.node from'.node).singleton = true at hsingleton
          rw [hsame _ howned] at hsingleton
          rw [isCaptive, show c.livingOwner (some from') = some from'.node from howner]
          exact hsingleton

/-! ### Every run -/

theorem Held.step (h : Held registry c) {event : ServiceEvent κ}
    (hstep : c.step registry event = some c') : Held registry c' := by
  by_cases hevent : isScopeEvent event = true
  · obtain ⟨hnode, hnodes, -, -, hanswers, hfailed⟩ := scope_frame hevent hstep
    have hcache := scope_cache hevent hstep
    refine h.frame hnodes (fun node => by rw [hnode]; exact ⟨rfl, rfl, rfl⟩)
      (fun node => by rw [Forgotten, Forgotten, hnode])
      (fun node => by rw [hnode]; exact h.done node) hcache (fun hfail => hfailed.trans hfail) hanswers
  · cases event with
    | resolve scope token caller =>
        simp only [ServiceContainer.step] at hstep
        split at hstep
        · rename_i hknown
          cases hstep
          exact h.answer hknown.2
        · cases hstep
    | complete node made => exact h.complete hstep
    | settle node => exact h.settle hstep
    | release source node => exact h.release hstep
    | _ => exact absurd rfl hevent

theorem Held.initial [Inhabited κ] : Held registry (serviceContainer registry).init where
  cached _ _ _ hentry := by cases hentry
  caches _ hknown := absurd hknown (Nat.not_lt_zero _)
  one _ _ hfirst := absurd hfirst (Nat.not_lt_zero _)
  lifetimes _ hknown := absurd hknown (Nat.not_lt_zero _)
  done _ hsettled := by cases hsettled
  failed _ hknown := absurd hknown (Nat.not_lt_zero _)
  answered _ hanswer := by cases hanswer
  captive _ hanswer := by cases hanswer

theorem Held.reachable [Inhabited κ] (hc : (serviceContainer registry).Reachable c) :
    Held registry c :=
  Machine.Reachable.invariant (serviceContainer registry) Held.initial
    (fun _ _ _ h hstep => h.step hstep) hc

/-! ### After the failure of a singleton -/

theorem resolve_of_failed (hfailed : c.singletonFailed = true) (scope : ℕ)
    (token : ServiceToken κ) (caller : Option ServiceCaller) :
    c.resolve registry scope token caller = .error "Service scope is disposed" := by
  have hrefused : c.canResolve scope caller = false := by
    unfold canResolve
    rw [hfailed]
    rfl
  unfold resolve
  rw [hrefused]
  rfl

omit [DecidableEq κ] in
theorem construct_frame (c : ServiceContainer κ) (node : ℕ) (value : ServiceValue) :
    (c.construct node value).singletonFailed = c.singletonFailed ∧
      (c.construct node value).answers = c.answers := by
  cases value with
  | plain => exact ⟨rfl, rfl⟩
  | object id =>
      simp only [construct]
      split
      · exact ⟨rfl, rfl⟩
      · split <;> exact ⟨rfl, rfl⟩

theorem failedState_frame (c : ServiceContainer κ) (node : ℕ) :
    (c.failedState node).singletonFailed = c.singletonFailed ∧
      (c.failedState node).answers = c.answers := by
  unfold failedState forget
  split <;> exact ⟨rfl, rfl⟩

/-- Nothing is given once a singleton has failed. -/
theorem poisoned_step (hfailed : c.singletonFailed = true) {event : ServiceEvent κ}
    (hstep : c.step registry event = some c') :
    c'.singletonFailed = true ∧ c'.answers = c.answers := by
  by_cases hevent : isScopeEvent event = true
  · obtain ⟨-, -, -, -, hanswers, hsame⟩ := scope_frame hevent hstep
    exact ⟨hsame.trans hfailed, hanswers⟩
  · cases event with
    | resolve scope token caller =>
        simp only [ServiceContainer.step] at hstep
        split at hstep
        · cases hstep
          rw [resolve_of_failed hfailed]
          exact ⟨hfailed, rfl⟩
        · cases hstep
    | complete node made =>
        change c.complete registry node made = some c' at hstep
        unfold ServiceContainer.complete at hstep
        split at hstep
        · split at hstep
          · cases hstep
            exact ⟨hfailed, rfl⟩
          · rename_i value _
            cases hstep
            obtain ⟨hsame, hanswers⟩ := construct_frame c node value
            exact ⟨hsame.trans hfailed, hanswers⟩
          · cases hstep
            exact ⟨hfailed, rfl⟩
        · cases hstep
    | settle node =>
        change c.settle node = some c' at hstep
        unfold ServiceContainer.settle at hstep
        split at hstep
        · split at hstep
          · cases hstep
          · cases hstep
            exact ⟨hfailed, rfl⟩
          · cases hstep
            obtain ⟨hsame, hanswers⟩ := failedState_frame c node
            split
            · exact ⟨rfl, hanswers⟩
            · exact ⟨hsame.trans hfailed, hanswers⟩
        · cases hstep
    | release source node =>
        change c.release source node = some c' at hstep
        unfold ServiceContainer.release at hstep
        split at hstep
        · cases hstep
          exact ⟨hfailed, rfl⟩
        · cases hstep
    | _ => exact absurd rfl hevent

theorem poisoned_run [Inhabited κ] (hfailed : c.singletonFailed = true)
    {events : List (ServiceEvent κ)}
    (hrun : (serviceContainer registry).exec c events = some c') : c'.answers = c.answers := by
  induction events generalizing c with
  | nil =>
      cases hrun
      rfl
  | cons event events ih =>
      obtain ⟨middle, hstep, hrest⟩ := ((serviceContainer registry).exec_cons_eq_some_iff).1 hrun
      obtain ⟨hstill, hanswers⟩ := poisoned_step hfailed hstep
      exact (ih hstill hrest).trans hanswers

/-! ### The law -/

/-- Identity and captivity in each state of a run. -/
structure LifetimeLaw (registry : ServiceRegistry κ) (c : ServiceContainer κ) : Prop where
  same : ∀ first ∈ c.answers, ∀ second ∈ c.answers, first.token = second.token →
    registry.lifetimeOf first.token ≠ some .transient →
    first.scope = second.scope ∨ registry.lifetimeOf first.token = some .singleton →
    ∀ value other, (c.node first.node).outcome = some (some value) →
      (c.node second.node).outcome = some (some other) →
        first.node = second.node ∧ value = other
  once : ∀ first second, first < c.nodes → second < c.nodes →
    (c.node first).scope = (c.node second).scope → (c.node first).token = (c.node second).token →
    registry.lifetimeOf (c.node first).token ≠ some .transient →
    ∀ value other, (c.node first).outcome = some (some value) →
      (c.node second).outcome = some (some other) → first = second
  singletons : ∀ node, node < c.nodes → ((c.node node).scope = 0 ↔
    registry.lifetimeOf (c.node node).token = some .singleton)
  captive : ∀ answer ∈ c.answers, ∀ owner, answer.owner = some owner →
    registry.lifetimeOf (c.node owner).token = some .singleton →
      registry.lifetimeOf answer.token = some .singleton
  retried : ∀ node, c.Forgotten node → ∀ scope key, (c.scope scope).cache key ≠ some node
  poisoned : ∀ node, node < c.nodes → (c.node node).scope = 0 → c.Forgotten node →
    c.singletonFailed = true

omit [DecidableEq κ] in
theorem not_forgotten_of_fulfilled {value : ServiceValue}
    (houtcome : (c.node node).outcome = some (some value)) : ¬ c.Forgotten node := by
  intro hgone
  rw [Forgotten, houtcome] at hgone
  cases hgone.2

theorem Held.singleton_iff (h : Held registry c) (hknown : node < c.nodes) :
    ((c.node node).scope = 0 ↔ registry.lifetimeOf (c.node node).token = some .singleton) ∧
      ((c.node node).singleton = true ↔
        registry.lifetimeOf (c.node node).token = some .singleton) := by
  obtain ⟨lifetime, hlifetime, hscope, hflag⟩ := h.lifetimes node hknown
  rw [hlifetime, hscope, hflag]
  simp

theorem Held.law (h : Held registry c) : LifetimeLaw registry c where
  same first hfirst second hsecond htoken hlifetime hplace value other hvalue hother := by
    obtain ⟨hknown, hkey, hscope⟩ := h.answered first hfirst
    obtain ⟨hknown', hkey', hscope'⟩ := h.answered second hsecond
    have hsame : (c.node first.node).scope = (c.node second.node).scope := by
      by_cases hsingleton : registry.lifetimeOf first.token = some .singleton
      · rw [((h.singleton_iff hknown).1).2 (by rw [hkey, hsingleton]),
          ((h.singleton_iff hknown').1).2 (by rw [hkey', ← htoken, hsingleton])]
      · rw [hscope.resolve_right hsingleton, hscope'.resolve_right (htoken ▸ hsingleton)]
        exact hplace.resolve_right hsingleton
    have hnode : first.node = second.node :=
      h.one _ _ hknown hknown' hsame (by rw [hkey, hkey', htoken]) (by rwa [hkey])
        (not_forgotten_of_fulfilled hvalue) (not_forgotten_of_fulfilled hother)
    refine ⟨hnode, ?_⟩
    rw [hnode, hother] at hvalue
    exact (Option.some.inj (Option.some.inj hvalue)).symm
  once first second hfirst hsecond hscope htoken hlifetime value other hvalue hother :=
    h.one first second hfirst hsecond hscope htoken hlifetime (not_forgotten_of_fulfilled hvalue)
      (not_forgotten_of_fulfilled hother)
  singletons node hknown := (h.singleton_iff hknown).1
  captive answer hanswer owner howner hsingleton := by
    obtain ⟨hknown, hcaptive⟩ := h.captive answer hanswer owner howner
    exact hcaptive (((h.singleton_iff hknown).2).2 hsingleton)
  retried node hgone scope key hentry := (h.cached scope key node hentry).2.2.2 hgone
  poisoned := h.failed

end ServiceContainer

/-- In every state of every run, over any number of scopes: successful answers for one singleton,
or for one scoped service of one scope, are the same attempt with the same value, and no other
attempt of it succeeds; a factory under construction for a singleton is only given singletons; a
failed attempt is no longer cached; and after the failure of a singleton nothing more is given. -/
theorem lifetimes_kept {κ : Type} [DecidableEq κ] [Inhabited κ] (registry : ServiceRegistry κ)
    (c : ServiceContainer κ) (hc : (serviceContainer registry).Reachable c) :
    ServiceContainer.LifetimeLaw registry c ∧ (c.singletonFailed = true → ∀ events c',
      (serviceContainer registry).exec c events = some c' → c'.answers = c.answers) :=
  ⟨(ServiceContainer.Held.reachable hc).law,
    fun hfailed _ _ hrun => ServiceContainer.poisoned_run hfailed hrun⟩

/-! ### A scoped service over a singleton -/

def clock : ServiceToken ℕ := ⟨0, "Clock"⟩

def account : ServiceToken ℕ := ⟨1, "Account"⟩

def accounts : ServiceRegistry ℕ where
  registrations :=
    (InsertionMap.empty.set 0 ⟨clock, .singleton, none⟩).set 1 ⟨account, .scoped, none⟩
  instances := fun _ => none

/-- The factory of the account asks for the clock; then the scope is closed. -/
def accountRun : List (ServiceEvent ℕ) :=
  [.createScope, .resolve 1 account none, .resolve 1 clock (some ⟨0, false⟩),
    .complete 1 (some (.object 7)), .settle 1, .release 0 1, .complete 0 (some (.object 8)),
    .settle 0, .resolve 1 clock none, .close 1, .drained 1, .disposeNext 1, .disposeEnds 1]

theorem accounts_preflight {token : ServiceToken ℕ} (h : token = clock ∨ token = account) :
    ServiceRegistrations.preflight accounts.registrations [token] = .ok () := by
  change (ServiceRegistrations.visit accounts.registrations token [] false >>= fun _ => .ok ()) = _
  rcases h with rfl | rfl
  · rw [ServiceRegistrations.visit]
    rfl
  · rw [ServiceRegistrations.visit]
    rfl

theorem accountRun_isSome :
    ((serviceContainer accounts).exec (serviceContainer accounts).init accountRun).isSome =
      true := by
  simp only [accountRun, Machine.exec, serviceContainer, ServiceContainer.step,
    ServiceContainer.resolve, accounts_preflight (.inl rfl), accounts_preflight (.inr rfl)]
  rfl

theorem lifetimes_kept_account :
    ∃ c, (serviceContainer accounts).exec (serviceContainer accounts).init accountRun = some c ∧
      (ServiceContainer.LifetimeLaw accounts c ∧ (c.singletonFailed = true → ∀ events c',
        (serviceContainer accounts).exec c events = some c' → c'.answers = c.answers)) := by
  obtain ⟨c, hc⟩ := Option.isSome_iff_exists.1 accountRun_isSome
  exact ⟨c, hc, lifetimes_kept accounts c ⟨accountRun, hc⟩⟩

end Arc.DependencyInjection
