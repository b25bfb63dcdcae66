import Arc.DependencyInjection.ServiceContainer

/-!
# What the steps can do

A call that is not refused gives the node that the scope has cached, or enters a new one, and may
make the last pending node of its chain wait for it. A factory that ends settles its own node, and
the steps of the scopes change no node.
-/

namespace Arc.DependencyInjection.ServiceContainer

variable {κ : Type} [DecidableEq κ] {registry : ServiceRegistry κ} {c c' base : ServiceContainer κ}
  {scope target node : ℕ} {token : ServiceToken κ} {caller : Option ServiceCaller}
  {lifetime : ServiceLifetime} {chain : List ℕ} {captive : Bool}

/-- The wait that a call may add. -/
def Waited (base : ServiceContainer κ) (node : ℕ) (chain : List ℕ) (c' : ServiceContainer κ) :
    Prop :=
  c' = base ∨ ∃ source ∈ chain, base.isPending source = true ∧ base.isPending node = true ∧
    base.reaches node source = false ∧ c' = base.addWait source node

omit [DecidableEq κ] in
theorem waited_of_waitFor {name : String} (h : base.waitFor node name chain = .ok c') :
    Waited base node chain c' := by
  unfold waitFor at h
  split at h
  · cases h
    exact .inl rfl
  · rename_i source hsource
    have hmem := List.mem_of_getLast? hsource
    rw [List.mem_filter] at hmem
    split at h
    · cases h
      exact .inl rfl
    · rename_i hnode
      split at h
      · cases h
      · rename_i hreaches
        cases h
        exact .inr ⟨source, hmem.1, hmem.2, by simpa using hnode, by simpa using hreaches, rfl⟩

/-- The node that is given: cached, or new. -/
def Given (c : ServiceContainer κ) (target : ℕ) (key : κ) (lifetime : ServiceLifetime)
    (chain : List ℕ) (captive : Bool) (base : ServiceContainer κ) (node : ℕ) : Prop :=
  base = c ∧ lifetime ≠ .transient ∧ (c.scope target).cache key = some node ∨
  base = c.enter target key lifetime chain captive ∧ node = c.nodes ∧
    (lifetime ≠ .transient → (c.scope target).cache key = none)

theorem attach_eq_ok (h : c.attach target token lifetime chain captive = .ok (c', node)) :
    ∃ base, Given c target token.key lifetime chain captive base node ∧
      Waited base node chain c' := by
  unfold attach at h
  split at h
  · cases h
  · split at h
    · rename_i cached hcached
      cases hwait : c.waitFor cached token.name chain with
      | error error =>
          rw [hwait] at h
          cases h
      | ok waiting =>
          rw [hwait] at h
          cases h
          have hlifetime : lifetime ≠ .transient := by
            rintro rfl
            cases hcached
          rw [if_neg hlifetime] at hcached
          exact ⟨c, .inl ⟨rfl, hlifetime, hcached⟩, waited_of_waitFor hwait⟩
    · rename_i hcached
      cases hwait : (c.enter target token.key lifetime chain captive).waitFor c.nodes token.name
          chain with
      | error error =>
          rw [hwait] at h
          cases h
      | ok waiting =>
          rw [hwait] at h
          cases h
          refine ⟨_, .inr ⟨rfl, rfl, fun hlifetime => ?_⟩, waited_of_waitFor hwait⟩
          rwa [if_neg hlifetime] at hcached

/-- Where a service is held, and what may ask for it. -/
structure Allowed (c : ServiceContainer κ) (scope : ℕ) (caller : Option ServiceCaller)
    (lifetime : ServiceLifetime) (target : ℕ) : Prop where
  asked : c.canResolve scope caller = true
  open' : c.canResolve target caller = true
  singleton : lifetime = .singleton → target = 0
  other : lifetime ≠ .singleton → target = scope ∧ scope ≠ 0 ∧ c.isCaptive caller = false

theorem resolve_eq_ok (h : c.resolve registry scope token caller = .ok (c', node)) :
    ∃ registration target base, registry.registrations.get token.key = some registration ∧
      Allowed c scope caller registration.lifetime target ∧
      Given c target token.key registration.lifetime (c.livingChain caller) (c.isCaptive caller)
        base node ∧
      Waited base node (c.livingChain caller) c' := by
  unfold resolve at h
  split at h
  · cases h
  · rename_i hasked
    have hasked : c.canResolve scope caller = true := by simpa using hasked
    cases hpreflight : ServiceRegistrations.preflight registry.registrations [token] with
    | error error =>
        rw [hpreflight] at h
        cases h
    | ok done =>
        rw [hpreflight] at h
        change c.resolveInChain registry scope token caller (c.livingChain caller)
          (c.isCaptive caller) = .ok (c', node) at h
        unfold resolveInChain at h
        rw [if_neg (by simp [hasked])] at h
        cases hregistration : registry.registrations.registration token with
        | error error =>
            rw [hregistration] at h
            cases h
        | ok registration =>
            rw [hregistration] at h
            have hget := (ServiceRegistrations.registration_eq_ok _).1 hregistration
            change (if _ then _ else if _ then _ else _) = _ at h
            by_cases hcaptive : ((c.isCaptive caller || scope == 0) &&
                registration.lifetime != .singleton) = true
            · rw [if_pos hcaptive] at h
              cases h
            · rw [if_neg hcaptive] at h
              by_cases helsewhere : registration.lifetime = .singleton ∧ scope ≠ 0
              · rw [if_pos helsewhere] at h
                split at h
                · cases h
                · rename_i htarget
                  obtain ⟨base, hgiven, hwaited⟩ := attach_eq_ok h
                  refine ⟨registration, 0, base, hget, ⟨hasked, by simpa using htarget,
                    fun _ => rfl, fun hother => absurd helsewhere.1 hother⟩, hgiven, hwaited⟩
              · rw [if_neg helsewhere] at h
                obtain ⟨base, hgiven, hwaited⟩ := attach_eq_ok h
                refine ⟨registration, scope, base, hget, ⟨hasked, hasked, fun hsingleton => ?_,
                  fun hother => ⟨rfl, ?_, ?_⟩⟩, hgiven, hwaited⟩
                · by_contra hscope
                  exact helsewhere ⟨hsingleton, hscope⟩
                · rintro rfl
                  simp [hother] at hcaptive
                · by_contra hcaught
                  simp [hother, hcaught] at hcaptive

/-! ### The other steps -/

/-- The steps that open, close and dispose scopes. -/
def isScopeEvent : ServiceEvent κ → Bool
  | .createScope | .close _ | .drained _ | .disposeNext _ | .disposeEnds _ | .disposeSingletons
  | .beginShutdown => true
  | _ => false

/-- What is left alone by the steps of the scopes. -/
theorem scope_frame {event : ServiceEvent κ} (hevent : isScopeEvent event = true)
    (hstep : c.step registry event = some c') :
    c'.node = c.node ∧ c'.nodes = c.nodes ∧ c'.waits = c.waits ∧ c'.held = c.held ∧
      c'.answers = c.answers ∧ c'.singletonFailed = c.singletonFailed := by
  cases event with
  | resolve => cases hevent
  | complete => cases hevent
  | settle => cases hevent
  | release => cases hevent
  | createScope => grind [step]
  | close scope => grind [step, close, setScope]
  | drained scope => grind [step, drained, setScope]
  | disposeNext scope => grind [step, disposeNext, setScope]
  | disposeEnds scope => grind [step, disposeEnds, setScope]
  | disposeSingletons => grind [step, disposeSingletons, setScope]
  | beginShutdown => grind [step]

/-- A scope keeps what it has cached, or is cleared and closed; a closed one stays closed. -/
def ScopeKept (before after : ServiceScope κ) : Prop :=
  after.cache = before.cache ∧ (before.state = .closed → after.state = .closed) ∨
    after.cache = (fun _ => none) ∧ after.state = .closed

omit [DecidableEq κ] in
theorem scopeKept_setScope {value : ServiceScope κ} (h : ScopeKept (c.scope target) value)
    (scope : ℕ) : ScopeKept (c.scope scope) ((c.setScope target value).scope scope) := by
  by_cases hscope : scope = target
  · subst hscope
    rw [setScope_self]
    exact h
  · rw [setScope_of_ne c hscope]
    exact .inl ⟨rfl, id⟩

theorem scope_cache {event : ServiceEvent κ} (hevent : isScopeEvent event = true)
    (hstep : c.step registry event = some c') (scope : ℕ) :
    ScopeKept (c.scope scope) (c'.scope scope) := by
  cases event with
  | resolve => cases hevent
  | complete => cases hevent
  | settle => cases hevent
  | release => cases hevent
  | createScope =>
      simp only [step] at hstep
      split at hstep
      · cases hstep
        exact .inl ⟨rfl, id⟩
      · cases hstep
  | close other =>
      simp only [step, close] at hstep
      split at hstep
      · split at hstep
        · rename_i hopened
          cases hstep
          refine scopeKept_setScope ?_ scope
          refine .inl ⟨rfl, fun hclosed => ?_⟩
          rw [hopened] at hclosed
          cases hclosed
        · cases hstep
          exact .inl ⟨rfl, id⟩
      · cases hstep
  | drained other =>
      simp only [step, drained] at hstep
      split at hstep
      · split at hstep
        · cases hstep
          refine scopeKept_setScope ?_ scope
          exact .inl ⟨rfl, fun _ => rfl⟩
        · cases hstep
          refine scopeKept_setScope ?_ scope
          exact .inl ⟨rfl, id⟩
      · cases hstep
  | disposeNext other =>
      simp only [step, disposeNext] at hstep
      split at hstep
      · cases hstep
        refine scopeKept_setScope ?_ scope
        exact .inl ⟨rfl, id⟩
      · cases hstep
  | disposeEnds other =>
      simp only [step, disposeEnds] at hstep
      split at hstep
      · cases hstep
        refine scopeKept_setScope ?_ scope
        exact .inr ⟨rfl, rfl⟩
      · cases hstep
  | disposeSingletons =>
      simp only [step, disposeSingletons] at hstep
      split at hstep
      · cases hstep
        refine scopeKept_setScope ?_ scope
        exact .inl ⟨rfl, id⟩
      · cases hstep
  | beginShutdown =>
      cases hstep
      exact .inl ⟨rfl, id⟩

end Arc.DependencyInjection.ServiceContainer
