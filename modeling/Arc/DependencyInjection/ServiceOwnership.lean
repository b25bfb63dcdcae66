import Arc.DependencyInjection.ResolutionWaits

/-!
# Ownership and disposal over whole runs

An object that a factory gives first is claimed by the scope of its node, and by no other. The
close of a scope waits for its constructions, after which none begins, and then disposes what the
scope has claimed, each object once and the last one first.
-/

namespace Arc.DependencyInjection

namespace ServiceContainer

variable {κ : Type} {c c' : ServiceContainer κ} {scope node : ℕ}

/-- What a scope has claimed, in order. -/
def claimedOf (c : ServiceContainer κ) (scope : ℕ) : List ℕ :=
  (c.claimed.filter fun claim => claim.1 == scope).map Prod.snd

/-- What has been disposed for a scope, in order. -/
def disposedOf (c : ServiceContainer κ) (scope : ℕ) : List ℕ :=
  (c.disposed.filter fun claim => claim.1 == scope).map Prod.snd

/-- All constructions of the scope have settled. -/
def Quiet (c : ServiceContainer κ) (scope : ℕ) : Prop :=
  ∀ node, node < c.nodes → (c.node node).scope = scope → (c.node node).settled = true

theorem quiet_iff : c.quiet scope = true ↔ c.Quiet scope := by
  unfold quiet Quiet isPending
  rw [List.all_eq_true]
  constructor
  · intro h node hnode hscope
    have hsettled := h node (List.mem_range.2 hnode)
    simpa [hscope] using hsettled
  · intro h node hnode
    by_cases hscope : (c.node node).scope = scope
    · simp [hscope, h node (List.mem_range.1 hnode) hscope]
    · simp [hscope]

/-- How far the disposal of a scope is. -/
structure Disposal (c : ServiceContainer κ) (scope : ℕ) : Prop where
  idle : (c.scope scope).disposing = none →
    c.disposedOf scope = [] ∧ (c.scope scope).created = c.claimedOf scope
  going : ∀ rest, (c.scope scope).disposing = some rest →
    c.disposedOf scope ++ rest = (c.claimedOf scope).reverse ∧
      (c.scope scope).state ≠ .opened
  quiet : (c.scope scope).state = .closed ∨ (c.scope scope).disposing ≠ none → c.Quiet scope

/-- What is kept of the owners. -/
structure Owned (registry : ServiceRegistry κ) (c : ServiceContainer κ) : Prop where
  once : (c.claimed.map Prod.snd).Nodup
  owners : ∀ object scope, c.owners object = some (some scope) ↔ (scope, object) ∈ c.claimed
  instances : ∀ key ∈ registry.registrations.keys, ∀ object,
    registry.instances key = some (.object object) → c.owners object = some none
  disposal : ∀ scope, Disposal c scope
  given : ∀ node, node < c.nodes → ∀ object,
    (c.node node).outcome = some (some (.object object)) →
    registry.instances (c.node node).token = none →
      ∃ owner, c.owners object = some owner ∧
        ∀ other, owner = some other → other = (c.node node).scope ∨ other = 0

/-! ### Steps that claim and dispose nothing -/

/-- A scope as far as disposal is concerned. -/
def SameDisposal (before after : ServiceScope κ) : Prop :=
  after.created = before.created ∧ after.disposing = before.disposing ∧
    after.state = before.state

theorem Disposal.frame (h : Disposal c scope)
    (hscope : SameDisposal (c.scope scope) (c'.scope scope))
    (hclaimed : c'.claimedOf scope = c.claimedOf scope)
    (hdisposed : c'.disposedOf scope = c.disposedOf scope)
    (hquiet : c.Quiet scope → c'.Quiet scope) : Disposal c' scope where
  idle hnone := by
    rw [hscope.2.1] at hnone
    rw [hclaimed, hdisposed, hscope.1]
    exact h.idle hnone
  going rest hrest := by
    rw [hscope.2.1] at hrest
    rw [hclaimed, hdisposed, hscope.2.2]
    exact h.going rest hrest
  quiet hended := by
    rw [hscope.2.2, hscope.2.1] at hended
    exact hquiet (h.quiet hended)

variable {registry : ServiceRegistry κ}

theorem Owned.frame (h : Owned registry c) (hclaimed : c'.claimed = c.claimed)
    (howners : c'.owners = c.owners) (hdisposal : ∀ scope, Disposal c' scope)
    (hgiven : ∀ node, node < c'.nodes → ∀ object,
      (c'.node node).outcome = some (some (.object object)) → node < c.nodes ∧
        (c.node node).outcome = some (some (.object object)) ∧
        (c'.node node).token = (c.node node).token ∧ (c'.node node).scope = (c.node node).scope) :
    Owned registry c' where
  once := hclaimed ▸ h.once
  owners object scope := by rw [howners, hclaimed, h.owners]
  instances key hkey object hobject := by
    rw [howners]
    exact h.instances key hkey object hobject
  disposal := hdisposal
  given node hnode object hobject hinstance := by
    obtain ⟨hknown, hold, htoken, hscope⟩ := hgiven node hnode object hobject
    rw [howners, hscope]
    exact h.given node hknown object hold (htoken ▸ hinstance)

/-! ### Constructing -/

theorem claimedOf_push (c : ServiceContainer κ) (scope object other : ℕ) :
    (c.push scope object).claimedOf other =
      c.claimedOf other ++ if scope = other then [object] else [] := by
  by_cases hscope : scope = other
  · simp [claimedOf, push, hscope]
  · simp [claimedOf, push, hscope]

theorem disposedOf_push (c : ServiceContainer κ) (scope object other : ℕ) :
    (c.push scope object).disposedOf other = c.disposedOf other := rfl

theorem push_scope (c : ServiceContainer κ) (scope object other : ℕ) :
    (c.push scope object).scope other =
      if other = scope then { c.scope scope with created := (c.scope scope).created ++ [object] }
      else c.scope other := by
  by_cases hother : other = scope
  · simp [push, hother]
  · simp [push, setScope_of_ne c hother, hother]

/-- A new object is claimed by a scope that still constructs. -/
theorem Owned.push (h : Owned registry c) {object : ℕ} (hnew : c.owners object = none)
    (hbusy : ¬ c.Quiet scope) : Owned registry (c.push scope object) where
  once := by
    have hfresh : object ∉ c.claimed.map Prod.snd := by
      intro hmem
      obtain ⟨⟨owner, other⟩, hclaim, rfl⟩ := List.mem_map.1 hmem
      rw [(h.owners other owner).2 hclaim] at hnew
      cases hnew
    have hmap :
        (c.push scope object).claimed.map Prod.snd = c.claimed.map Prod.snd ++ [object] := by
      simp [ServiceContainer.push]
    rw [hmap]
    exact List.nodup_append.2 ⟨h.once, List.nodup_singleton _, fun first hfirst second hsecond => by
      rw [List.mem_singleton.1 hsecond]
      rintro rfl
      exact hfresh hfirst⟩
  owners other owner := by
    have howner := h.owners other owner
    by_cases hother : other = object
    · subst hother
      rw [hnew] at howner
      have hnot : (owner, other) ∉ c.claimed := fun hmem => by simpa using howner.2 hmem
      simp [ServiceContainer.push, hnot, eq_comm]
    · simp [ServiceContainer.push, hother, howner]
  instances key hkey other hother := by
    have howner := h.instances key hkey other hother
    have hne : other ≠ object := by
      rintro rfl
      rw [hnew] at howner
      cases howner
    simpa [ServiceContainer.push, hne] using howner
  disposal other := by
    have hdisposal := h.disposal other
    by_cases hother : other = scope
    · subst hother
      have hidle : (c.scope other).disposing = none := by
        by_contra hsome
        exact hbusy (hdisposal.quiet (.inr hsome))
      have hopen : (c.scope other).state ≠ .closed := fun hclosed =>
        hbusy (hdisposal.quiet (.inl hclosed))
      obtain ⟨hnone, hcreated⟩ := hdisposal.idle hidle
      constructor
      · intro _
        rw [claimedOf_push, disposedOf_push, push_scope, if_pos rfl, if_pos rfl, hnone, hcreated]
        exact ⟨rfl, rfl⟩
      · intro rest hrest
        rw [push_scope, if_pos rfl, hidle] at hrest
        cases hrest
      · intro hended
        rw [push_scope, if_pos rfl, hidle] at hended
        exact absurd (hended.resolve_right fun hne => hne rfl) hopen
    · refine hdisposal.frame ?_ ?_ rfl id
      · rw [push_scope, if_neg hother]
        exact ⟨rfl, rfl, rfl⟩
      · rw [claimedOf_push, if_neg (Ne.symm hother), List.append_nil]
  given node hnode other hother hinstance := by
    obtain ⟨owner, howner, hheld⟩ := h.given node hnode other hother hinstance
    have hne : other ≠ object := by
      rintro rfl
      rw [hnew] at howner
      cases howner
    exact ⟨owner, by simpa [ServiceContainer.push, hne] using howner, hheld⟩

theorem setOutcome_settled (c : ServiceContainer κ) (node : ℕ) (outcome : Option ServiceValue)
    (other : ℕ) : ((c.setOutcome node outcome).node other).settled = (c.node other).settled ∧
      ((c.setOutcome node outcome).node other).scope = (c.node other).scope ∧
      ((c.setOutcome node outcome).node other).token = (c.node other).token := by
  by_cases hother : other = node
  · simp [setOutcome, hother]
  · simp [setOutcome, hother]

theorem Quiet.setOutcome (node : ℕ) (outcome : Option ServiceValue) :
    (c.setOutcome node outcome).Quiet scope ↔ c.Quiet scope := by
  refine forall_congr' fun other => ?_
  obtain ⟨hsettled, hscope, -⟩ := setOutcome_settled c node outcome other
  rw [hsettled, hscope]
  rfl

/-- The outcome is an object that the scope, the singletons or the application owns. -/
theorem Owned.setOutcome (h : Owned registry c) (outcome : Option ServiceValue)
    (howned : ∀ object, outcome = some (.object object) →
      registry.instances (c.node node).token = none → ∃ owner, c.owners object = some owner ∧
        ∀ other, owner = some other → other = (c.node node).scope ∨ other = 0) :
    Owned registry (c.setOutcome node outcome) where
  once := h.once
  owners := h.owners
  instances := h.instances
  disposal scope :=
    (h.disposal scope).frame ⟨rfl, rfl, rfl⟩ rfl rfl (Quiet.setOutcome node outcome).2
  given other hknown object hobject hinstance := by
    obtain ⟨-, hscope, htoken⟩ := setOutcome_settled c node outcome other
    rw [hscope]
    rw [htoken] at hinstance
    by_cases hother : other = node
    · subst hother
      simp only [ServiceContainer.setOutcome, Function.update_self] at hobject
      exact howned object (Option.some.inj hobject) hinstance
    · simp only [ServiceContainer.setOutcome, Function.update_of_ne hother] at hobject
      exact h.given other hknown object hobject hinstance

theorem Owned.construct (h : Owned registry c) (hbusy : ¬ c.Quiet (c.node node).scope)
    (value : ServiceValue) : Owned registry (c.construct node value) := by
  cases value with
  | plain => exact h.setOutcome _ fun object hobject => by cases hobject
  | object id =>
      simp only [ServiceContainer.construct]
      split
      · rename_i hnew
        refine (h.push hnew hbusy).setOutcome _ fun object hobject _ => ?_
        cases hobject
        refine ⟨some (c.node node).scope, by simp [ServiceContainer.push], fun other hother => ?_⟩
        exact .inl (Option.some.inj hother).symm
      · rename_i owner howner
        by_cases hconflict : (owner.any fun owner =>
            owner != (c.node node).scope && owner != 0) = true
        · rw [if_pos hconflict]
          exact h.setOutcome _ fun object hobject => by cases hobject
        · rw [if_neg hconflict]
          refine h.setOutcome _ fun object hobject _ => ?_
          cases hobject
          refine ⟨owner, howner, fun other hother => ?_⟩
          subst hother
          by_contra hneither
          rw [not_or] at hneither
          simp [hneither.1, hneither.2] at hconflict

theorem Owned.complete (h : Owned registry c) (hdone : ∀ node, (c.node node).settled = true →
      (c.node node).outcome ≠ none) {made : Option ServiceValue}
    (hstep : c.complete registry node made = some c') : Owned registry c' := by
  unfold ServiceContainer.complete at hstep
  split at hstep
  · rename_i hpending
    have hbusy : ¬ c.Quiet (c.node node).scope := fun hquiet =>
      hdone node (hquiet node hpending.1 rfl) hpending.2
    split at hstep
    · rename_i value hinstance
      cases hstep
      exact h.setOutcome _ fun object _ hnone => by
        rw [hinstance] at hnone
        cases hnone
    · cases hstep
      exact h.construct hbusy _
    · cases hstep
      exact h.setOutcome _ fun object hobject => by cases hobject
  · cases hstep

/-! ### Settling and releasing -/

theorem setSettled_node (c : ServiceContainer κ) (node other : ℕ) :
    ((c.setSettled node).node other).outcome = (c.node other).outcome ∧
      ((c.setSettled node).node other).scope = (c.node other).scope ∧
      ((c.setSettled node).node other).token = (c.node other).token ∧
      ((c.node other).settled = true → ((c.setSettled node).node other).settled = true) := by
  by_cases hother : other = node
  · simp [setSettled, hother]
  · simp [setSettled, hother]

/-- A step that settles a node, and may change what the scopes have cached. -/
theorem Owned.settling (h : Owned registry c) (hnode : c'.node = (c.setSettled node).node)
    (hsame : c'.nodes = c.nodes ∧ c'.claimed = c.claimed ∧ c'.disposed = c.disposed ∧
      c'.owners = c.owners) (hscope : ∀ scope, SameDisposal (c.scope scope) (c'.scope scope)) :
    Owned registry c' := by
  obtain ⟨hnodes, hclaimed, hdisposed, howners⟩ := hsame
  refine h.frame hclaimed howners (fun scope => ?_) (fun other hknown object hobject => ?_)
  · refine (h.disposal scope).frame (hscope scope) ?_ ?_ fun hquiet other hknown hheld => ?_
    · rw [claimedOf, claimedOf, hclaimed]
    · rw [disposedOf, disposedOf, hdisposed]
    · obtain ⟨-, hplace, -, hsettled⟩ := setSettled_node c node other
      rw [hnode] at hheld ⊢
      exact hsettled (hquiet other (hnodes ▸ hknown) (hplace ▸ hheld))
  · obtain ⟨houtcome, hplace, htoken, -⟩ := setSettled_node c node other
    rw [hnode] at hobject ⊢
    exact ⟨hnodes ▸ hknown, houtcome ▸ hobject, htoken, hplace⟩

theorem sameDisposal_forget [DecidableEq κ] (c : ServiceContainer κ) (scope : ℕ) (token : κ)
    (node other : ℕ) : SameDisposal (c.scope other) ((c.forget scope token node).scope other) := by
  unfold forget
  split
  · by_cases hother : other = scope
    · subst hother
      rw [setScope_self]
      exact ⟨rfl, rfl, rfl⟩
    · rw [setScope_of_ne c hother]
      exact ⟨rfl, rfl, rfl⟩
  · exact ⟨rfl, rfl, rfl⟩

theorem Owned.settle [DecidableEq κ] (h : Owned registry c) (hstep : c.settle node = some c') :
    Owned registry c' := by
  unfold ServiceContainer.settle at hstep
  split at hstep
  · split at hstep
    · cases hstep
    · cases hstep
      exact h.settling rfl ⟨rfl, rfl, rfl, rfl⟩ fun _ => ⟨rfl, rfl, rfl⟩
    · cases hstep
      have hforgotten : ∀ (scope : ℕ) (token : κ),
          ((c.setSettled node).forget scope token node).node = (c.setSettled node).node ∧
          ((c.setSettled node).forget scope token node).nodes = c.nodes ∧
          ((c.setSettled node).forget scope token node).claimed = c.claimed ∧
          ((c.setSettled node).forget scope token node).disposed = c.disposed ∧
          ((c.setSettled node).forget scope token node).owners = c.owners := by
        intro scope token
        unfold forget
        split <;> exact ⟨rfl, rfl, rfl, rfl, rfl⟩
      obtain ⟨hnode, hsame⟩ := hforgotten (c.node node).scope (c.node node).token
      have hscope := sameDisposal_forget (c.setSettled node) (c.node node).scope (c.node node).token
        node
      split
      · exact h.settling hnode hsame hscope
      · exact h.settling hnode hsame hscope
  · cases hstep

theorem Owned.release (h : Owned registry c) {source : ℕ}
    (hstep : c.release source node = some c') : Owned registry c' := by
  unfold ServiceContainer.release at hstep
  split at hstep
  · cases hstep
    exact h.frame rfl rfl (fun scope => (h.disposal scope).frame ⟨rfl, rfl, rfl⟩ rfl rfl id)
      fun _ hknown _ hobject => ⟨hknown, hobject, rfl, rfl⟩
  · cases hstep

/-! ### Resolving -/

section Resolve

variable [DecidableEq κ]

omit [DecidableEq κ] in
/-- A scope that resolves is open, or still constructs something. -/
theorem canResolve_cases (hwaits : Waits c) {caller : Option ServiceCaller}
    (hcaller : caller.all (fun caller => caller.node < c.nodes) = true)
    (h : c.canResolve scope caller = true) :
    (c.scope scope).state ≠ .closed ∧ ((c.scope scope).state = .opened ∨ ¬ c.Quiet scope) := by
  refine ⟨(canResolve_state h).1, ?_⟩
  unfold canResolve at h
  split at h
  · cases h
  · split at h
    · rename_i hopened
      exact .inl (by simpa using hopened)
    · cases caller with
      | none => cases h
      | some caller =>
          obtain ⟨ancestor, hmem, hpending⟩ := List.any_eq_true.1 h
          rw [Bool.and_eq_true, beq_iff_eq] at hpending
          have hknown : caller.node < c.nodes := by simpa using hcaller
          have hancestor : ancestor < c.nodes := by
            rcases List.mem_append.1 hmem with habove | hself
            · exact hwaits.chains caller.node hknown ancestor habove
            · rw [List.mem_singleton.1 hself]
              exact hknown
          refine .inr fun hquiet => ?_
          have hsettled := hquiet ancestor hancestor hpending.1
          simp [isPending, hsettled] at hpending

theorem Owned.enter (h : Owned registry c) {target : ℕ} {key : κ} {lifetime : ServiceLifetime}
    {chain : List ℕ} {captive : Bool} (hopen : (c.scope target).state ≠ .closed)
    (hbusy : (c.scope target).state = .opened ∨ ¬ c.Quiet target) :
    Owned registry (c.enter target key lifetime chain captive) := by
  have hsame : ∀ scope, SameDisposal (c.scope scope)
      ((c.enter target key lifetime chain captive).scope scope) := by
    intro scope
    unfold ServiceContainer.enter
    by_cases htransient : lifetime = .transient
    · simp [htransient, SameDisposal]
    · by_cases hscope : scope = target
      · subst hscope
        simp [htransient, SameDisposal]
      · simp [htransient, hscope, SameDisposal]
  refine h.frame rfl rfl (fun scope => ?_) (fun node hknown object hobject => ?_)
  · have hdisposal := h.disposal scope
    by_cases hscope : scope = target
    · subst hscope
      have hidle : (c.scope scope).disposing = none := by
        cases hdisposing : (c.scope scope).disposing with
        | none => rfl
        | some rest =>
            have hquiet := hdisposal.quiet (.inr (by simp [hdisposing]))
            exact absurd hquiet (hbusy.resolve_left (hdisposal.going rest hdisposing).2)
      obtain ⟨hcreated, hdisposing, hstate⟩ := hsame scope
      constructor
      · intro _
        rw [hcreated]
        exact hdisposal.idle hidle
      · intro rest hrest
        rw [hdisposing, hidle] at hrest
        cases hrest
      · intro hended
        rw [hstate, hdisposing, hidle] at hended
        exact absurd (hended.resolve_right fun hne => hne rfl) hopen
    · refine hdisposal.frame (hsame scope) rfl rfl fun hquiet node hknown hheld => ?_
      by_cases hnew : node = c.nodes
      · subst hnew
        rw [enter_node_self] at hheld
        exact absurd hheld.symm hscope
      · rw [enter_node_of_ne hnew] at hheld ⊢
        exact hquiet node (Nat.lt_of_le_of_ne (Nat.le_of_lt_succ hknown) hnew) hheld
  · by_cases hnew : node = c.nodes
    · subst hnew
      rw [enter_node_self] at hobject
      cases hobject
    · rw [enter_node_of_ne hnew] at hobject ⊢
      exact ⟨Nat.lt_of_le_of_ne (Nat.le_of_lt_succ hknown) hnew, hobject, rfl, rfl⟩

theorem Owned.resolve (h : Owned registry c) (hwaits : Waits c) {token : ServiceToken κ}
    {caller : Option ServiceCaller}
    (hcaller : caller.all (fun caller => caller.node < c.nodes) = true)
    (hresolve : c.resolve registry scope token caller = .ok (c', node)) : Owned registry c' := by
  obtain ⟨registration, target, base, -, hallowed, hgiven, hwaited⟩ := resolve_eq_ok hresolve
  have hbase : Owned registry base := by
    rcases hgiven with ⟨rfl, -, -⟩ | ⟨rfl, -, -⟩
    · exact h
    · obtain ⟨hopen, hbusy⟩ := canResolve_cases hwaits hcaller hallowed.open'
      exact h.enter hopen hbusy
  rcases hwaited with rfl | ⟨source, -, -, -, -, rfl⟩
  · exact hbase
  · exact hbase.frame rfl rfl (fun scope => (hbase.disposal scope).frame ⟨rfl, rfl, rfl⟩ rfl rfl id)
      fun _ hknown _ hobject => ⟨hknown, hobject, rfl, rfl⟩

end Resolve

/-! ### Opening, closing and disposing -/

/-- A step of the scopes that only changes one scope, and disposes there. -/
theorem Owned.setScope (h : Owned registry c) {value : ServiceScope κ} (gone : List ℕ)
    (hsame : c'.node = c.node ∧ c'.nodes = c.nodes ∧ c'.claimed = c.claimed ∧
      c'.owners = c.owners ∧ c'.scope = (c.setScope scope value).scope ∧
      c'.disposed = c.disposed ++ gone.map fun object => (scope, object))
    (hdisposal : Disposal c' scope) : Owned registry c' := by
  obtain ⟨hnode, hnodes, hclaimed, howners, hscope, hdisposed⟩ := hsame
  refine h.frame hclaimed howners (fun other => ?_) (fun other hknown object hobject => ?_)
  · by_cases hother : other = scope
    · rw [hother]
      exact hdisposal
    · refine (h.disposal other).frame ?_ ?_ ?_ fun hquiet => ?_
      · rw [hscope, setScope_of_ne c hother]
        exact ⟨rfl, rfl, rfl⟩
      · rw [claimedOf, claimedOf, hclaimed]
      · rw [disposedOf, disposedOf, hdisposed, List.filter_append, List.map_append]
        have hnone : (gone.map fun object => (scope, object)).filter
            (fun claim => claim.1 == other) = [] := by
          rw [List.filter_eq_nil_iff]
          intro claim hclaim
          obtain ⟨object, -, rfl⟩ := List.mem_map.1 hclaim
          simpa using Ne.symm hother
        rw [hnone, List.map_nil, List.append_nil]
      · rw [Quiet, hnode, hnodes]
        exact hquiet
  · rw [hnode] at hobject ⊢
    exact ⟨hnodes ▸ hknown, hobject, rfl, rfl⟩

theorem Owned.close (h : Owned registry c) (hstep : c.close scope = some c') :
    Owned registry c' := by
  unfold ServiceContainer.close at hstep
  split at hstep
  · split at hstep
    · rename_i hopened
      cases hstep
      have hdisposal := h.disposal scope
      have hidle : (c.scope scope).disposing = none := by
        cases hdisposing : (c.scope scope).disposing with
        | none => rfl
        | some rest => exact absurd hopened (hdisposal.going rest hdisposing).2
      refine h.setScope [] ⟨rfl, rfl, rfl, rfl, rfl, (List.append_nil _).symm⟩ ?_
      constructor
      · intro _
        rw [setScope_self]
        exact hdisposal.idle hidle
      · intro rest hrest
        rw [setScope_self, hidle] at hrest
        cases hrest
      · intro hended
        rw [setScope_self, hidle] at hended
        simp at hended
    · cases hstep
      exact h
  · cases hstep

theorem Owned.drained (h : Owned registry c) (hstep : c.drained scope = some c') :
    Owned registry c' := by
  unfold ServiceContainer.drained at hstep
  split at hstep
  · rename_i hclosing
    obtain ⟨-, hstate, hidle, hquiet⟩ := hclosing
    have hquiet := quiet_iff.1 hquiet
    obtain ⟨hnone, hcreated⟩ := (h.disposal scope).idle hidle
    split at hstep
    · rename_i hsingleton
      subst hsingleton
      cases hstep
      refine h.setScope [] ⟨rfl, rfl, rfl, rfl, rfl, (List.append_nil _).symm⟩ ?_
      constructor
      · intro _
        rw [setScope_self]
        exact ⟨hnone, hcreated⟩
      · intro rest hrest
        rw [setScope_self, hidle] at hrest
        cases hrest
      · intro _
        exact hquiet
    · cases hstep
      refine h.setScope [] ⟨rfl, rfl, rfl, rfl, rfl, (List.append_nil _).symm⟩ ?_
      constructor
      · intro hfalse
        rw [setScope_self] at hfalse
        cases hfalse
      · intro rest hrest
        rw [setScope_self] at hrest ⊢
        cases hrest
        refine ⟨?_, by simp [hstate]⟩
        change c.disposedOf scope ++ _ = (c.claimedOf scope).reverse
        rw [hnone, hcreated, List.nil_append]
      · intro _
        exact hquiet
  · cases hstep

theorem Owned.disposeSingletons (h : Owned registry c)
    (hstep : c.disposeSingletons = some c') : Owned registry c' := by
  unfold ServiceContainer.disposeSingletons at hstep
  split at hstep
  · rename_i hclosed
    obtain ⟨hstate, hidle⟩ := hclosed
    obtain ⟨hnone, hcreated⟩ := (h.disposal 0).idle hidle
    cases hstep
    refine h.setScope [] ⟨rfl, rfl, rfl, rfl, rfl, (List.append_nil _).symm⟩ ?_
    constructor
    · intro hfalse
      rw [setScope_self] at hfalse
      cases hfalse
    · intro rest hrest
      rw [setScope_self] at hrest ⊢
      cases hrest
      refine ⟨?_, by simp [hstate]⟩
      change c.disposedOf 0 ++ _ = (c.claimedOf 0).reverse
      rw [hnone, hcreated, List.nil_append]
    · intro _
      exact (h.disposal 0).quiet (.inl hstate)
  · cases hstep

theorem Owned.disposeNext (h : Owned registry c) (hstep : c.disposeNext scope = some c') :
    Owned registry c' := by
  unfold ServiceContainer.disposeNext at hstep
  split at hstep
  · rename_i object rest hdisposing
    cases hstep
    obtain ⟨horder, hstate⟩ := (h.disposal scope).going _ hdisposing
    refine h.setScope [object] ⟨rfl, rfl, rfl, rfl, rfl, rfl⟩ ?_
    constructor
    · intro hfalse
      simp only [setScope_self] at hfalse
      cases hfalse
    · intro left hleft
      simp only [setScope_self] at hleft ⊢
      cases hleft
      refine ⟨?_, hstate⟩
      change disposedOf _ scope ++ _ = (c.claimedOf scope).reverse
      rw [← horder]
      simp [disposedOf]
    · intro _
      exact (h.disposal scope).quiet (.inr (by simp [hdisposing]))
  · cases hstep

theorem Owned.disposeEnds (h : Owned registry c) (hstep : c.disposeEnds scope = some c') :
    Owned registry c' := by
  unfold ServiceContainer.disposeEnds at hstep
  split at hstep
  · rename_i hdisposing
    cases hstep
    obtain ⟨horder, -⟩ := (h.disposal scope).going _ hdisposing
    refine h.setScope [] ⟨rfl, rfl, rfl, rfl, rfl, (List.append_nil _).symm⟩ ?_
    constructor
    · intro hfalse
      rw [setScope_self, hdisposing] at hfalse
      cases hfalse
    · intro left hleft
      rw [setScope_self, hdisposing] at hleft
      cases hleft
      exact ⟨horder, by simp⟩
    · intro _
      exact (h.disposal scope).quiet (.inr (by simp [hdisposing]))
  · cases hstep

/-! ### Every run -/

section Run

variable [DecidableEq κ]

theorem Owned.step (h : Owned registry c) (hwaits : Waits c) (hheld : Held registry c)
    {event : ServiceEvent κ} (hstep : c.step registry event = some c') : Owned registry c' := by
  cases event with
  | createScope =>
      simp only [ServiceContainer.step] at hstep
      split at hstep
      · cases hstep
        exact h.frame rfl rfl (fun scope => (h.disposal scope).frame ⟨rfl, rfl, rfl⟩ rfl rfl id)
          fun _ hknown _ hobject => ⟨hknown, hobject, rfl, rfl⟩
      · cases hstep
  | resolve scope token caller =>
      simp only [ServiceContainer.step] at hstep
      split at hstep
      · rename_i hknown
        cases hstep
        cases hresolve : c.resolve registry scope token caller with
        | error error => exact h
        | ok result =>
            have howned := h.resolve hwaits hknown.2 hresolve
            exact howned.frame rfl rfl
              (fun scope => (howned.disposal scope).frame ⟨rfl, rfl, rfl⟩ rfl rfl id)
              fun _ hlt _ hobject => ⟨hlt, hobject, rfl, rfl⟩
      · cases hstep
  | complete node made => exact h.complete hheld.done hstep
  | settle node => exact h.settle hstep
  | release source node => exact h.release hstep
  | close scope => exact h.close hstep
  | drained scope => exact h.drained hstep
  | disposeNext scope => exact h.disposeNext hstep
  | disposeEnds scope => exact h.disposeEnds hstep
  | disposeSingletons => exact h.disposeSingletons hstep
  | beginShutdown =>
      cases hstep
      exact h.frame rfl rfl (fun scope => (h.disposal scope).frame ⟨rfl, rfl, rfl⟩ rfl rfl id)
        fun _ hknown _ hobject => ⟨hknown, hobject, rfl, rfl⟩

theorem Owned.initial [Inhabited κ] : Owned registry (serviceContainer registry).init where
  once := List.nodup_nil
  owners object scope := by
    simp only [serviceContainer]
    split <;> simp
  instances key hkey object hobject := by
    simp only [serviceContainer]
    rw [if_pos (List.any_eq_true.2 ⟨key, hkey, by simpa using hobject⟩)]
  disposal scope :=
    { idle := fun _ => ⟨rfl, rfl⟩
      going := fun _ hrest => by cases hrest
      quiet := fun _ _ hknown => absurd hknown (Nat.not_lt_zero _) }
  given _ hknown := absurd hknown (Nat.not_lt_zero _)

theorem Owned.reachable [Inhabited κ] (hc : (serviceContainer registry).Reachable c) :
    Owned registry c := by
  have hkept : Owned registry c ∧ Waits c ∧ Held registry c :=
    Machine.Reachable.invariant (serviceContainer registry)
      (P := fun c => Owned registry c ∧ Waits c ∧ Held registry c)
      ⟨Owned.initial, Waits.initial, Held.initial⟩
      (fun _ _ _ h hstep =>
        ⟨h.1.step h.2.1 h.2.2 hstep, h.2.1.step h.2.2 hstep, h.2.2.step hstep⟩) hc
  exact hkept.1

/-- Who owns what a factory gives, and what is disposed, in each state of a run. -/
structure OwnershipLaw (registry : ServiceRegistry κ) (c : ServiceContainer κ) : Prop where
  once : (c.claimed.map Prod.snd).Nodup
  given : ∀ node, node < c.nodes → ∀ object,
    (c.node node).outcome = some (some (.object object)) →
    registry.instances (c.node node).token = none →
      c.owners object = some none ∨
        ∃ owner, (owner, object) ∈ c.claimed ∧ (owner = (c.node node).scope ∨ owner = 0)
  supplied : ∀ key ∈ registry.registrations.keys, ∀ object,
    registry.instances key = some (.object object) → ∀ scope, (scope, object) ∉ c.claimed
  order : ∀ scope, c.disposedOf scope <+: (c.claimedOf scope).reverse
  all : ∀ scope, (c.scope scope).disposing = some [] →
    c.disposedOf scope = (c.claimedOf scope).reverse
  quiet : ∀ scope, c.disposedOf scope ≠ [] → c.Quiet scope

omit [DecidableEq κ] in
theorem Owned.law (h : Owned registry c) : OwnershipLaw registry c where
  once := h.once
  given node hknown object hobject hinstance := by
    obtain ⟨owner, howner, hplace⟩ := h.given node hknown object hobject hinstance
    cases owner with
    | none => exact .inl howner
    | some owner => exact .inr ⟨owner, (h.owners object owner).1 howner, hplace owner rfl⟩
  supplied key hkey object hobject scope hclaimed := by
    have howner := (h.owners object scope).2 hclaimed
    rw [h.instances key hkey object hobject] at howner
    cases howner
  order scope := by
    cases hdisposing : (c.scope scope).disposing with
    | none =>
        rw [((h.disposal scope).idle hdisposing).1]
        exact List.nil_prefix
    | some rest => exact ⟨rest, ((h.disposal scope).going rest hdisposing).1⟩
  all scope hdisposing := by
    have horder := ((h.disposal scope).going [] hdisposing).1
    rwa [List.append_nil] at horder
  quiet scope hsome := by
    cases hdisposing : (c.scope scope).disposing with
    | none => exact absurd ((h.disposal scope).idle hdisposing).1 hsome
    | some rest => exact (h.disposal scope).quiet (.inr (by simp [hdisposing]))

end Run

end ServiceContainer

/-- In every state of every run: an object is claimed by one scope at most; what a factory gives
was supplied by the application or is owned by the scope of its node or by the singletons; what
was supplied is never claimed; and a scope disposes what it has claimed in the reverse order, each
object once and all of them, and only when all its constructions have settled. -/
theorem ownership_kept {κ : Type} [DecidableEq κ] [Inhabited κ] (registry : ServiceRegistry κ)
    (c : ServiceContainer κ) (hc : (serviceContainer registry).Reachable c) :
    ServiceContainer.OwnershipLaw registry c :=
  (ServiceContainer.Owned.reachable hc).law

theorem ownership_kept_account :
    ∃ c, (serviceContainer accounts).exec (serviceContainer accounts).init accountRun = some c ∧
      ServiceContainer.OwnershipLaw accounts c := by
  obtain ⟨c, hc⟩ := Option.isSome_iff_exists.1 accountRun_isSome
  exact ⟨c, hc, ownership_kept accounts c ⟨accountRun, hc⟩⟩

end Arc.DependencyInjection
