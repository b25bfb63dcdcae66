import Arc.DependencyInjection.ServicePreflight
import Arc.Foundation.Machine
import Arc.Foundation.Search
import Mathlib.Logic.Function.Basic

/-!
# Scopes of one registry

A resolution has a node, which is pending until the handler of its settled task runs. The scope
caches the node of a singleton or scoped token; a resolution that is asked for from a factory
waits for its node, and the registry counts the waits. The singleton scope has number zero. The
events are the calls to a scope and the registry, the factories that end, the handlers of the
tasks and the disposal of what a scope has created.

A call is made with the resolution context of the factory it comes from, also when that has
settled long ago, or across the boundary of a nested execution, which keeps the chain and forgets
the owner. Identities, names of errors other than tokens, and what awaits the closing are left out.
-/

namespace Arc.DependencyInjection

inductive ServiceScopeState
  | opened
  | closing
  | closed
  deriving DecidableEq, Repr

/-- What a factory gives: an object or a function is known by its identity. -/
inductive ServiceValue
  | object (id : ℕ)
  | plain
  deriving DecidableEq, Repr

/-- A resolution: the chain of its context without itself, whether the context is that of a
singleton, and its task. -/
structure ServiceResolutionNode (κ : Type) where
  scope : ℕ
  token : κ
  chain : List ℕ
  singleton : Bool
  outcome : Option (Option ServiceValue) := none
  settled : Bool := false
  deriving Repr

/-- `disposing` is what is left to dispose, from when `#disposeCreated` has begun. -/
structure ServiceScope (κ : Type) where
  state : ServiceScopeState := .opened
  cache : κ → Option ℕ := fun _ => none
  created : List ℕ := []
  disposing : Option (List ℕ) := none

/-- The caller of a resolution: the node whose factory it comes from, and whether it comes across
the boundary of a nested execution. -/
structure ServiceCaller where
  node : ℕ
  boundary : Bool
  deriving DecidableEq, Repr

/-- A resolution that was not refused: what was asked for, the pending owner that asked, and the
node that was given. -/
structure ServiceAnswer (κ : Type) where
  scope : ℕ
  token : κ
  owner : Option ℕ
  node : ℕ
  deriving Repr

/-- `waits` counts the waits of a node for another. What has happened is kept too: the waits that
have not been released, the answers, the objects claimed and those disposed, with their scope. -/
structure ServiceContainer (κ : Type) where
  scopes : ℕ := 1
  scope : ℕ → ServiceScope κ
  nodes : ℕ := 0
  node : ℕ → ServiceResolutionNode κ
  owners : ℕ → Option (Option ℕ)
  waits : ℕ → ℕ → ℕ := fun _ _ => 0
  admitting : Bool := true
  singletonFailed : Bool := false
  held : List (ℕ × ℕ) := []
  answers : List (ServiceAnswer κ) := []
  claimed : List (ℕ × ℕ) := []
  disposed : List (ℕ × ℕ) := []

/-- The registrations of a registry, with the objects supplied as instances. -/
structure ServiceRegistry (κ : Type) where
  registrations : ServiceRegistrations κ
  instances : κ → Option ServiceValue

inductive ServiceEvent (κ : Type)
  | createScope
  | resolve (scope : ℕ) (token : ServiceToken κ) (caller : Option ServiceCaller)
  | complete (node : ℕ) (made : Option ServiceValue)
  | settle (node : ℕ)
  | release (source node : ℕ)
  | close (scope : ℕ)
  | drained (scope : ℕ)
  | disposeNext (scope : ℕ)
  | disposeEnds (scope : ℕ)
  | disposeSingletons
  | beginShutdown
  deriving Repr

namespace ServiceContainer

variable {κ : Type} [DecidableEq κ]

def isPending (c : ServiceContainer κ) (node : ℕ) : Bool := !(c.node node).settled

/-- The chain of the context that a factory runs in. -/
def contextChain (c : ServiceContainer κ) (caller : ServiceCaller) : List ℕ :=
  (c.node caller.node).chain ++ [caller.node]

/-- Closing scopes only accept dependencies from their own still-live factory attempts. -/
def canResolve (c : ServiceContainer κ) (scope : ℕ) (caller : Option ServiceCaller) : Bool :=
  if c.singletonFailed || (c.scope scope).state == .closed then false
  else if (c.scope scope).state == .opened then true
  else
    match caller with
    | none => false
    | some caller => (c.contextChain caller).any fun node =>
        (c.node node).scope == scope && c.isPending node

/-! ### The waits -/

/-- A look of `reaches` at a node: settled nodes lead nowhere. -/
def lookFor (c : ServiceContainer κ) (target node : ℕ) : Look ℕ Unit :=
  if !c.isPending node then .stop
  else if node = target then .found ()
  else .next ((List.range c.nodes).filter fun other => 0 < c.waits node other)

/-- Whether the node waits for the target, directly or not. -/
def reaches (c : ServiceContainer κ) (node target : ℕ) : Bool :=
  (Search.search (c.lookFor target) c.nodes node []).1.isSome

def addWait (c : ServiceContainer κ) (source node : ℕ) : ServiceContainer κ :=
  { c with
    waits := Function.update c.waits source
      (Function.update (c.waits source) node (c.waits source node + 1))
    held := c.held ++ [(source, node)] }

/-- `waitFor`, which refuses a wait that would close a cycle. -/
def waitFor (c : ServiceContainer κ) (node : ℕ) (name : String) (chain : List ℕ) :
    Except String (ServiceContainer κ) :=
  match (chain.filter c.isPending).getLast? with
  | none => .ok c
  | some source =>
      if !c.isPending node then .ok c
      else if c.reaches node source then .error ("Service dependency cycle: " ++ name)
      else .ok (c.addWait source node)

/-! ### Resolving -/

def setScope (c : ServiceContainer κ) (scope : ℕ) (value : ServiceScope κ) :
    ServiceContainer κ :=
  { c with scope := Function.update c.scope scope value }

omit [DecidableEq κ] in
@[simp] theorem setScope_self (c : ServiceContainer κ) (scope : ℕ) (value : ServiceScope κ) :
    (c.setScope scope value).scope scope = value := Function.update_self _ _ _

omit [DecidableEq κ] in
theorem setScope_of_ne (c : ServiceContainer κ) {scope other : ℕ} (hother : other ≠ scope)
    (value : ServiceScope κ) : (c.setScope scope value).scope other = c.scope other :=
  Function.update_of_ne hother _ _

/-- A new attempt, which the scope caches unless the service is transient. -/
def enter (c : ServiceContainer κ) (scope : ℕ) (token : κ) (lifetime : ServiceLifetime)
    (chain : List ℕ) (captive : Bool) : ServiceContainer κ :=
  { c with
    nodes := c.nodes + 1
    node := Function.update c.node c.nodes
      { scope := scope, token := token, chain := chain
        singleton := captive || lifetime = .singleton }
    scope :=
      if lifetime = .transient then c.scope
      else Function.update c.scope scope { c.scope scope with
        cache := Function.update (c.scope scope).cache token (some c.nodes) } }

/-- The rest of `resolveInChain` in the scope that holds the service. -/
def attach (c : ServiceContainer κ) (scope : ℕ) (token : ServiceToken κ)
    (lifetime : ServiceLifetime) (chain : List ℕ) (captive : Bool) :
    Except String (ServiceContainer κ × ℕ) :=
  if chain.any fun ancestor => c.isPending ancestor && (c.node ancestor).scope == scope &&
      (c.node ancestor).token == token.key then
    .error ("Service dependency cycle: " ++ token.name)
  else
    match if lifetime = .transient then none else (c.scope scope).cache token.key with
    | some node => do
        let waiting ← c.waitFor node token.name chain
        .ok (waiting, node)
    | none => do
        let waiting ←
          (c.enter scope token.key lifetime chain captive).waitFor c.nodes token.name chain
        .ok (waiting, c.nodes)

def resolveInChain (registry : ServiceRegistry κ) (c : ServiceContainer κ) (scope : ℕ)
    (token : ServiceToken κ) (caller : Option ServiceCaller) (chain : List ℕ) (captive : Bool) :
    Except String (ServiceContainer κ × ℕ) := do
  if !c.canResolve scope caller then .error "Service scope is disposed"
  else
    let registration ← registry.registrations.registration token
    if (captive || scope == 0) && registration.lifetime != .singleton then
      .error ("Captive service dependency: " ++ token.name)
    else if registration.lifetime = .singleton ∧ scope ≠ 0 then
      if !c.canResolve 0 caller then .error "Service scope is disposed"
      else c.attach 0 token registration.lifetime chain captive
    else c.attach scope token registration.lifetime chain captive

/-- The owner of the context, when it is still pending. -/
def livingOwner (c : ServiceContainer κ) : Option ServiceCaller → Option ℕ
  | some ⟨node, false⟩ => if c.isPending node then some node else none
  | _ => none

/-- What is pending of the chain of the context. -/
def livingChain (c : ServiceContainer κ) : Option ServiceCaller → List ℕ
  | some caller => (c.contextChain caller).filter c.isPending
  | none => []

/-- The call comes from a factory that is under construction for a singleton. -/
def isCaptive (c : ServiceContainer κ) (caller : Option ServiceCaller) : Bool :=
  (c.livingOwner caller).any fun owner => (c.node owner).singleton

def resolve (registry : ServiceRegistry κ) (c : ServiceContainer κ) (scope : ℕ)
    (token : ServiceToken κ) (caller : Option ServiceCaller) :
    Except String (ServiceContainer κ × ℕ) := do
  if !c.canResolve scope caller then .error "Service scope is disposed"
  else
    ServiceRegistrations.preflight registry.registrations [token]
    c.resolveInChain registry scope token caller (c.livingChain caller) (c.isCaptive caller)

/-- The caller has the answer, unless the call has thrown. -/
def answer (c : ServiceContainer κ) (scope : ℕ) (token : ServiceToken κ)
    (caller : Option ServiceCaller) :
    Except String (ServiceContainer κ × ℕ) → ServiceContainer κ
  | .ok (after, node) =>
      { after with answers := after.answers ++ [⟨scope, token.key, c.livingOwner caller, node⟩] }
  | .error _ => c

/-! ### Constructing -/

def setOutcome (c : ServiceContainer κ) (node : ℕ) (outcome : Option ServiceValue) :
    ServiceContainer κ :=
  { c with node := Function.update c.node node { c.node node with outcome := some outcome } }

/-- Claim a new object for the scope. -/
def push (c : ServiceContainer κ) (scope object : ℕ) : ServiceContainer κ :=
  { c.setScope scope { c.scope scope with created := (c.scope scope).created ++ [object] } with
    owners := Function.update c.owners object (some (some scope))
    claimed := c.claimed ++ [(scope, object)] }

/-- The end of `construct` with the value of the factory, whose object the scope may claim. -/
def construct (c : ServiceContainer κ) (node : ℕ) : ServiceValue → ServiceContainer κ
  | .plain => c.setOutcome node (some .plain)
  | .object id =>
      match c.owners id with
      | none => (c.push (c.node node).scope id).setOutcome node (some (.object id))
      | some owner =>
          if owner.any fun owner => owner != (c.node node).scope && owner != 0 then
            c.setOutcome node none
          else c.setOutcome node (some (.object id))

/-- The factory of a node has ended; an instance is given without one. -/
def complete (registry : ServiceRegistry κ) (c : ServiceContainer κ) (node : ℕ)
    (made : Option ServiceValue) : Option (ServiceContainer κ) :=
  if node < c.nodes ∧ (c.node node).outcome = none then
    match registry.instances (c.node node).token, made with
    | some value, _ => some (c.setOutcome node (some value))
    | none, some value => some (c.construct node value)
    | none, none => some (c.setOutcome node none)
  else none

def setSettled (c : ServiceContainer κ) (node : ℕ) : ServiceContainer κ :=
  { c with node := Function.update c.node node { c.node node with settled := true } }

/-- A failed attempt is forgotten. -/
def forget (c : ServiceContainer κ) (scope : ℕ) (token : κ) (node : ℕ) : ServiceContainer κ :=
  if (c.scope scope).cache token = some node then
    c.setScope scope
      { c.scope scope with cache := Function.update (c.scope scope).cache token none }
  else c

/-- The handlers that a resolution has registered on its task. -/
def settle (c : ServiceContainer κ) (node : ℕ) : Option (ServiceContainer κ) :=
  if node < c.nodes ∧ (c.node node).settled = false then
    match (c.node node).outcome with
    | none => none
    | some (some _) => some (c.setSettled node)
    | some none =>
        let failed := (c.setSettled node).forget (c.node node).scope (c.node node).token node
        some (if (c.node node).scope = 0 then
          { failed with singletonFailed := true, admitting := false } else failed)
  else none

/-- The handler that ends a wait. -/
def release (c : ServiceContainer κ) (source node : ℕ) : Option (ServiceContainer κ) :=
  if (source, node) ∈ c.held ∧ c.isPending node = false then
    some { c with
      waits := Function.update c.waits source
        (Function.update (c.waits source) node (c.waits source node - 1))
      held := c.held.erase (source, node) }
  else none

/-! ### Closing -/

def close (c : ServiceContainer κ) (scope : ℕ) : Option (ServiceContainer κ) :=
  if scope < c.scopes then
    match (c.scope scope).state with
    | .opened => some (c.setScope scope { c.scope scope with state := .closing })
    | _ => some c
  else none

/-- No construction of the scope is pending. -/
def quiet (c : ServiceContainer κ) (scope : ℕ) : Bool :=
  (List.range c.nodes).all fun node => (c.node node).scope != scope || !c.isPending node

/-- The close of a scope goes on once no construction is pending: the singleton scope is closed,
any other begins to dispose what it has created. -/
def drained (c : ServiceContainer κ) (scope : ℕ) : Option (ServiceContainer κ) :=
  if scope < c.scopes ∧ (c.scope scope).state = .closing ∧ (c.scope scope).disposing = none ∧
      c.quiet scope = true then
    if scope = 0 then some (c.setScope 0 { c.scope 0 with state := .closed })
    else some (c.setScope scope
      { c.scope scope with disposing := some (c.scope scope).created.reverse })
  else none

/-- The registry disposes the singletons once their scope is closed. -/
def disposeSingletons (c : ServiceContainer κ) : Option (ServiceContainer κ) :=
  if (c.scope 0).state = .closed ∧ (c.scope 0).disposing = none then
    some (c.setScope 0 { c.scope 0 with disposing := some (c.scope 0).created.reverse })
  else none

/-- The next disposer has been called; one that throws ends no disposal but its own. -/
def disposeNext (c : ServiceContainer κ) (scope : ℕ) : Option (ServiceContainer κ) :=
  match (c.scope scope).disposing with
  | some (object :: rest) =>
      some { c.setScope scope { c.scope scope with disposing := some rest } with
        disposed := c.disposed ++ [(scope, object)] }
  | _ => none

/-- The end of `#disposeCreated`, after which the scope is closed. -/
def disposeEnds (c : ServiceContainer κ) (scope : ℕ) : Option (ServiceContainer κ) :=
  if (c.scope scope).disposing = some [] then
    some (c.setScope scope
      { c.scope scope with
        state := .closed
        cache := fun _ => none
        created := [] })
  else none

def step (registry : ServiceRegistry κ) (c : ServiceContainer κ) :
    ServiceEvent κ → Option (ServiceContainer κ)
  | .createScope => if c.admitting then some { c with scopes := c.scopes + 1 } else none
  | .resolve scope token caller =>
      if scope < c.scopes ∧ caller.all (fun caller => caller.node < c.nodes) = true then
        some (c.answer scope token caller (c.resolve registry scope token caller))
      else none
  | .complete node made => c.complete registry node made
  | .settle node => c.settle node
  | .release source node => c.release source node
  | .close scope => c.close scope
  | .drained scope => c.drained scope
  | .disposeNext scope => c.disposeNext scope
  | .disposeEnds scope => c.disposeEnds scope
  | .disposeSingletons => c.disposeSingletons
  | .beginShutdown => some { c with admitting := false }

end ServiceContainer

/-- Every run of the scopes of a registry, from its construction. -/
def serviceContainer {κ : Type} [DecidableEq κ] [Inhabited κ] (registry : ServiceRegistry κ) :
    Machine (ServiceContainer κ) (ServiceEvent κ) where
  init :=
    { scope := fun _ => {}
      node := fun _ => ⟨0, default, [], false, none, false⟩
      owners := fun object =>
        if registry.registrations.keys.any fun key =>
            registry.instances key == some (.object object) then some none
        else none }
  step := ServiceContainer.step registry

end Arc.DependencyInjection
