import Mathlib.Data.List.Basic

/-!
# Authorization declarations

A declaration is a single requirement, or a list of declarations that all have to hold, to any
depth. `combineAuthorization` puts one more declaration next to those of a class, and keeps
flags next to the list that sum it up; what is evaluated is the flattened list alone. So a
combination demands what its parts demand (`flatten_combineAuthorization`).

The caller and the request stay the same throughout, a policy answers the same each time it is
asked, and nothing is canceled.
-/

namespace Arc.Authorization

/-- The declarations on one endpoint. -/
structure Authorization where
  anonymous : Bool := false
  roles : List String := []
  authenticated : Bool := false
  policy : Option String := none
  schemes : List String := []
  requirements : Option (List Authorization) := none

structure Principal where
  isAuthenticated : Bool
  roles : List String
  scheme : Option String := none

/-- A callback, or a class whose service is resolved first. -/
inductive AuthorizationPolicyRegistration (ε : Type)
  | callback (policy : Principal → Except ε Bool)
  | service (resolve : Except ε (Principal → Except ε Bool))

/-- Who calls, and the policies by their names. -/
structure Caller (ε : Type) where
  principal : Option Principal
  policies : String → Option (AuthorizationPolicyRegistration ε)

/-! ### Declarations -/

mutual

/-- Flatten independent declarations without changing their AND semantics. -/
def authorizationRequirements : Authorization → List Authorization
  | ⟨anonymous, roles, authenticated, policy, schemes, none⟩ =>
      [⟨anonymous, roles, authenticated, policy, schemes, none⟩]
  | ⟨_, _, _, _, _, some requirements⟩ => flattenAll requirements

def flattenAll : List Authorization → List Authorization
  | [] => []
  | requirement :: requirements =>
      authorizationRequirements requirement ++ flattenAll requirements

end

/-- The requirements of a declaration that may be missing. -/
def requirementsOf (value : Option Authorization) : List Authorization :=
  value.elim [] authorizationRequirements

def combineAuthorization (existing : Option Authorization) (requirement : Authorization) :
    Authorization :=
  match existing with
  | none => requirement
  | some existing =>
      let requirements := existing.requirements.getD [existing]
      { requirements := some (requirements ++ [requirement])
        authenticated := requirements.any (·.authenticated) || requirement.authenticated
        anonymous := requirements.any (·.anonymous) || requirement.anonymous }

/-! ### Evaluation -/

section Evaluation

variable {ε : Type} (caller : Caller ε)

def AuthorizationPolicyRegistration.authorize (principal : Principal) :
    AuthorizationPolicyRegistration ε → Except ε Bool
  | .callback policy => policy principal
  | .service resolve => do
      let authorize ← resolve
      authorize principal

/-- An empty name is no policy. -/
def policyName (item : Authorization) : Option String :=
  item.policy.filter fun policy => !policy.isEmpty

def demandsNothing (item : Authorization) : Bool :=
  !item.authenticated && item.roles.isEmpty && (policyName item).isNone && item.schemes.isEmpty

/-- Whether the caller meets one requirement. -/
def admits (item : Authorization) : Except ε Bool :=
  if item.anonymous || demandsNothing item then .ok true
  else
    match caller.principal with
    | none => .ok false
    | some principal =>
        if !principal.isAuthenticated then .ok false
        else if !item.schemes.isEmpty && !item.schemes.contains (principal.scheme.getD "") then
          .ok false
        else if !item.roles.isEmpty && !item.roles.any principal.roles.contains then .ok false
        else
          match policyName item with
          | none => .ok true
          | some name =>
              match caller.policies name with
              | none => .ok false
              | some policy => policy.authorize principal

/-- The requirements in turn, up to one that is not met or cannot be evaluated. -/
def admitsAll : List Authorization → Except ε Bool
  | [] => .ok true
  | item :: items => do
      let allowed ← admits caller item
      if allowed then admitsAll items else .ok false

/-- Evaluate all declarations; role alternatives are OR, declarations and policies are AND. -/
def authorized (requirement : Option Authorization) : Except ε Bool :=
  admitsAll caller (requirementsOf requirement)

end Evaluation

/-! ### What a combination demands -/

theorem flattenAll_append (first second : List Authorization) :
    flattenAll (first ++ second) = flattenAll first ++ flattenAll second := by
  induction first with
  | nil => rfl
  | cons item items ih =>
      rw [List.cons_append, flattenAll, flattenAll, ih, List.append_assoc]

@[simp] theorem flattenAll_singleton (item : Authorization) :
    flattenAll [item] = authorizationRequirements item := by
  rw [flattenAll, flattenAll, List.append_nil]

theorem authorizationRequirements_of_some {value : Authorization} {items : List Authorization}
    (h : value.requirements = some items) :
    authorizationRequirements value = flattenAll items := by
  cases value
  subst h
  rw [authorizationRequirements]

theorem flattenAll_getD (value : Authorization) :
    flattenAll (value.requirements.getD [value]) = authorizationRequirements value := by
  cases h : value.requirements with
  | none => exact flattenAll_singleton value
  | some items => exact (authorizationRequirements_of_some h).symm

/-- A combination demands what the declarations before demand and then the new one, whatever
its flags say. -/
theorem flatten_combineAuthorization (existing : Option Authorization)
    (requirement : Authorization) :
    authorizationRequirements (combineAuthorization existing requirement) =
      requirementsOf existing ++ authorizationRequirements requirement := by
  cases existing with
  | none => rfl
  | some existing =>
      rw [authorizationRequirements_of_some rfl, flattenAll_append, flattenAll_getD,
        flattenAll_singleton]
      rfl

section Verdict

variable {ε : Type} {caller : Caller ε}

theorem admitsAll_eq_true_iff {items : List Authorization} :
    admitsAll caller items = .ok true ↔ ∀ item ∈ items, admits caller item = .ok true := by
  induction items with
  | nil => exact ⟨fun _ => by simp, fun _ => rfl⟩
  | cons item items ih =>
      rw [List.forall_mem_cons, ← ih, admitsAll]
      cases hadmits : admits caller item with
      | error thrown =>
          constructor
          · intro h
            cases h
          · intro h
            cases h.1
      | ok allowed =>
          cases allowed with
          | false =>
              constructor
              · intro h
                cases h
              · intro h
                cases h.1
          | true => exact ⟨fun h => ⟨rfl, h⟩, fun h => h.2⟩

/-- A combination grants exactly what both declarations grant. So it grants nothing that one of
them denies, and how declarations are grouped makes no difference. -/
theorem authorized_combineAuthorization (caller : Caller ε) (first : Option Authorization)
    (second : Authorization) :
    (authorized caller (some (combineAuthorization first second)) = .ok true ↔
        authorized caller first = .ok true ∧ authorized caller (some second) = .ok true) ∧
      (authorized caller first ≠ .ok true →
        ∀ others : List Authorization,
          authorized caller (others.foldl (fun existing requirement =>
            some (combineAuthorization existing requirement)) first) ≠ .ok true) ∧
      ∀ third : Authorization,
        authorized caller
            (some (combineAuthorization (some (combineAuthorization first second)) third)) =
          authorized caller
            (some (combineAuthorization first (combineAuthorization (some second) third))) := by
  have hboth : ∀ (first : Option Authorization) (second : Authorization),
      authorized caller (some (combineAuthorization first second)) = .ok true ↔
        authorized caller first = .ok true ∧ authorized caller (some second) = .ok true := by
    intro first second
    simp only [authorized, requirementsOf, Option.elim_some, flatten_combineAuthorization,
      admitsAll_eq_true_iff, List.forall_mem_append]
  refine ⟨hboth first second, fun hdenied others => ?_, fun third => ?_⟩
  · induction others generalizing first with
    | nil => exact hdenied
    | cons other others ih =>
        exact ih _ fun hgranted => hdenied ((hboth first other).1 hgranted).1
  · simp only [authorized, requirementsOf, Option.elim_some, flatten_combineAuthorization,
      List.append_assoc]

end Verdict

end Arc.Authorization
