import Arc.Foundation.Checks
import Arc.Foundation.InsertionMap
import Mathlib.Logic.Relation

/-!
# Preflight of the service graph

`preflight` walks the declared dependencies of the given tokens along every path, without a
factory being called. A path carries the tokens above and whether one of them is a singleton.
`preflight_iff` says which graphs it lets pass: those in which everything that can be reached
is registered, leads not back to itself and is no shorter lived than a singleton above it.

The dependencies of a registration are those the constructor has normalized, and a token is
known by its key; its name is for the errors.
-/

namespace Arc.DependencyInjection

open Relation

inductive ServiceLifetime
  | singleton
  | scoped
  | transient
  deriving DecidableEq, Repr

/-- An identity-based key for a service; names are diagnostic only. -/
structure ServiceToken (κ : Type) where
  key : κ
  name : String
  deriving DecidableEq, Repr

structure ServiceRegistration (κ : Type) where
  token : ServiceToken κ
  lifetime : ServiceLifetime
  dependencies : Option (List (ServiceToken κ)) := none

/-- The registrations by the keys of their tokens. -/
abbrev ServiceRegistrations (κ : Type) := InsertionMap κ (ServiceRegistration κ)

namespace ServiceRegistrations

variable {κ : Type} [DecidableEq κ] (registrations : ServiceRegistrations κ)

/-- Retrieve a declaration without constructing its service. -/
def registration (token : ServiceToken κ) : Except String (ServiceRegistration κ) :=
  match registrations.get token.key with
  | none => .error ("Missing service: " ++ token.name)
  | some registration => .ok registration

theorem registration_eq_ok {token : ServiceToken κ} {found : ServiceRegistration κ} :
    registration registrations token = .ok found ↔ registrations.get token.key = some found := by
  unfold registration
  cases registrations.get token.key with
  | none => simp
  | some other => simp

/-- How many registrations are not on the path. -/
def remaining (chain : List κ) : ℕ :=
  (registrations.keys.filter (· ∉ chain)).length

theorem remaining_lt {chain : List κ} {key : κ} (hkey : key ∈ registrations.keys)
    (hchain : key ∉ chain) :
    remaining registrations (chain ++ [key]) < remaining registrations chain := by
  have hfilter : registrations.keys.filter (· ∉ chain ++ [key]) =
      (registrations.keys.filter (· ∉ chain)).filter (· ≠ key) := by
    rw [List.filter_filter]
    refine List.filter_congr fun other _ => ?_
    simp [List.mem_append, and_comm]
  rw [remaining, remaining, hfilter]
  refine List.length_filter_lt_length_iff_exists.2 ⟨key, ?_, by simp⟩
  exact List.mem_filter.2 ⟨hkey, by simpa using hchain⟩

def visit (token : ServiceToken κ) (chain : List κ) (singleton : Bool) : Except String Unit :=
  match _h : registration registrations token with
  | .error error => .error error
  | .ok registration =>
      if _hchain : token.key ∈ chain then
        .error ("Service dependency cycle: " ++ token.name)
      else if singleton && registration.lifetime ≠ .singleton then
        .error ("Captive service dependency: " ++ token.name)
      else
        (registration.dependencies.getD []).forM fun dependency =>
          visit dependency (chain ++ [token.key])
            (singleton || registration.lifetime = .singleton)
termination_by remaining registrations chain
decreasing_by
  exact remaining_lt registrations
    (registrations.mem_keys_iff.2 ⟨_, (registration_eq_ok registrations).1 _h⟩) _hchain

/-- Inspect declarations without invoking factories. -/
def preflight (tokens : List (ServiceToken κ)) : Except String Unit :=
  tokens.forM fun token => visit registrations token [] false

/-! ### The service graph -/

/-- The registration of the first declares the second. -/
def Depends (key other : κ) : Prop :=
  ∃ registration, registrations.get key = some registration ∧
    ∃ dependency ∈ registration.dependencies.getD [], dependency.key = other

def Reaches : κ → κ → Prop :=
  ReflTransGen (Depends registrations)

def IsSingleton (key : κ) : Prop :=
  ∃ registration, registrations.get key = some registration ∧
    registration.lifetime = .singleton

/-- What can be reached from the tokens is registered and leads not back to itself, and what a
singleton reaches is a singleton. -/
structure Sound (tokens : List (ServiceToken κ)) : Prop where
  registered : ∀ token ∈ tokens, ∀ key, Reaches registrations token.key key →
    (registrations.get key).isSome
  acyclic : ∀ token ∈ tokens, ∀ key, Reaches registrations token.key key →
    ¬ TransGen (Depends registrations) key key
  lasting : ∀ token ∈ tokens, ∀ key, Reaches registrations token.key key →
    IsSingleton registrations key → ∀ other, Reaches registrations key other →
      IsSingleton registrations other

/-- What a visit on a path finds in order. -/
structure Clear (key : κ) (chain : List κ) (singleton : Bool) : Prop where
  registered : ∀ other, Reaches registrations key other → (registrations.get other).isSome
  apart : ∀ other, Reaches registrations key other → other ∉ chain
  acyclic : ∀ other, Reaches registrations key other →
    ¬ TransGen (Depends registrations) other other
  lasting : ∀ other, Reaches registrations key other → IsSingleton registrations other →
    ∀ below, Reaches registrations other below → IsSingleton registrations below
  captured : singleton = true → ∀ other, Reaches registrations key other →
    IsSingleton registrations other

variable {registrations}

theorem isSingleton_iff {key : κ} {found : ServiceRegistration κ}
    (h : registrations.get key = some found) :
    IsSingleton registrations key ↔ found.lifetime = .singleton := by
  constructor
  · rintro ⟨other, hother, hlifetime⟩
    rw [h] at hother
    rwa [Option.some.inj hother]
  · exact fun hlifetime => ⟨found, h, hlifetime⟩

/-- What can be reached is the token itself, or is reached from a dependency. -/
theorem reaches_iff {key other : κ} {found : ServiceRegistration κ}
    (h : registrations.get key = some found) :
    Reaches registrations key other ↔ key = other ∨
      ∃ dependency ∈ found.dependencies.getD [], Reaches registrations dependency.key other := by
  rw [Reaches, ReflTransGen.cases_head_iff]
  refine or_congr_right ⟨?_, ?_⟩
  · rintro ⟨next, ⟨registered, hregistered, dependency, hmem, rfl⟩, hreaches⟩
    rw [h] at hregistered
    cases hregistered
    exact ⟨dependency, hmem, hreaches⟩
  · rintro ⟨dependency, hmem, hreaches⟩
    exact ⟨dependency.key, ⟨found, h, dependency, hmem, rfl⟩, hreaches⟩

theorem depends_of_mem {key : κ} {found : ServiceRegistration κ}
    (h : registrations.get key = some found) {dependency : ServiceToken κ}
    (hmem : dependency ∈ found.dependencies.getD []) :
    Depends registrations key dependency.key :=
  ⟨found, h, dependency, hmem, rfl⟩

/-! ### A path and what is below it -/

section Below

variable {token : ServiceToken κ} {chain : List κ} {singleton : Bool}
  {found : ServiceRegistration κ}

/-- The check of a token and the walks below it find everything in order. -/
theorem Clear.of_dependencies (h : registrations.get token.key = some found)
    (hchain : token.key ∉ chain)
    (hlifetime : singleton = true → found.lifetime = .singleton)
    (hbelow : ∀ dependency ∈ found.dependencies.getD [],
      Clear registrations dependency.key (chain ++ [token.key])
        (singleton || found.lifetime = .singleton)) :
    Clear registrations token.key chain singleton := by
  -- below the token there is no way back to it
  have hback : ∀ dependency ∈ found.dependencies.getD [],
      ¬ Reaches registrations dependency.key token.key := fun dependency hmem hreaches =>
    (hbelow dependency hmem).apart _ hreaches
      (List.mem_append_right _ (List.mem_singleton_self _))
  have hlasting : ∀ other, Reaches registrations token.key other →
      IsSingleton registrations other → ∀ below, Reaches registrations other below →
        IsSingleton registrations below := by
    intro other hreaches hsingleton below hother
    rcases (reaches_iff h).1 hreaches with rfl | ⟨dependency, hmem, hreaches⟩
    · rcases (reaches_iff h).1 hother with rfl | ⟨dependency, hmem, hother⟩
      · exact hsingleton
      · refine (hbelow dependency hmem).captured ?_ below hother
        rw [(isSingleton_iff h).1 hsingleton]
        exact Bool.or_true singleton
    · exact (hbelow dependency hmem).lasting other hreaches hsingleton below hother
  refine ⟨fun other hreaches => ?_, fun other hreaches hmem => ?_, fun other hreaches hcycle => ?_,
    hlasting, fun hsingleton other hreaches => ?_⟩
  · rcases (reaches_iff h).1 hreaches with rfl | ⟨dependency, hmem, hreaches⟩
    · rw [h]
      rfl
    · exact (hbelow dependency hmem).registered other hreaches
  · rcases (reaches_iff h).1 hreaches with rfl | ⟨dependency, hdependency, hreaches⟩
    · exact hchain hmem
    · exact (hbelow dependency hdependency).apart other hreaches (List.mem_append_left _ hmem)
  · rcases (reaches_iff h).1 hreaches with rfl | ⟨dependency, hmem, hreaches⟩
    · obtain ⟨next, ⟨registered, hregistered, dependency, hmem, rfl⟩, hrest⟩ :=
        TransGen.head'_iff.1 hcycle
      rw [h] at hregistered
      cases hregistered
      exact hback dependency hmem hrest
    · exact (hbelow dependency hmem).acyclic other hreaches hcycle
  · exact hlasting token.key .refl ((isSingleton_iff h).2 (hlifetime hsingleton)) other hreaches

/-- What is in order on a path is in order one step further down. -/
theorem Clear.dependency (hclear : Clear registrations token.key chain singleton)
    (h : registrations.get token.key = some found) {dependency : ServiceToken κ}
    (hmem : dependency ∈ found.dependencies.getD []) :
    Clear registrations dependency.key (chain ++ [token.key])
      (singleton || found.lifetime = .singleton) := by
  have hedge := depends_of_mem h hmem
  have hdown : ∀ other, Reaches registrations dependency.key other →
      Reaches registrations token.key other := fun other hreaches => .head hedge hreaches
  refine ⟨fun other hreaches => hclear.registered other (hdown other hreaches),
    fun other hreaches hchain => ?_,
    fun other hreaches => hclear.acyclic other (hdown other hreaches),
    fun other hreaches => hclear.lasting other (hdown other hreaches),
    fun hsingleton other hreaches => ?_⟩
  · rcases List.mem_append.1 hchain with hchain | hchain
    · exact hclear.apart other (hdown other hreaches) hchain
    · cases List.mem_singleton.1 hchain
      exact hclear.acyclic token.key .refl (TransGen.head' hedge hreaches)
  · rcases Bool.or_eq_true_iff.1 hsingleton with hsingleton | hlifetime
    · exact hclear.captured hsingleton other (hdown other hreaches)
    · exact hclear.lasting token.key .refl
        ((isSingleton_iff h).2 (of_decide_eq_true hlifetime)) other (hdown other hreaches)

end Below

/-- A visit succeeds exactly if everything is in order on its path. -/
theorem visit_eq_ok_iff (token : ServiceToken κ) (chain : List κ) (singleton : Bool) :
    visit registrations token chain singleton = .ok () ↔
      Clear registrations token.key chain singleton := by
  fun_induction visit registrations token chain singleton with
  | case1 token chain singleton error h =>
      refine ⟨fun hok => (by cases hok), fun hclear => ?_⟩
      obtain ⟨found, hfound⟩ := Option.isSome_iff_exists.1 (hclear.registered _ .refl)
      rw [(registration_eq_ok registrations).2 hfound] at h
      cases h
  | case2 token chain singleton found h hchain =>
      exact ⟨fun hok => (by cases hok), fun hclear => absurd hchain (hclear.apart _ .refl)⟩
  | case3 token chain singleton found h hchain hcaptive =>
      rw [registration_eq_ok] at h
      refine ⟨fun hok => (by cases hok), fun hclear => ?_⟩
      have hsingleton := (isSingleton_iff h).1 (hclear.captured (by simp_all) _ .refl)
      simp [hsingleton] at hcaptive
  | case4 token chain singleton found h hchain hcaptive ih =>
      rw [registration_eq_ok] at h
      rw [Except.forM_eq_ok]
      simp only [ih]
      constructor
      · exact Clear.of_dependencies h hchain fun hsingleton => by simp_all
      · exact fun hclear dependency hmem => hclear.dependency h hmem

theorem preflight_eq_ok_iff (registrations : ServiceRegistrations κ)
    (tokens : List (ServiceToken κ)) :
    preflight registrations tokens = .ok () ↔ Sound registrations tokens := by
  rw [preflight, Except.forM_eq_ok]
  simp only [visit_eq_ok_iff]
  constructor
  · exact fun h => ⟨fun token hmem => (h token hmem).registered,
      fun token hmem => (h token hmem).acyclic, fun token hmem => (h token hmem).lasting⟩
  · exact fun h token hmem => ⟨h.registered token hmem, fun _ _ => List.not_mem_nil,
      h.acyclic token hmem, h.lasting token hmem, fun hfalse => by cases hfalse⟩

/-! ### In any order -/

/-- The same services with the same lifetimes, and the same dependencies up to their order. -/
structure SameServices (registrations others : ServiceRegistrations κ) : Prop where
  registered : ∀ key, (registrations.get key).isSome ↔ (others.get key).isSome
  same : ∀ key registration other, registrations.get key = some registration →
    others.get key = some other → registration.lifetime = other.lifetime ∧
      (registration.dependencies.getD []).Perm (other.dependencies.getD [])

namespace SameServices

variable {others : ServiceRegistrations κ}

theorem symm (h : SameServices registrations others) : SameServices others registrations where
  registered key := (h.registered key).symm
  same key other registration hother hregistration := by
    obtain ⟨hlifetime, hdependencies⟩ := h.same key registration other hregistration hother
    exact ⟨hlifetime.symm, hdependencies.symm⟩

theorem get (h : SameServices registrations others) {key : κ} {found : ServiceRegistration κ}
    (hfound : registrations.get key = some found) : ∃ other, others.get key = some other :=
  Option.isSome_iff_exists.1 ((h.registered key).1 (hfound ▸ rfl))

theorem depends (h : SameServices registrations others) {key other : κ}
    (hdepends : Depends registrations key other) : Depends others key other := by
  obtain ⟨found, hfound, dependency, hmem, rfl⟩ := hdepends
  obtain ⟨same, hsame⟩ := h.get hfound
  exact ⟨same, hsame, dependency, (h.same key found same hfound hsame).2.mem_iff.1 hmem, rfl⟩

theorem isSingleton (h : SameServices registrations others) {key : κ}
    (hsingleton : IsSingleton registrations key) : IsSingleton others key := by
  obtain ⟨found, hfound, hlifetime⟩ := hsingleton
  obtain ⟨same, hsame⟩ := h.get hfound
  exact ⟨same, hsame, (h.same key found same hfound hsame).1 ▸ hlifetime⟩

theorem sound (h : SameServices registrations others) {tokens more : List (ServiceToken κ)}
    (htokens : more ⊆ tokens) (hsound : Sound registrations tokens) : Sound others more := by
  have hreaches : ∀ {key other}, Reaches others key other → Reaches registrations key other :=
    fun hreaches => ReflTransGen.mono (fun _ _ hdepends => h.symm.depends hdepends) _ _ hreaches
  refine ⟨fun token hmem key hkey => ?_, fun token hmem key hkey hcycle => ?_,
    fun token hmem key hkey hsingleton other hother => ?_⟩
  · exact (h.registered key).1 (hsound.registered token (htokens hmem) key (hreaches hkey))
  · exact hsound.acyclic token (htokens hmem) key (hreaches hkey)
      (TransGen.mono (fun _ _ hdepends => h.symm.depends hdepends) _ _ hcycle)
  · exact h.isSingleton (hsound.lasting token (htokens hmem) key (hreaches hkey)
      (h.symm.isSingleton hsingleton) other (hreaches hother))

end SameServices

/-- Preflight lets pass exactly the graphs in which everything that can be reached is
registered, leads not back to itself and outlives what is above it; in whatever order tokens and
dependencies are given. -/
theorem preflight_iff (registrations : ServiceRegistrations κ) (tokens : List (ServiceToken κ)) :
    (preflight registrations tokens = .ok () ↔ Sound registrations tokens) ∧
      ∀ (others : ServiceRegistrations κ) (reordered : List (ServiceToken κ)),
        SameServices registrations others → tokens.Perm reordered →
          (preflight registrations tokens = .ok () ↔ preflight others reordered = .ok ()) := by
  refine ⟨preflight_eq_ok_iff registrations tokens, fun others reordered hsame hperm => ?_⟩
  rw [preflight_eq_ok_iff, preflight_eq_ok_iff]
  exact ⟨hsame.sound hperm.symm.subset, hsame.symm.sound hperm.subset⟩

/-- A captive dependency is found from either side. -/
theorem preflight_iff_captive :
    let clock : ServiceToken ℕ := ⟨0, "Clock"⟩
    let account : ServiceToken ℕ := ⟨1, "Account"⟩
    let registrations : ServiceRegistrations ℕ :=
      (InsertionMap.empty.set 0 ⟨clock, .singleton, some [account]⟩).set 1
        ⟨account, .scoped, none⟩
    preflight registrations [clock, account] = .ok () ↔
      preflight registrations [account, clock] = .ok () :=
  (preflight_iff _ _).2 _ _
    ⟨fun _ => Iff.rfl, fun key found other hfound hother => by
      rw [hfound] at hother
      cases hother
      exact ⟨rfl, List.Perm.refl _⟩⟩
    (List.Perm.swap _ _ _)

end ServiceRegistrations

end Arc.DependencyInjection
