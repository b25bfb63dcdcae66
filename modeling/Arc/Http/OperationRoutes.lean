import Mathlib.Data.List.Perm.Basic
import Mathlib.Data.Nat.Notation

/-!
# Definitions of operations and their routes

A command or query is defined with a name, a location and an optional path; `routeFor` derives
its HTTP path. A name that is left out of the path depends on the other definitions of its kind.
The schema of a definition belongs to another library and is a parameter.
-/

namespace Arc.Http

/-! ### Authorization of a definition -/

/-- One declaration of an endpoint. -/
structure Requirement where
  anonymous : Bool := false
  roles : List String := []
  authenticated : Bool := false
  policy : Option String := none
  schemes : List String := []
  deriving DecidableEq, Repr

/-- Declarations that hold together; with `requirements` the other fields are not read. -/
inductive Authorization
  | declaration (requirement : Requirement)
  | requirements (items : List Authorization)

mutual

/-- Flatten independent declarations. -/
def authorizationRequirements : Authorization → List Requirement
  | .declaration requirement => [requirement]
  | .requirements items => allRequirements items

def allRequirements : List Authorization → List Requirement
  | [] => []
  | item :: items => authorizationRequirements item ++ allRequirements items

end

/-- What is registered under the name of a policy. -/
inductive AuthorizationPolicyRegistration
  | function
  | classType (authorizes : Bool)
  | other
  deriving DecidableEq, Repr

def AuthorizationPolicyRegistration.usable : AuthorizationPolicyRegistration → Bool
  | .function => true
  | .classType authorizes => authorizes
  | .other => false

/-- The characters `trim` removes. -/
def isWhiteSpace (char : Char) : Bool :=
  (0x9 ≤ char.toNat && char.toNat ≤ 0xd) || (0x2000 ≤ char.toNat && char.toNat ≤ 0x200a) ||
    [0x20, 0xa0, 0x1680, 0x2028, 0x2029, 0x202f, 0x205f, 0x3000, 0xfeff].contains char.toNat

def isBlank (text : String) : Bool := text.toList.all isWhiteSpace

def Requirement.restricts (item : Requirement) : Bool :=
  item.authenticated || !item.roles.isEmpty || item.policy.any (· ≠ "") || !item.schemes.isEmpty

/-- Refuse unknown policies and schemes; a scheme is registered with whether it is a function. -/
def validateRequirement (policies : List (String × AuthorizationPolicyRegistration))
    (schemes : List (String × Bool)) (item : Requirement) : Except String Unit := do
  match item.policy with
  | none => pure ()
  | some policy =>
      if isBlank policy || !((policies.lookup policy).any (·.usable)) then
        throw s!"Unknown authorization policy '{policy}'."
  item.schemes.forM fun scheme =>
    if isBlank scheme || !((schemes.lookup scheme).getD false) then
      throw s!"Unknown authentication scheme: {scheme}"
    else pure ()

def validateAuthorization (value : Option Authorization) (name : String)
    (policies : List (String × AuthorizationPolicyRegistration))
    (schemes : List (String × Bool)) : Except String Unit := do
  let requirements := (value.map authorizationRequirements).getD []
  if requirements.any (·.anonymous) && requirements.any (·.restricts) then
    throw s!"Conflicting Arc authorization: {name}"
  if 1 < (requirements.filter (!·.schemes.isEmpty)).length then
    throw s!"Multiple authentication scheme declarations: {name}"
  requirements.forM (validateRequirement policies schemes)

/-! ### Definitions -/

inductive ClientOperationKind
  | command
  | query
  deriving DecidableEq, Repr

/-- What the options list: an observable query is served as a query. -/
inductive DefinitionKind
  | command
  | query
  | observableQuery
  deriving DecidableEq, Repr

variable {σ : Type}

/-- The description of an operation; `hasWireInputSchema` says that its JSON schema is given. -/
structure Definition (σ : Type) where
  name : String
  «namespace» : Option String := none
  routeNamespace : Option String := none
  path : Option String := none
  schema : σ
  hasWireInputSchema : Bool := false
  authorization : Option Authorization := none
  hasClientOutput : Bool := false

/-- What the schema library and the inspection of client inputs say of a schema: the keys of
an object schema, the error of the inspection and that of a conversion to JSON schema. -/
structure Schemas (σ : Type) where
  shape : σ → Option (List String)
  inspectClientInput : σ → String → Except String Unit
  inputSchema : ClientOperationKind → σ → Except String Unit
  emptyObject : σ

def fullyQualifiedName (item : Definition σ) : String :=
  ".".intercalate ([item.namespace.getD "", item.name].filter (· ≠ ""))

/-! ### Names and paths -/

def isNameChar (char : Char) : Bool := char.isAlphanum || char == '_'

/-- A segment of a name: a letter, then letters, digits and underscores. -/
def safeName : List Char → Bool
  | [] => false
  | char :: rest => char.isAlpha && rest.all isNameChar

def isPathChar (char : Char) : Bool := char.isAlphanum || char == '/' || char == '_' || char == '-'

/-- An explicit path: one slash, then at least one more character, which is no slash. -/
def safePath : List Char → Bool
  | '/' :: char :: rest => char != '/' && (char :: rest).all isPathChar
  | _ => false

/-- A prefix: parts that are not empty, with slashes between them. -/
def safePrefix (routePrefix : List Char) : Bool :=
  (routePrefix.splitOn '/').all fun part =>
    !part.isEmpty && part.all fun char => char.isAlphanum || char == '_' || char == '-'

/-- The location of the route, unless it is empty. -/
def Definition.location (item : Definition σ) : String :=
  (item.routeNamespace.or item.namespace).getD ""

def Definition.segments (item : Definition σ) : List (List Char) :=
  if item.location = "" then [] else item.location.toList.splitOn '.'

/-- A hyphen between the last letter of an acronym and the word after it. -/
def splitAcronyms : List Char → List Char
  | first :: second :: third :: rest =>
      if first.isUpper && second.isUpper && third.isLower then
        first :: '-' :: splitAcronyms (second :: third :: rest)
      else first :: splitAcronyms (second :: third :: rest)
  | chars => chars

/-- A hyphen where a word ends and a capital follows. -/
def splitWords : List Char → List Char
  | first :: second :: rest =>
      if (first.isLower || first.isDigit) && second.isUpper then
        first :: '-' :: splitWords (second :: rest)
      else first :: splitWords (second :: rest)
  | chars => chars

/-- A name in kebab case; `toLowerCase` is the case folding of the platform. -/
def kebab (toLowerCase : String → String) (value : List Char) : String :=
  toLowerCase (String.ofList ((splitWords (splitAcronyms value)).map fun char =>
    if char = '_' then '-' else char))

/-- A path without the slash at its end. -/
def withoutSlash (path : List Char) : String :=
  let stripped := if path.getLast? = some '/' then path.dropLast else path
  if stripped.isEmpty then "/" else String.ofList stripped

/-- The path of an operation whose names are safe. -/
def routePath (toLowerCase : String → String) (item : Definition σ) (routePrefix : String)
    (skip : ℕ) (includeName : Bool) : String :=
  match item.path with
  | some path => if path ≠ "" then withoutSlash path.toList else derived
  | none => derived
where
  derived : String :=
    let parts := routePrefix :: (item.segments.drop skip).map (kebab toLowerCase) ++
      if includeName then [kebab toLowerCase item.name.toList] else []
    "/" ++ "/".intercalate (parts.filter (· ≠ ""))

def Definition.safeNames (item : Definition σ) : Bool :=
  (item.segments ++ [item.name.toList]).all safeName

def Definition.safePath (item : Definition σ) : Bool :=
  match item.path with
  | some path => path = "" || Http.safePath path.toList
  | none => true

/-- The route of an operation; an explicit path takes precedence. -/
def routeFor (toLowerCase : String → String) (item : Definition σ) (routePrefix : String)
    (skip : ℕ) (includeName : Bool) : Except String String :=
  if !item.safeNames then .error "Unsafe Arc name"
  else if !item.safePath then .error "Unsafe Arc path"
  else .ok (routePath toLowerCase item routePrefix skip includeName)

/-- Where the name is left out: the location without its first segments. -/
def Definition.routeLocation (item : Definition σ) (skip : ℕ) : List (List Char) :=
  (item.location.toList.splitOn '.').drop skip

/-- Keep the name unless leaving it out was asked for and no other definition shares the
location. -/
def includeRouteName (item : Definition σ) (items : List (Definition σ)) (skip : ℕ)
    (includeName : Option Bool) : Bool :=
  includeName.getD true ||
    1 < (items.filter fun other =>
      ['.'].intercalate (other.routeLocation skip) =
        ['.'].intercalate (item.routeLocation skip)).length

end Arc.Http
