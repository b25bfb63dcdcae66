import Arc.Foundation.Preorder
import Arc.Validation.RuleBuilder

/-!
# Validation of a model graph

A decoded model is a graph of objects: concepts, arrays, and instances whose fields are those
of their type. `walk` visits each object once, with a stack of the values still to visit in
place of the recursion, evaluates the validator of its type and goes on to what it holds. What
the rules do when they are called is a parameter; a call may throw. The signal is not aborted,
and the services resolve the validators.
-/

namespace Arc.Validation

variable {π ι τ φ σ ν : Type}

/-! ### Models and validators -/

inductive Shape (π ι : Type)
  | concept (value : Member π ι)
  | array (items : List (Member π ι))
  | instance'

/-- The objects of a model, with the type of each and its properties. -/
structure ObjectGraph (π ι τ : Type) where
  undefined : π
  nullish : π → Bool
  type : ι → τ
  shape : ι → Shape π ι
  property : ι → String → Member π ι
  fieldsFor : τ → List String

structure Validator (ι φ σ ν : Type) where
  rules : List (Rule ι φ σ ν)
  ignoredConceptRules : List String := []

/-- What the parts of a rule give for a member and its model. -/
structure RuleCalls (π ι φ σ ν : Type) where
  evaluateRule : Rule ι φ σ ν → Member π ι → ι → Except String Bool
  message : φ → Member π ι → ι → Except String String
  state : σ → ι → Except String (Option σ)

structure ModelGraphValidator (π ι τ φ σ ν : Type) where
  graph : ObjectGraph π ι τ
  validators : τ → Option (Validator ι φ σ ν)
  calls : RuleCalls π ι φ σ ν

/-- A value to be walked: its path, and whether its concept rules are ignored. -/
structure Visit (π ι : Type) where
  value : Member π ι
  path : String
  skip : Bool := false

/-- The results so far, and the objects whose validator has been evaluated. -/
structure Progress (ι σ : Type) where
  results : List (ValidationResult σ) := []
  evaluated : List ι := []

namespace ObjectGraph

variable (graph : ObjectGraph π ι τ)

def isConcept : Member π ι → Bool
  | .primitive _ => false
  | .reference object =>
      match graph.shape object with
      | .concept _ => true
      | .array _ | .instance' => false

def isNullish : Member π ι → Bool
  | .primitive value => graph.nullish value
  | .reference _ => false

/-- `Reflect.get` -/
def get (member : Member π ι) (part : String) : Except String (Member π ι) :=
  match member with
  | .primitive _ => .error "Reflect.get called on non-object"
  | .reference object => .ok (graph.property object part)

/-- The member at a path below a value. -/
def memberAt (member : Member π ι) : List String → Except String (Member π ι)
  | [] => .ok member
  | part :: rest =>
      if graph.isNullish member then .ok (.primitive graph.undefined)
      else do
        let member ← graph.get member part
        memberAt member rest

/-- The value of a concept in place of the concept. -/
def unwrapped : Member π ι → Member π ι
  | .primitive value => .primitive value
  | .reference object =>
      match graph.shape object with
      | .concept value => value
      | .array _ | .instance' => .reference object

end ObjectGraph

/-- `parts.filter(Boolean).join('.')` -/
def joinPath (parts : List String) : String :=
  ".".intercalate (parts.filter fun part => !part.isEmpty)

/-- What stands in place of the results of a validator that throws. -/
def validatorFailed : ValidationResult σ where
  severity := .error
  message := "The value could not be validated."
  members := []
  reason := "validatorFailed"

namespace ModelGraphValidator

variable (validator : ModelGraphValidator π ι τ φ σ ν)

/-! ### Rules -/

def messageOf (rule : Rule ι φ σ ν) (member : Member π ι) (object : ι) : Except String String :=
  match rule.message with
  | some (.function compute) => validator.calls.message compute member object
  | some (.text text) => .ok text
  | none => .ok "The value is invalid."

def stateOf (rule : Rule ι φ σ ν) (object : ι) : Except String (Option σ) :=
  match rule.state with
  | some state => validator.calls.state state object
  | none => .ok none

def memberPath (object : ι) (path : String) (rule : Rule ι φ σ ν) : String :=
  if validator.graph.isConcept (.reference object) && !path.isEmpty then path
  else joinPath (path :: rule.path)

/-- The result of one rule, if it applies and does not hold. -/
def checkRule (object : ι) (path : String) (rule : Rule ι φ σ ν) :
    Except String (Option (ValidationResult σ)) := do
  let found ← validator.graph.memberAt (.reference object) rule.path
  let member := if rule.kind ≠ "notNull" then validator.graph.unwrapped found else found
  let applicable ← match rule.condition with
    | some condition => condition object
    | none => .ok true
  if !applicable then return none
  let valid ← validator.calls.evaluateRule rule member object
  if valid then return none
  let message ← validator.messageOf rule member object
  let state ← validator.stateOf rule object
  return some
    { severity := rule.severity
      message := message
      members := [validator.memberPath object path rule]
      reason := "rule"
      state := state }

/-- The rules of a validator in turn, up to one that throws; and whether one did. -/
def evaluateRules (object : ι) (path : String) :
    List (Rule ι φ σ ν) → List (ValidationResult σ) → List (ValidationResult σ) × Bool
  | [], results => (results, false)
  | rule :: rules, results =>
      match validator.checkRule object path rule with
      | .error _ => (results, true)
      | .ok none => evaluateRules object path rules results
      | .ok (some result) => evaluateRules object path rules (results ++ [result])

/-- `results.splice(resultStart)` when a rule throws -/
def evaluate (object : ι) (path : String) (rules : List (Rule ι φ σ ν))
    (results : List (ValidationResult σ)) : List (ValidationResult σ) :=
  let evaluated := validator.evaluateRules object path rules results
  if evaluated.2 then evaluated.1.take results.length ++ [validatorFailed] else evaluated.1

/-! ### The walk -/

/-- The validator that a visit to an object evaluates. -/
def validatorAt (visit : Visit π ι) (object : ι) : Option (Validator ι φ σ ν) :=
  if visit.skip then none else validator.validators (validator.graph.type object)

def evaluateAt (progress : Progress ι σ) (visit : Visit π ι) (object : ι) : Progress ι σ :=
  match validator.validatorAt visit object with
  | none => progress
  | some found =>
      { results := validator.evaluate object visit.path found.rules progress.results
        evaluated := progress.evaluated ++ [object] }

def ignored (visit : Visit π ι) (object : ι) : List String :=
  match validator.validatorAt visit object with
  | none => []
  | some found => found.ignoredConceptRules

/-- What is walked below an object. -/
def children (visit : Visit π ι) (object : ι) : List (Visit π ι) :=
  match validator.graph.shape object with
  | .concept _ => []
  | .array items => items.map fun item => { value := item, path := visit.path }
  | .instance' =>
      (validator.graph.fieldsFor (validator.graph.type object)).map fun name =>
        let child := validator.graph.property object name
        { value := child
          path := joinPath [visit.path, name]
          skip := (validator.ignored visit object).contains name &&
            validator.graph.isConcept child }

def walk [Fintype ι] [DecidableEq ι] (visited : Finset ι) (progress : Progress ι σ) :
    List (Visit π ι) → Progress ι σ
  | [] => progress
  | visit :: pending =>
      match visit.value.object? with
      | none => walk visited progress pending
      | some object =>
          if _h : object ∈ visited then walk visited progress pending
          else walk (insert object visited) (validator.evaluateAt progress visit object)
            (validator.children visit object ++ pending)
termination_by pending => ((Finset.univ \ visited).card, pending.length)
decreasing_by
  · exact Prod.Lex.right _ (Nat.lt_succ_self _)
  · exact Prod.Lex.right _ (Nat.lt_succ_self _)
  · exact Prod.Lex.left _ _ (Member.card_unreported_lt _h)

def validate [Fintype ι] [DecidableEq ι] (model : Member π ι) (rootPath : String) :
    Progress ι σ :=
  validator.walk ∅ {} [{ value := model, path := rootPath }]

end ModelGraphValidator

end Arc.Validation
