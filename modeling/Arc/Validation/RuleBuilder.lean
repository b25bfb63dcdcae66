import Arc.Foundation.Numbers
import Arc.Validation.ValidationResult

/-!
# Building validation rules

A validator registers rules through builders, one for each call of `ruleFor`. A rule is an
immutable value; changing one makes a new value and replaces the old one, which is found by
its identity, in the list of the validator. A builder keeps the rules of its own chain and the
last of them. Identities are numbered in the order the values were made.

Models, messages that are functions, custom states, and the arguments other than numbers and
patterns are parameters; `above` is what `compareValues` answers for the latter.
-/

namespace Arc.Validation

/-! ### Rules -/

/-- An argument of a rule. -/
inductive Argument (ν : Type)
  | number (number : Number)
  | pattern (source flags : String)
  | value (value : ν)

/-- A failure message: a text, or a function of the value and the model. -/
inductive Message (φ : Type)
  | text (text : String)
  | function (compute : φ)

/-- A predicate on the model; one that throws or rejects answers an error. -/
abbrev Predicate (μ : Type) := μ → Except String Bool

/-- An immutable rule descriptor with its identity. -/
structure Rule (μ φ σ ν : Type) where
  identity : ℕ
  path : List String
  kind : String
  args : List (Argument ν)
  message : Option (Message φ) := none
  severity : Severity := .error
  state : Option σ := none
  condition : Option (Predicate μ) := none
  clientSafe : Bool

/-- A rule to be added: its kind, its arguments, and whether a client could interpret it. -/
structure Addition (ν : Type) where
  kind : String
  args : List (Argument ν) := []
  safe : Bool := true

section Additions

variable {ν : Type}

/-- `typeof value === 'number' && Number.isFinite(value) && Math.abs(value) <= MAX_SAFE_INTEGER` -/
def safeNumber : Argument ν → Bool
  | .number (.finite value) => decide (|value| ≤ Number.maxSafe)
  | _ => false

/-- A rule whose one bound has to be a safe number on a client. -/
def bounded (kind : String) (value : Argument ν) : Addition ν where
  kind := kind
  args := [value]
  safe := safeNumber value

/-- A rule of the server alone. -/
def serverOnly (kind : String) (args : List (Argument ν)) : Addition ν where
  kind := kind
  args := args
  safe := false

def notNull : Addition ν := { kind := "notNull" }

def notEmpty : Addition ν := { kind := "notEmpty" }

def minLength (length : Number) : Addition ν := { kind := "minLength", args := [.number length] }

def maxLength (length : Number) : Addition ν := { kind := "maxLength", args := [.number length] }

def length (min max : Number) : Addition ν :=
  { kind := "length", args := [.number min, .number max] }

def emailAddress : Addition ν := { kind := "emailAddress" }

def phone : Addition ν := { kind := "phone" }

def url : Addition ν := { kind := "url" }

/-- Flagged regular expressions remain server-only. -/
def matches' (source flags : String) : Addition ν where
  kind := "matches"
  args := [.pattern source flags]
  safe := !flags.contains 'g' && !flags.contains 'y' && flags.isEmpty

def greaterThan : Argument ν → Addition ν := bounded "greaterThan"

def greaterThanOrEqual : Argument ν → Addition ν := bounded "greaterThanOrEqual"

def lessThan : Argument ν → Addition ν := bounded "lessThan"

def lessThanOrEqual : Argument ν → Addition ν := bounded "lessThanOrEqual"

def empty : Addition ν := serverOnly "empty" []

def null : Addition ν := serverOnly "null" []

def equal (value : Argument ν) : Addition ν := serverOnly "equal" [value]

def notEqual (value : Argument ν) : Addition ν := serverOnly "notEqual" [value]

def inclusiveBetween (min max : Argument ν) : Addition ν :=
  serverOnly "inclusiveBetween" [min, max]

def exclusiveBetween (min max : Argument ν) : Addition ν :=
  serverOnly "exclusiveBetween" [min, max]

def must (predicate : ν) : Addition ν := serverOnly "must" [.value predicate]

def mustAsync (predicate : ν) : Addition ν := serverOnly "mustAsync" [.value predicate]

/-- The methods that add a rule. -/
inductive Method (ν : Type)
  | notNull
  | notEmpty
  | minLength (length : Number)
  | maxLength (length : Number)
  | length (min max : Number)
  | emailAddress
  | phone
  | url
  | matches' (source flags : String) (errorMessage : Option String)
  | greaterThan (value : Argument ν)
  | greaterThanOrEqual (value : Argument ν)
  | lessThan (value : Argument ν)
  | lessThanOrEqual (value : Argument ν)
  | empty
  | null
  | equal (value : Argument ν)
  | notEqual (value : Argument ν)
  | inclusiveBetween (min max : Argument ν)
  | exclusiveBetween (min max : Argument ν)
  | must (predicate : ν)
  | mustAsync (predicate : ν)

/-- What a method adds. -/
def Method.addition : Method ν → Addition ν
  | .notNull => Validation.notNull
  | .notEmpty => Validation.notEmpty
  | .minLength bound => Validation.minLength bound
  | .maxLength bound => Validation.maxLength bound
  | .length min max => Validation.length min max
  | .emailAddress => Validation.emailAddress
  | .phone => Validation.phone
  | .url => Validation.url
  | .matches' source flags _ => Validation.matches' source flags
  | .greaterThan value => Validation.greaterThan value
  | .greaterThanOrEqual value => Validation.greaterThanOrEqual value
  | .lessThan value => Validation.lessThan value
  | .lessThanOrEqual value => Validation.lessThanOrEqual value
  | .empty => Validation.empty
  | .null => Validation.null
  | .equal value => Validation.equal value
  | .notEqual value => Validation.notEqual value
  | .inclusiveBetween min max => Validation.inclusiveBetween min max
  | .exclusiveBetween min max => Validation.exclusiveBetween min max
  | .must predicate => Validation.must predicate
  | .mustAsync predicate => Validation.mustAsync predicate

/-- The message a method supplies for the rule it has added. -/
def Method.errorMessage : Method ν → Option String
  | .matches' _ _ errorMessage => errorMessage
  | _ => none

/-- `!Number.isSafeInteger(value) || value < 0` -/
def badLength : Argument ν → Bool
  | .number number => !number.isSafeInteger || number.less (.finite 0)
  | _ => true

/-- `(compareValues(left, right) ?? 0) > 0` -/
def outOfOrder (above : ν → ν → Bool) : Argument ν → Argument ν → Bool
  | .number left, .number right => right.less left
  | .value left, .value right => above left right
  | _, _ => false

/-- The first two arguments are out of order; one that is missing compares with nothing. -/
def boundsOutOfOrder (above : ν → ν → Bool) : List (Argument ν) → Bool
  | left :: right :: _ => outOfOrder above left right
  | _ => false

/-- The arguments `add` rejects. -/
def Addition.isInvalid (above : ν → ν → Bool) (addition : Addition ν) : Bool :=
  (addition.kind ∈ ["minLength", "maxLength", "length"] && addition.args.any badLength) ||
    (addition.kind ∈ ["length", "inclusiveBetween", "exclusiveBetween"] &&
      boundsOutOfOrder above addition.args)

end Additions

/-! ### Builders -/

/-- The state of a validator, with the number of the next identity. -/
structure BaseValidator (μ φ σ ν : Type) where
  rules : List (Rule μ φ σ ν) := []
  ignoredConceptRules : List String := []
  next : ℕ := 0

/-- A builder for one member. -/
structure RuleBuilder (μ φ σ ν : Type) where
  path : List String
  last : Option (Rule μ φ σ ν) := none
  chain : List (Rule μ φ σ ν) := []

inductive ApplyConditionTo
  | allValidators
  | currentValidator
  deriving DecidableEq, Repr

section Builders

variable {μ φ σ ν : Type}

/-- Find the old value by its identity and put the new one in its place. -/
def BaseValidator.replace (validator : BaseValidator μ φ σ ν) (old replacement : Rule μ φ σ ν) :
    Except String (BaseValidator μ φ σ ν) :=
  if validator.rules.findIdx (fun rule => rule.identity = old.identity) < validator.rules.length
  then .ok { validator with
    rules := validator.rules.set
      (validator.rules.findIdx fun rule => rule.identity = old.identity) replacement
    next := validator.next + 1 }
  else .error "Rule is no longer registered"

namespace RuleBuilder

def add (above : ν → ν → Bool) (builder : RuleBuilder μ φ σ ν)
    (validator : BaseValidator μ φ σ ν) (addition : Addition ν) :
    Except String (RuleBuilder μ φ σ ν × BaseValidator μ φ σ ν) :=
  if addition.isInvalid above then
    .error ("Invalid validation rule arguments: " ++ addition.kind)
  else
    let rule : Rule μ φ σ ν := {
      identity := validator.next
      path := builder.path
      kind := addition.kind
      args := addition.args
      clientSafe := addition.safe }
    .ok ({ builder with chain := builder.chain ++ [rule], last := some rule },
      { validator with rules := validator.rules ++ [rule], next := validator.next + 1 })

/-- A rule is required before its options. -/
def change (builder : RuleBuilder μ φ σ ν) (validator : BaseValidator μ φ σ ν)
    (values : Rule μ φ σ ν → Rule μ φ σ ν) :
    Except String (RuleBuilder μ φ σ ν × BaseValidator μ φ σ ν) :=
  match builder.last with
  | none => .error "A rule is required before its options"
  | some last => do
      let next := { values last with identity := validator.next }
      let validator ← validator.replace last next
      .ok ({ builder with
        chain := builder.chain.set (builder.chain.length - 1) next
        last := some next }, validator)

/-- `async model => await condition(model) && await predicate(model)` -/
def both (condition predicate : Predicate μ) : Predicate μ := fun model => do
  if ← condition model then predicate model else .ok false

/-- The rule under one more condition. -/
def conditioned (predicate : Predicate μ) (rule : Rule μ φ σ ν) : Rule μ φ σ ν :=
  { rule with
    condition := some (match rule.condition with
      | some condition => both condition predicate
      | none => predicate)
    clientSafe := false }

/-- The loop over the selected rules, which are the last ones of the chain. -/
def replaceEach (values : Rule μ φ σ ν → Rule μ φ σ ν) :
    List (Rule μ φ σ ν) → BaseValidator μ φ σ ν →
      Except String (List (Rule μ φ σ ν) × BaseValidator μ φ σ ν)
  | [], validator => .ok ([], validator)
  | rule :: rest, validator => do
      let next := { values rule with identity := validator.next }
      let validator ← validator.replace rule next
      let (replaced, validator) ← replaceEach values rest validator
      .ok (next :: replaced, validator)

/-- The rules of the chain before the selected ones. -/
def kept (builder : RuleBuilder μ φ σ ν) : ApplyConditionTo → List (Rule μ φ σ ν)
  | .allValidators => []
  | .currentValidator => builder.chain.dropLast

def selected (builder : RuleBuilder μ φ σ ν) : ApplyConditionTo → List (Rule μ φ σ ν)
  | .allValidators => builder.chain
  | .currentValidator => builder.chain.getLast?.toList

/-- Apply a condition to all rules in this chain, or only the latest rule. -/
def when (builder : RuleBuilder μ φ σ ν) (validator : BaseValidator μ φ σ ν)
    (predicate : Predicate μ) (applyTo : ApplyConditionTo) :
    Except String (RuleBuilder μ φ σ ν × BaseValidator μ φ σ ν) :=
  match builder.last with
  | none => .error "A rule is required before its options"
  | some _ => do
      let (replaced, validator) ←
        replaceEach (conditioned predicate) (builder.selected applyTo) validator
      let chain := builder.kept applyTo ++ replaced
      .ok ({ builder with chain := chain, last := chain.getLast? }, validator)

/-- Apply the inverse of a condition using the same chain selection as `when`. -/
def unless' (builder : RuleBuilder μ φ σ ν) (validator : BaseValidator μ φ σ ν)
    (predicate : Predicate μ) (applyTo : ApplyConditionTo) :
    Except String (RuleBuilder μ φ σ ν × BaseValidator μ φ σ ν) :=
  builder.when validator (fun model => (predicate model).map not) applyTo

/-- Supply a failure message for the latest rule. -/
def withMessage (builder : RuleBuilder μ φ σ ν) (validator : BaseValidator μ φ σ ν)
    (message : Message φ) : Except String (RuleBuilder μ φ σ ν × BaseValidator μ φ σ ν) :=
  builder.change validator fun last =>
    { last with
      message := some message
      clientSafe := last.clientSafe && (match message with
        | .text _ => true
        | .function _ => false) }

/-- Set the latest rule's failure severity. -/
def withSeverity (builder : RuleBuilder μ φ σ ν) (validator : BaseValidator μ φ σ ν)
    (severity : Severity) : Except String (RuleBuilder μ φ σ ν × BaseValidator μ φ σ ν) :=
  builder.change validator fun last =>
    { last with
      severity := severity
      clientSafe := last.clientSafe && severity == .error }

/-- Attach custom state to a failure from the latest rule. -/
def withState (builder : RuleBuilder μ φ σ ν) (validator : BaseValidator μ φ σ ν)
    (state : σ) : Except String (RuleBuilder μ φ σ ν × BaseValidator μ φ σ ν) :=
  builder.change validator fun last => { last with state := some state, clientSafe := false }

/-- Skip the concept validator for this direct member only. -/
def ignoreConceptRules (builder : RuleBuilder μ φ σ ν) (validator : BaseValidator μ φ σ ν) :
    Except String (RuleBuilder μ φ σ ν × BaseValidator μ φ σ ν) :=
  match builder.path with
  | [name] => .ok (builder, { validator with
      ignoredConceptRules := validator.ignoredConceptRules.insert name })
  | _ => .error "Only direct concept members can ignore concept rules"

/-- A method that adds a rule, and the message it may supply. -/
def addMethod (above : ν → ν → Bool) (builder : RuleBuilder μ φ σ ν)
    (validator : BaseValidator μ φ σ ν) (method : Method ν) :
    Except String (RuleBuilder μ φ σ ν × BaseValidator μ φ σ ν) := do
  let (builder, validator) ← builder.add above validator method.addition
  match method.errorMessage with
  | none => .ok (builder, validator)
  | some message => builder.withMessage validator (.text message)

end RuleBuilder

/-! ### Interleaved calls -/

/-- A call on a builder. -/
inductive BuilderCall (μ φ σ ν : Type)
  | add (method : Method ν)
  | when (predicate : Predicate μ) (applyTo : ApplyConditionTo)
  | unless' (predicate : Predicate μ) (applyTo : ApplyConditionTo)
  | withMessage (message : Message φ)
  | withSeverity (severity : Severity)
  | withState (state : σ)
  | ignoreConceptRules

/-- A member is selected, or a builder, known by the position of its selection, is called. -/
inductive BuildEvent (μ φ σ ν : Type)
  | ruleFor (path : List String)
  | call (builder : ℕ) (call : BuilderCall μ φ σ ν)

def RuleBuilder.perform (above : ν → ν → Bool) (builder : RuleBuilder μ φ σ ν)
    (validator : BaseValidator μ φ σ ν) : BuilderCall μ φ σ ν →
      Except String (RuleBuilder μ φ σ ν × BaseValidator μ φ σ ν)
  | .add method => builder.addMethod above validator method
  | .when predicate applyTo => builder.when validator predicate applyTo
  | .unless' predicate applyTo => builder.unless' validator predicate applyTo
  | .withMessage message => builder.withMessage validator message
  | .withSeverity severity => builder.withSeverity validator severity
  | .withState state => builder.withState validator state
  | .ignoreConceptRules => builder.ignoreConceptRules validator

/-- A validator with the builders that were handed out. -/
structure Registration (μ φ σ ν : Type) where
  validator : BaseValidator μ φ σ ν := {}
  builders : List (RuleBuilder μ φ σ ν) := []

/-- One event; a call that throws leaves everything as it was. -/
def Registration.step (above : ν → ν → Bool) (registration : Registration μ φ σ ν) :
    BuildEvent μ φ σ ν → Registration μ φ σ ν
  | .ruleFor path =>
      { registration with builders := registration.builders ++ [{ path := path }] }
  | .call index call =>
      match registration.builders[index]? with
      | none => registration
      | some builder =>
          match builder.perform above registration.validator call with
          | .error _ => registration
          | .ok (builder, validator) =>
              { validator := validator, builders := registration.builders.set index builder }

def Registration.run (above : ν → ν → Bool) (events : List (BuildEvent μ φ σ ν)) :
    Registration μ φ σ ν :=
  events.foldl (Registration.step above) {}

end Builders

end Arc.Validation
