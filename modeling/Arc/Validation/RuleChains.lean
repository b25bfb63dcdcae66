import Mathlib.Data.List.Induction
import Mathlib.Data.List.Nodup
import Arc.Validation.RuleBuilder

/-!
# The reference semantics of rule building

A reference rule says which chain added it, what was added, and what was attached to it
since; its message, its severity, its state, its conditions and whether a client may
interpret it are read off that. A call attaches to the last rule of its own chain, or a
condition to all of them, and that is all a call does: no identities, no second copies.

`Refines` pairs the rules of a validator with the reference ones. A replacement by identity
hits one pair, so whole loops of replacements are maps over the pairs.
-/

namespace Arc.Validation

variable {μ φ σ ν : Type}

/-! ### Reference rules -/

/-- What a call attaches to a rule. -/
inductive Attachment (μ φ σ : Type)
  | condition (predicate : Predicate μ)
  | message (message : Message φ)
  | severity (severity : Severity)
  | state (state : σ)

namespace Attachment

def condition? : Attachment μ φ σ → Option (Predicate μ)
  | condition predicate => some predicate
  | _ => none

def message? : Attachment μ φ σ → Option (Message φ)
  | message text => some text
  | _ => none

def severity? : Attachment μ φ σ → Option Severity
  | severity level => some level
  | _ => none

def state? : Attachment μ φ σ → Option σ
  | state custom => some custom
  | _ => none

/-- No condition, custom state, function message or severity other than `error`. -/
def isClientSafe : Attachment μ φ σ → Bool
  | message (.text _) => true
  | severity level => level == .error
  | _ => false

end Attachment

/-- A rule with the chain that added it, and what was attached to it in order. -/
structure ReferenceRule (μ φ σ ν : Type) where
  chain : ℕ
  path : List String
  addition : Addition ν
  attached : List (Attachment μ φ σ) := []

/-- What an evaluator or a client reads of a rule. -/
structure Descriptor (μ φ σ ν : Type) where
  path : List String
  kind : String
  args : List (Argument ν)
  message : Option (Message φ)
  severity : Severity
  state : Option σ
  applies : Predicate μ
  clientSafe : Bool

/-- All predicates hold, asked in order up to the first that does not. -/
def allHold : List (Predicate μ) → Predicate μ
  | [] => fun _ => .ok true
  | predicate :: rest => fun model => do
      if ← predicate model then allHold rest model else .ok false

/-- An argument of a comparison that a client can compare with. -/
def Argument.isSafeNumber : Argument ν → Bool
  | .number (.finite bound) => decide (|bound| ≤ Number.maxSafe)
  | _ => false

/-- A regular expression without flags. -/
def Argument.isPlainPattern : Argument ν → Bool
  | .pattern _ flags => flags.isEmpty
  | _ => false

/-- The kinds a client can interpret, with arguments it can represent. -/
def Addition.isRepresentable (addition : Addition ν) : Bool :=
  if addition.kind = "matches" then addition.args.all Argument.isPlainPattern
  else if addition.kind ∈ ["greaterThan", "greaterThanOrEqual", "lessThan", "lessThanOrEqual"] then
    addition.args.all Argument.isSafeNumber
  else addition.kind ∈
    ["notNull", "notEmpty", "minLength", "maxLength", "length", "emailAddress", "phone", "url"]

namespace ReferenceRule

def attach (attachment : Attachment μ φ σ) (rule : ReferenceRule μ φ σ ν) :
    ReferenceRule μ φ σ ν :=
  { rule with attached := rule.attached ++ [attachment] }

def descriptor (rule : ReferenceRule μ φ σ ν) : Descriptor μ φ σ ν where
  path := rule.path
  kind := rule.addition.kind
  args := rule.addition.args
  message := (rule.attached.filterMap Attachment.message?).getLast?
  severity := (rule.attached.filterMap Attachment.severity?).getLast?.getD .error
  state := (rule.attached.filterMap Attachment.state?).getLast?
  applies := allHold (rule.attached.filterMap Attachment.condition?)
  clientSafe := rule.addition.isRepresentable && rule.attached.all Attachment.isClientSafe

end ReferenceRule

/-- Attach to every rule of a chain. -/
def attachAll (chain : ℕ) (attachment : Attachment μ φ σ) (rules : List (ReferenceRule μ φ σ ν)) :
    List (ReferenceRule μ φ σ ν) :=
  rules.map fun rule => if rule.chain = chain then rule.attach attachment else rule

/-- Attach to the last rule of a chain, if it has one. -/
def attachLast (chain : ℕ) (attachment : Attachment μ φ σ) :
    List (ReferenceRule μ φ σ ν) → List (ReferenceRule μ φ σ ν)
  | [] => []
  | rule :: rest =>
      if rest.any (fun other => other.chain = chain) then
        rule :: attachLast chain attachment rest
      else if rule.chain = chain then rule.attach attachment :: rest
      else rule :: rest

def attachTo (chain : ℕ) (attachment : Attachment μ φ σ) :
    ApplyConditionTo → List (ReferenceRule μ φ σ ν) → List (ReferenceRule μ φ σ ν)
  | .allValidators => attachAll chain attachment
  | .currentValidator => attachLast chain attachment

/-- The rules of a validator as the reference has them, and the paths of the builders. -/
structure Reference (μ φ σ ν : Type) where
  paths : List (List String) := []
  rules : List (ReferenceRule μ φ σ ν) := []

namespace Reference

def perform (above : ν → ν → Bool) (reference : Reference μ φ σ ν) (chain : ℕ)
    (path : List String) : BuilderCall μ φ σ ν → List (ReferenceRule μ φ σ ν)
  | .add method =>
      if method.addition.isInvalid above then reference.rules
      else reference.rules ++ [{
        chain := chain
        path := path
        addition := method.addition
        attached := method.errorMessage.toList.map fun text => .message (.text text) }]
  | .when predicate applyTo => attachTo chain (.condition predicate) applyTo reference.rules
  | .unless' predicate applyTo =>
      attachTo chain (.condition fun model => (predicate model).map not) applyTo reference.rules
  | .withMessage message => attachLast chain (.message message) reference.rules
  | .withSeverity severity => attachLast chain (.severity severity) reference.rules
  | .withState state => attachLast chain (.state state) reference.rules
  | .ignoreConceptRules => reference.rules

def step (above : ν → ν → Bool) (reference : Reference μ φ σ ν) :
    BuildEvent μ φ σ ν → Reference μ φ σ ν
  | .ruleFor path => { reference with paths := reference.paths ++ [path] }
  | .call chain call =>
      match reference.paths[chain]? with
      | none => reference
      | some path => { reference with rules := reference.perform above chain path call }

def run (above : ν → ν → Bool) (events : List (BuildEvent μ φ σ ν)) : Reference μ φ σ ν :=
  events.foldl (step above) {}

end Reference

/-! ### Descriptors -/

/-- What is read of a rule; one without a condition always applies. -/
def Rule.descriptor (rule : Rule μ φ σ ν) : Descriptor μ φ σ ν where
  path := rule.path
  kind := rule.kind
  args := rule.args
  message := rule.message
  severity := rule.severity
  state := rule.state
  applies := rule.condition.getD fun _ => .ok true
  clientSafe := rule.clientSafe

theorem allHold_append (conditions : List (Predicate μ)) (predicate : Predicate μ) :
    allHold (conditions ++ [predicate]) = RuleBuilder.both (allHold conditions) predicate := by
  funext model
  induction conditions with
  | nil =>
      change (predicate model >>= _) = predicate model
      cases predicate model with
      | error error => rfl
      | ok holds =>
          cases holds with
          | true => rfl
          | false => rfl
  | cons first rest ih =>
      change (first model >>= _) = ((first model >>= _) >>= _)
      cases first model with
      | error error => rfl
      | ok holds =>
          cases holds with
          | true => exact ih
          | false => rfl

/-- A function that changes a rule the way an attachment changes what is read of it. -/
def Realizes (attachment : Attachment μ φ σ) (values : Rule μ φ σ ν → Rule μ φ σ ν) : Prop :=
  ∀ (rule : Rule μ φ σ ν) (reference : ReferenceRule μ φ σ ν),
    rule.descriptor = reference.descriptor →
      (values rule).descriptor = (reference.attach attachment).descriptor

/-- What is read of a reference rule after one more attachment. -/
theorem descriptor_attach (attachment : Attachment μ φ σ) (rule : ReferenceRule μ φ σ ν) :
    (rule.attach attachment).descriptor =
      { rule.descriptor with
        message := attachment.message?.or rule.descriptor.message
        severity := attachment.severity?.getD rule.descriptor.severity
        state := attachment.state?.or rule.descriptor.state
        applies := match attachment.condition? with
          | some predicate => RuleBuilder.both rule.descriptor.applies predicate
          | none => rule.descriptor.applies
        clientSafe := rule.descriptor.clientSafe && attachment.isClientSafe } := by
  cases attachment with
  | condition predicate =>
      simp [ReferenceRule.attach, ReferenceRule.descriptor, Attachment.message?,
        Attachment.severity?, Attachment.state?, Attachment.condition?, List.filterMap_cons,
        Bool.and_assoc, allHold_append]
  | message message =>
      simp [ReferenceRule.attach, ReferenceRule.descriptor, Attachment.message?,
        Attachment.severity?, Attachment.state?, Attachment.condition?, List.filterMap_cons,
        Bool.and_assoc]
  | severity level =>
      simp [ReferenceRule.attach, ReferenceRule.descriptor, Attachment.message?,
        Attachment.severity?, Attachment.state?, Attachment.condition?, List.filterMap_cons,
        Bool.and_assoc]
  | state custom =>
      simp [ReferenceRule.attach, ReferenceRule.descriptor, Attachment.message?,
        Attachment.severity?, Attachment.state?, Attachment.condition?, List.filterMap_cons,
        Bool.and_assoc]

theorem realizes_conditioned (predicate : Predicate μ) :
    Realizes (.condition predicate)
      (RuleBuilder.conditioned predicate : Rule μ φ σ ν → Rule μ φ σ ν) := by
  intro rule reference h
  rw [descriptor_attach, ← h]
  have happlies : (RuleBuilder.conditioned predicate rule).condition.getD (fun _ => .ok true) =
      RuleBuilder.both (rule.condition.getD fun _ => .ok true) predicate := by
    unfold RuleBuilder.conditioned
    cases rule.condition with
    | some condition => rfl
    | none => rfl
  simp only [Rule.descriptor, happlies, Attachment.message?, Attachment.severity?,
    Attachment.state?, Attachment.condition?, Attachment.isClientSafe, Option.none_or,
    Option.getD_none, Bool.and_false]
  rfl

theorem realizes_message (message : Message φ) :
    Realizes (.message message) fun last : Rule μ φ σ ν =>
      { last with
        message := some message
        clientSafe := last.clientSafe && (match message with
          | .text _ => true
          | .function _ => false) } := by
  intro rule reference h
  rw [descriptor_attach, ← h]
  cases message with
  | text text => rfl
  | function compute => rfl

theorem realizes_severity (severity : Severity) :
    Realizes (.severity severity) fun last : Rule μ φ σ ν =>
      { last with severity := severity, clientSafe := last.clientSafe && severity == .error } := by
  intro rule reference h
  rw [descriptor_attach, ← h]
  rfl

theorem realizes_state (state : σ) :
    Realizes (.state state) fun last : Rule μ φ σ ν =>
      { last with state := some state, clientSafe := false } := by
  intro rule reference h
  rw [descriptor_attach, ← h]
  simp only [Rule.descriptor, Attachment.message?, Attachment.severity?, Attachment.state?,
    Attachment.condition?, Attachment.isClientSafe, Option.none_or, Option.getD_none,
    Option.some_or, Bool.and_false]

theorem isSafeNumber_eq (value : Argument ν) : value.isSafeNumber = safeNumber value := by
  cases value with
  | number number =>
      cases number with
      | nan => rfl
      | infinite negative => rfl
      | finite bound => rfl
  | pattern source flags => rfl
  | value value => rfl

/-- Every method that adds a rule knows whether a client can represent it. -/
theorem safe_eq_isRepresentable (method : Method ν) :
    method.addition.safe = method.addition.isRepresentable := by
  cases method with
  | matches' source flags errorMessage =>
      simp only [Method.addition, matches', Addition.isRepresentable, if_true, List.all_cons,
        List.all_nil, Bool.and_true, Argument.isPlainPattern]
      cases hempty : flags.isEmpty with
      | false => rw [Bool.and_false]
      | true =>
          rw [String.isEmpty_iff.1 hempty]
          simp
  | greaterThan value =>
      simp [Method.addition, greaterThan, bounded, Addition.isRepresentable, isSafeNumber_eq]
  | greaterThanOrEqual value =>
      simp [Method.addition, greaterThanOrEqual, bounded, Addition.isRepresentable, isSafeNumber_eq]
  | lessThan value =>
      simp [Method.addition, lessThan, bounded, Addition.isRepresentable, isSafeNumber_eq]
  | lessThanOrEqual value =>
      simp [Method.addition, lessThanOrEqual, bounded, Addition.isRepresentable, isSafeNumber_eq]
  | _ => rfl

/-! ### Replacements -/

/-- A rule of the validator with the reference rule it stands for. -/
abbrev RulePair (μ φ σ ν : Type) := Rule μ φ σ ν × ReferenceRule μ φ σ ν

/-- The rules of one chain, in the order they were added. -/
def chainOf (chain : ℕ) (pairs : List (RulePair μ φ σ ν)) : List (Rule μ φ σ ν) :=
  (pairs.filter fun pair => pair.2.chain = chain).map Prod.fst

/-- The rules of a validator and their references. -/
structure Paired (validator : BaseValidator μ φ σ ν) (pairs : List (RulePair μ φ σ ν)) :
    Prop where
  rules : validator.rules = pairs.map Prod.fst
  represents : ∀ pair ∈ pairs, pair.1.descriptor = pair.2.descriptor
  nodup : (pairs.map fun pair => pair.1.identity).Nodup
  fresh : ∀ pair ∈ pairs, pair.1.identity < validator.next

/-- The pairs after the rules with the given identities were replaced. -/
def replacedPairs (attachment : Attachment μ φ σ) (replacement : Rule μ φ σ ν → Rule μ φ σ ν)
    (identities : List ℕ) (pairs : List (RulePair μ φ σ ν)) : List (RulePair μ φ σ ν) :=
  pairs.map fun pair =>
    if pair.1.identity ∈ identities then (replacement pair.1, pair.2.attach attachment) else pair

/-- Setting the entry of an identity changes that entry alone. -/
theorem set_findIdx_eq_map {rules : List (Rule μ φ σ ν)} {identity : ℕ}
    (hnodup : (rules.map (·.identity)).Nodup) (replacement : Rule μ φ σ ν) :
    rules.set (rules.findIdx fun rule => rule.identity = identity) replacement =
      rules.map fun rule => if rule.identity = identity then replacement else rule := by
  induction rules with
  | nil => rfl
  | cons first rest ih =>
      rw [List.map_cons, List.nodup_cons] at hnodup
      rw [List.findIdx_cons, List.map_cons]
      by_cases hfirst : first.identity = identity
      · have hrest : (rest.map fun rule => if rule.identity = identity then replacement else rule) =
            rest := by
          refine (List.map_congr_left fun rule hrule => ?_).trans (List.map_id rest)
          refine if_neg fun heq => hnodup.1 ?_
          rw [hfirst, ← heq]
          exact List.mem_map_of_mem hrule
        simp [hfirst, hrest]
      · simp [hfirst, ih hnodup.2]

theorem replace_eq_ok {validator : BaseValidator μ φ σ ν} {pairs : List (RulePair μ φ σ ν)}
    (hpaired : Paired validator pairs) {old : Rule μ φ σ ν} (hold : old ∈ pairs.map Prod.fst)
    (replacement : Rule μ φ σ ν) :
    validator.replace old replacement = .ok { validator with
      rules := validator.rules.map fun rule =>
        if rule.identity = old.identity then replacement else rule
      next := validator.next + 1 } := by
  have hnodup : (validator.rules.map (·.identity)).Nodup := by
    rw [hpaired.rules, List.map_map]
    exact hpaired.nodup
  have hfound : validator.rules.findIdx (fun rule => rule.identity = old.identity) <
      validator.rules.length := by
    refine List.findIdx_lt_length_of_exists ⟨old, ?_, by simp⟩
    rw [hpaired.rules]
    exact hold
  rw [BaseValidator.replace, if_pos hfound, set_findIdx_eq_map hnodup]

/-- A rule and a pair of one identity belong together. -/
theorem Paired.eq_of_identity {validator : BaseValidator μ φ σ ν}
    {pairs : List (RulePair μ φ σ ν)} (hpaired : Paired validator pairs) {old : Rule μ φ σ ν}
    (hold : old ∈ pairs.map Prod.fst) {pair : RulePair μ φ σ ν} (hpair : pair ∈ pairs)
    (heq : pair.1.identity = old.identity) : pair.1 = old := by
  obtain ⟨other, hother, rfl⟩ := List.mem_map.1 hold
  exact congrArg Prod.fst (List.inj_on_of_nodup_map hpaired.nodup hpair hother heq)

/-- One replacement by a new rule that realizes an attachment. -/
theorem paired_replace {validator : BaseValidator μ φ σ ν} {pairs : List (RulePair μ φ σ ν)}
    (hpaired : Paired validator pairs) {attachment : Attachment μ φ σ}
    {values : Rule μ φ σ ν → Rule μ φ σ ν} (hvalues : Realizes attachment values)
    {old : Rule μ φ σ ν} (hold : old ∈ pairs.map Prod.fst) :
    Paired { validator with
        rules := validator.rules.map fun rule =>
          if rule.identity = old.identity then { values old with identity := validator.next }
          else rule
        next := validator.next + 1 }
      (replacedPairs attachment (fun _ => { values old with identity := validator.next })
        [old.identity] pairs) := by
  have hmem : ∀ {pair : RulePair μ φ σ ν}, pair.1.identity ∈ [old.identity] ↔
      pair.1.identity = old.identity := List.mem_singleton
  refine ⟨?_, ?_, ?_, ?_⟩
  · simp only [replacedPairs, hpaired.rules, List.map_map]
    refine List.map_congr_left fun pair _ => ?_
    simp only [Function.comp_apply, hmem]
    split_ifs
    · rfl
    · rfl
  · intro pair hpair
    obtain ⟨original, horiginal, rfl⟩ := List.mem_map.1 hpair
    simp only [hmem]
    split_ifs with heq
    · have hsame := hpaired.eq_of_identity hold horiginal heq
      refine hvalues old original.2 ?_
      rw [← hsame]
      exact hpaired.represents original horiginal
    · exact hpaired.represents original horiginal
  · have hidentities : ((replacedPairs attachment
        (fun _ => { values old with identity := validator.next }) [old.identity] pairs).map
          fun pair => pair.1.identity) = (pairs.map fun pair => pair.1.identity).map
            fun identity => if identity = old.identity then validator.next else identity := by
      simp only [replacedPairs, List.map_map]
      refine List.map_congr_left fun pair _ => ?_
      simp only [Function.comp_apply, hmem]
      split_ifs
      · rfl
      · rfl
    rw [hidentities]
    refine List.Nodup.map_on ?_ hpaired.nodup
    intro first hfirst second hsecond heq
    obtain ⟨pair, hpair, rfl⟩ := List.mem_map.1 hfirst
    obtain ⟨other, hother, rfl⟩ := List.mem_map.1 hsecond
    have hpairFresh := hpaired.fresh pair hpair
    have hotherFresh := hpaired.fresh other hother
    split_ifs at heq with h₁ h₂ h₃
    · exact h₁.trans h₂.symm
    · omega
    · omega
    · exact heq
  · intro pair hpair
    obtain ⟨original, horiginal, rfl⟩ := List.mem_map.1 hpair
    have hfresh := hpaired.fresh original horiginal
    simp only [hmem]
    split_ifs
    · exact Nat.lt_succ_self _
    · exact Nat.lt_succ_of_lt hfresh

/-- Replacing one rule and then others that do not have its new identity replaces all of them
at once. -/
theorem replacedPairs_cons (attachment : Attachment μ φ σ)
    (replacement : Rule μ φ σ ν → Rule μ φ σ ν) (old first : Rule μ φ σ ν)
    {rest : List (Rule μ φ σ ν)} (hnew : first.identity ∉ rest.map (·.identity))
    (pairs : List (RulePair μ φ σ ν)) :
    replacedPairs attachment replacement (rest.map (·.identity))
        (replacedPairs attachment (fun _ => first) [old.identity] pairs) =
      replacedPairs attachment
        (fun rule => if rule.identity = old.identity then first else replacement rule)
        ((old :: rest).map (·.identity)) pairs := by
  simp only [replacedPairs, List.map_map]
  refine List.map_congr_left fun pair _ => ?_
  by_cases heq : pair.1.identity = old.identity
  · have hcons : pair.1.identity ∈ (old :: rest).map (·.identity) := by
      rw [heq]
      exact List.mem_cons_self
    have hmem : pair.1.identity ∈ [old.identity] := by
      rw [heq]
      exact List.mem_cons_self
    simp only [Function.comp_apply]
    rw [if_pos hcons, if_pos heq, if_pos hmem]
    exact if_neg hnew
  · have hmem : pair.1.identity ∉ [old.identity] := fun hmem =>
      heq (List.mem_singleton.1 hmem)
    have hcons : pair.1.identity ∈ (old :: rest).map (·.identity) ↔
        pair.1.identity ∈ rest.map (·.identity) := by
      rw [List.map_cons, List.mem_cons]
      exact or_iff_right heq
    simp only [Function.comp_apply]
    rw [if_neg hmem, if_neg heq]
    simp only [hcons]

/-- The loop over a selection replaces the pairs of the selection. -/
theorem replaceEach_eq_ok {attachment : Attachment μ φ σ}
    {values : Rule μ φ σ ν → Rule μ φ σ ν} (hvalues : Realizes attachment values)
    (selected : List (Rule μ φ σ ν)) {validator : BaseValidator μ φ σ ν}
    {pairs : List (RulePair μ φ σ ν)} (hpaired : Paired validator pairs)
    (hselected : ∀ rule ∈ selected, rule ∈ pairs.map Prod.fst)
    (hnodup : (selected.map (·.identity)).Nodup) :
    ∃ (replacement : Rule μ φ σ ν → Rule μ φ σ ν) (next : BaseValidator μ φ σ ν),
      RuleBuilder.replaceEach values selected validator = .ok (selected.map replacement, next) ∧
      next.ignoredConceptRules = validator.ignoredConceptRules ∧
      Paired next (replacedPairs attachment replacement (selected.map (·.identity)) pairs) := by
  induction selected generalizing validator pairs with
  | nil =>
      refine ⟨id, validator, rfl, rfl, ?_⟩
      have hsame : replacedPairs attachment id (([] : List (Rule μ φ σ ν)).map (·.identity)) pairs =
          pairs := by
        simp [replacedPairs]
      rw [hsame]
      exact hpaired
  | cons old rest ih =>
      rw [List.map_cons, List.nodup_cons] at hnodup
      have hold := hselected old List.mem_cons_self
      have hnext := paired_replace hpaired hvalues hold
      have hrest : ∀ rule ∈ rest, rule ∈ (replacedPairs attachment
          (fun _ => { values old with identity := validator.next }) [old.identity] pairs).map
            Prod.fst := by
        intro rule hrule
        obtain ⟨pair, hpair, rfl⟩ := List.mem_map.1 (hselected rule (List.mem_cons_of_mem _ hrule))
        refine List.mem_map.2 ⟨pair, List.mem_map.2 ⟨pair, hpair, if_neg ?_⟩, rfl⟩
        intro hmem
        refine hnodup.1 ?_
        rw [← List.mem_singleton.1 hmem]
        exact List.mem_map_of_mem hrule
      obtain ⟨replacement, ended, hended, hignored, hpairs⟩ := ih hnext hrest hnodup.2
      refine ⟨fun rule => if rule.identity = old.identity then
        { values old with identity := validator.next } else replacement rule, ended, ?_,
        hignored, ?_⟩
      · have hmap : rest.map (fun rule => if rule.identity = old.identity then
            { values old with identity := validator.next } else replacement rule) =
            rest.map replacement := by
          refine List.map_congr_left fun rule hrule => if_neg fun heq => hnodup.1 ?_
          rw [← heq]
          exact List.mem_map_of_mem hrule
        rw [RuleBuilder.replaceEach, List.map_cons, if_pos rfl, hmap]
        simp only [replace_eq_ok hpaired hold]
        change (RuleBuilder.replaceEach values rest _ >>= _) = _
        rw [hended]
        rfl
      · have hnew : validator.next ∉ rest.map (·.identity) := by
          intro hmem
          obtain ⟨rule, hrule, heq⟩ := List.mem_map.1 hmem
          obtain ⟨other, hother, rfl⟩ :=
            List.mem_map.1 (hselected rule (List.mem_cons_of_mem _ hrule))
          have hfresh := hpaired.fresh other hother
          omega
        have hpair := replacedPairs_cons attachment replacement old
          { values old with identity := validator.next } hnew pairs
        rw [← hpair]
        exact hpairs

/-! ### The relation between the two levels -/

/-- A validator with its builders stands for a reference. -/
structure Refines (registration : Registration μ φ σ ν) (reference : Reference μ φ σ ν)
    (pairs : List (RulePair μ φ σ ν)) : Prop where
  paired : Paired registration.validator pairs
  rules : reference.rules = pairs.map Prod.snd
  paths : registration.builders.map (·.path) = reference.paths
  chain : ∀ index builder, registration.builders[index]? = some builder →
    builder.chain = chainOf index pairs
  last : ∀ builder ∈ registration.builders, builder.last = builder.chain.getLast?
  chains : ∀ pair ∈ pairs, pair.2.chain < registration.builders.length

theorem chainOf_cons (index : ℕ) (pair : RulePair μ φ σ ν) (rest : List (RulePair μ φ σ ν)) :
    chainOf index (pair :: rest) =
      (if pair.2.chain = index then [pair.1] else []) ++ chainOf index rest := by
  unfold chainOf
  by_cases hpair : pair.2.chain = index
  · simp [hpair]
  · simp [hpair]

/-- A selection of one chain leaves the other chains alone. -/
theorem chainOf_replacedPairs {attachment : Attachment μ φ σ}
    {replacement : Rule μ φ σ ν → Rule μ φ σ ν} {identities : List ℕ}
    {pairs : List (RulePair μ φ σ ν)} (index : ℕ) :
    chainOf index (replacedPairs attachment replacement identities pairs) =
      (chainOf index pairs).map fun rule =>
        if rule.identity ∈ identities then replacement rule else rule := by
  induction pairs with
  | nil => rfl
  | cons pair rest ih =>
      have hcons : replacedPairs attachment replacement identities (pair :: rest) =
          (if pair.1.identity ∈ identities then
            (replacement pair.1, pair.2.attach attachment) else pair) ::
            replacedPairs attachment replacement identities rest := rfl
      rw [hcons, chainOf_cons, chainOf_cons, ih, List.map_append]
      by_cases hmem : pair.1.identity ∈ identities
      · by_cases hindex : pair.2.chain = index
        · simp [hmem, hindex, ReferenceRule.attach]
        · simp [hmem, hindex, ReferenceRule.attach]
      · by_cases hindex : pair.2.chain = index
        · simp [hmem, hindex]
        · simp [hmem, hindex]

/-- A rule of one chain is of no other. -/
theorem Paired.not_mem_chainOf {validator : BaseValidator μ φ σ ν}
    {pairs : List (RulePair μ φ σ ν)} (hpaired : Paired validator pairs) {index other : ℕ}
    (hne : other ≠ index) {rule old : Rule μ φ σ ν} (hrule : rule ∈ chainOf other pairs)
    (hold : old ∈ chainOf index pairs) : rule.identity ≠ old.identity := by
  obtain ⟨pair, hpair, rfl⟩ := List.mem_map.1 hrule
  obtain ⟨pair', hpair', rfl⟩ := List.mem_map.1 hold
  rw [List.mem_filter, decide_eq_true_iff] at hpair hpair'
  intro heq
  have hsame := List.inj_on_of_nodup_map hpaired.nodup hpair.1 hpair'.1 heq
  rw [hsame] at hpair
  exact hne (hpair.2.symm.trans hpair'.2)

theorem Paired.nodup_chainOf {validator : BaseValidator μ φ σ ν}
    {pairs : List (RulePair μ φ σ ν)} (hpaired : Paired validator pairs) (index : ℕ) :
    ((chainOf index pairs).map (·.identity)).Nodup := by
  have hsub : ((chainOf index pairs).map (·.identity)).Sublist
      (pairs.map fun pair => pair.1.identity) := by
    rw [chainOf, List.map_map]
    exact (List.filter_sublist).map _
  exact hsub.nodup hpaired.nodup

theorem mem_of_mem_chainOf {index : ℕ} {pairs : List (RulePair μ φ σ ν)} {rule : Rule μ φ σ ν}
    (h : rule ∈ chainOf index pairs) : rule ∈ pairs.map Prod.fst := by
  obtain ⟨pair, hpair, rfl⟩ := List.mem_map.1 h
  exact List.mem_map_of_mem (List.mem_filter.1 hpair).1

theorem snd_replacedPairs_chain (attachment : Attachment μ φ σ)
    (replacement : Rule μ φ σ ν → Rule μ φ σ ν) {identities : List ℕ}
    (pairs : List (RulePair μ φ σ ν)) :
    (replacedPairs attachment replacement identities pairs).map (fun pair => pair.2.chain) =
      pairs.map fun pair => pair.2.chain := by
  rw [replacedPairs, List.map_map]
  refine List.map_congr_left fun pair _ => ?_
  simp only [Function.comp_apply]
  split_ifs
  · rfl
  · rfl

/-- A selection at the end of a chain: the loop replaces it, and both levels keep step. -/
theorem refines_replaceEach {registration : Registration μ φ σ ν} {reference : Reference μ φ σ ν}
    {pairs : List (RulePair μ φ σ ν)} (h : Refines registration reference pairs) {index : ℕ}
    {builder : RuleBuilder μ φ σ ν} (hbuilder : registration.builders[index]? = some builder)
    {attachment : Attachment μ φ σ} {values : Rule μ φ σ ν → Rule μ φ σ ν}
    (hvalues : Realizes attachment values) {kept selected : List (Rule μ φ σ ν)}
    (hchain : builder.chain = kept ++ selected) :
    ∃ (replacement : Rule μ φ σ ν → Rule μ φ σ ν) (next : BaseValidator μ φ σ ν),
      RuleBuilder.replaceEach values selected registration.validator =
        .ok (selected.map replacement, next) ∧
      Refines
        { validator := next
          builders := registration.builders.set index { builder with
            chain := kept ++ selected.map replacement
            last := (kept ++ selected.map replacement).getLast? } }
        { reference with
          rules := (replacedPairs attachment replacement (selected.map (·.identity)) pairs).map
            Prod.snd }
        (replacedPairs attachment replacement (selected.map (·.identity)) pairs) := by
  have hof : chainOf index pairs = kept ++ selected := (h.chain index builder hbuilder).symm.trans hchain
  have hnodup := h.paired.nodup_chainOf index
  rw [hof, List.map_append] at hnodup
  have hmem : ∀ rule ∈ selected, rule ∈ chainOf index pairs := fun rule hrule => by
    rw [hof]
    exact List.mem_append_right _ hrule
  obtain ⟨replacement, next, hloop, -, hpaired⟩ := replaceEach_eq_ok hvalues selected h.paired
    (fun rule hrule => mem_of_mem_chainOf (hmem rule hrule)) (List.nodup_append.1 hnodup).2.1
  refine ⟨replacement, next, hloop, hpaired, rfl, ?_, ?_, ?_, ?_⟩
  · rw [← h.paths, List.map_set]
    have hpath : (registration.builders.map (·.path))[index]? = some builder.path := by
      rw [List.getElem?_map, hbuilder]
      rfl
    refine List.ext_getElem? fun other => ?_
    rw [List.getElem?_set]
    split_ifs with heq hlt
    · rw [← heq, hpath]
    · rw [List.getElem?_eq_none (Nat.not_lt.1 hlt)] at hpath
      cases hpath
    · rfl
  · intro other otherBuilder hother
    rw [chainOf_replacedPairs]
    rw [List.getElem?_set] at hother
    by_cases heq : index = other
    · subst heq
      have hlt : index < registration.builders.length := (List.getElem?_eq_some_iff.1 hbuilder).1
      simp only [if_true, hlt, Option.some.injEq] at hother
      subst hother
      rw [hof, List.map_append]
      have hkept : kept.map (fun rule => if rule.identity ∈ selected.map (·.identity) then
          replacement rule else rule) = kept := by
        refine (List.map_congr_left fun rule hrule => if_neg ?_).trans (List.map_id kept)
        intro hin
        exact (List.nodup_append.1 hnodup).2.2 _ (List.mem_map_of_mem hrule) _ hin rfl
      have hselected : selected.map (fun rule => if rule.identity ∈ selected.map (·.identity) then
          replacement rule else rule) = selected.map replacement :=
        List.map_congr_left fun rule hrule => if_pos (List.mem_map_of_mem hrule)
      rw [hkept, hselected]
    · rw [if_neg heq] at hother
      rw [h.chain other otherBuilder hother]
      refine ((List.map_congr_left fun rule hrule => if_neg ?_).trans (List.map_id _)).symm
      intro hin
      obtain ⟨old, hold, heqid⟩ := List.mem_map.1 hin
      exact h.paired.not_mem_chainOf (Ne.symm heq) hrule (hmem old hold) heqid.symm
  · intro otherBuilder hother
    rcases List.mem_or_eq_of_mem_set hother with hmem' | heq
    · exact h.last otherBuilder hmem'
    · rw [heq]
  · intro pair hpair
    have hchains : pair.2.chain ∈ pairs.map fun pair => pair.2.chain := by
      rw [← snd_replacedPairs_chain attachment replacement pairs]
      exact List.mem_map_of_mem hpair
    obtain ⟨original, horiginal, heq⟩ := List.mem_map.1 hchains
    rw [List.length_set, ← heq]
    exact h.chains original horiginal

/-- Replacing the rules of a chain attaches to all of them. -/
theorem snd_replacedPairs_all {validator : BaseValidator μ φ σ ν}
    {pairs : List (RulePair μ φ σ ν)} (hpaired : Paired validator pairs) (index : ℕ)
    (attachment : Attachment μ φ σ) (replacement : Rule μ φ σ ν → Rule μ φ σ ν) :
    (replacedPairs attachment replacement ((chainOf index pairs).map (·.identity)) pairs).map
      Prod.snd = attachAll index attachment (pairs.map Prod.snd) := by
  rw [replacedPairs, attachAll, List.map_map, List.map_map]
  refine List.map_congr_left fun pair hpair => ?_
  have hiff : pair.1.identity ∈ (chainOf index pairs).map (·.identity) ↔ pair.2.chain = index := by
    constructor
    · intro hmem
      obtain ⟨rule, hrule, heq⟩ := List.mem_map.1 hmem
      obtain ⟨other, hother, rfl⟩ := List.mem_map.1 hrule
      rw [List.mem_filter, decide_eq_true_iff] at hother
      rw [← List.inj_on_of_nodup_map hpaired.nodup hother.1 hpair heq]
      exact hother.2
    · intro hchain
      refine List.mem_map_of_mem (f := fun rule : Rule μ φ σ ν => rule.identity)
        (List.mem_map_of_mem (f := Prod.fst) (List.mem_filter.2 ⟨hpair, ?_⟩))
      rw [hchain]
      exact decide_eq_true rfl
  simp only [Function.comp_apply, hiff]
  split_ifs
  · rfl
  · rfl

/-- Replacing the last rule of a chain attaches to it alone. -/
theorem snd_replacedPairs_last {pairs : List (RulePair μ φ σ ν)}
    (hnodup : (pairs.map fun pair => pair.1.identity).Nodup) {index : ℕ} {last : Rule μ φ σ ν}
    (hlast : (chainOf index pairs).getLast? = some last) (attachment : Attachment μ φ σ)
    (replacement : Rule μ φ σ ν → Rule μ φ σ ν) :
    (replacedPairs attachment replacement [last.identity] pairs).map Prod.snd =
      attachLast index attachment (pairs.map Prod.snd) := by
  induction pairs with
  | nil => rfl
  | cons pair rest ih =>
      rw [List.map_cons, List.nodup_cons] at hnodup
      have hcons : replacedPairs attachment replacement [last.identity] (pair :: rest) =
          (if pair.1.identity ∈ [last.identity] then
            (replacement pair.1, pair.2.attach attachment) else pair) ::
            replacedPairs attachment replacement [last.identity] rest := rfl
      rw [chainOf_cons, List.getLast?_append] at hlast
      rw [hcons, List.map_cons, List.map_cons, attachLast]
      cases hrest : (chainOf index rest).getLast? with
      | some other =>
          -- The last rule is further on, and of another identity than this one.
          rw [hrest, Option.some_or] at hlast
          have hmem : last ∈ chainOf index rest := List.mem_of_getLast? (hrest.trans hlast)
          obtain ⟨found, hfound, hfirst⟩ := List.mem_map.1 hmem
          rw [List.mem_filter, decide_eq_true_iff] at hfound
          have hany : (rest.map Prod.snd).any (fun other => other.chain = index) = true := by
            rw [List.any_eq_true]
            exact ⟨found.2, List.mem_map_of_mem hfound.1, decide_eq_true hfound.2⟩
          have hne : pair.1.identity ∉ [last.identity] := by
            intro hin
            refine hnodup.1 ?_
            rw [List.mem_singleton.1 hin, ← hfirst]
            exact List.mem_map_of_mem (f := fun pair : RulePair μ φ σ ν => pair.1.identity) hfound.1
          rw [if_pos hany, if_neg hne, ih hnodup.2 (hrest.trans hlast)]
      | none =>
          rw [hrest, Option.none_or] at hlast
          rw [List.getLast?_eq_none_iff] at hrest
          have hany : ¬ (rest.map Prod.snd).any (fun other => other.chain = index) = true := by
            rw [List.any_eq_true]
            rintro ⟨other, hother, hchain⟩
            obtain ⟨found, hfound, rfl⟩ := List.mem_map.1 hother
            have hin : found.1 ∈ chainOf index rest :=
              List.mem_map_of_mem (List.mem_filter.2 ⟨hfound, hchain⟩)
            rw [hrest] at hin
            exact absurd hin List.not_mem_nil
          by_cases hchain : pair.2.chain = index
          · rw [if_pos hchain, List.getLast?_singleton, Option.some.injEq] at hlast
            have hothers : replacedPairs attachment replacement [last.identity] rest = rest := by
              refine (List.map_congr_left fun other hother => if_neg fun hin => ?_).trans
                (List.map_id rest)
              refine hnodup.1 ?_
              rw [hlast, ← List.mem_singleton.1 hin]
              exact List.mem_map_of_mem (f := fun pair : RulePair μ φ σ ν => pair.1.identity) hother
            have hin : pair.1.identity ∈ [last.identity] := by
              rw [hlast]
              exact List.mem_cons_self
            rw [if_neg hany, if_pos hchain, if_pos hin, hothers]
          · rw [if_neg hchain] at hlast
            cases hlast

/-- A chain without rules has nothing to attach to. -/
theorem attachTo_of_chainOf_nil {pairs : List (RulePair μ φ σ ν)} {index : ℕ}
    (h : chainOf index pairs = []) (attachment : Attachment μ φ σ) (applyTo : ApplyConditionTo) :
    attachTo index attachment applyTo (pairs.map Prod.snd) = pairs.map Prod.snd := by
  have hnone : ∀ rule ∈ pairs.map Prod.snd, rule.chain ≠ index := by
    intro rule hrule hchain
    obtain ⟨pair, hpair, rfl⟩ := List.mem_map.1 hrule
    have hin : pair.1 ∈ chainOf index pairs :=
      List.mem_map_of_mem (List.mem_filter.2 ⟨hpair, decide_eq_true hchain⟩)
    rw [h] at hin
    exact absurd hin List.not_mem_nil
  generalize pairs.map Prod.snd = rules at hnone
  cases applyTo with
  | allValidators =>
      exact (List.map_congr_left fun rule hrule => if_neg (hnone rule hrule)).trans (List.map_id _)
  | currentValidator =>
      change attachLast index attachment rules = rules
      induction rules with
      | nil => rfl
      | cons rule rest ih =>
          have hany : ¬ rest.any (fun other => other.chain = index) = true := by
            rw [List.any_eq_true]
            rintro ⟨other, hother, hchain⟩
            exact hnone other (List.mem_cons_of_mem _ hother) (of_decide_eq_true hchain)
          rw [attachLast, if_neg hany, if_neg (hnone rule List.mem_cons_self)]

/-! ### Calls -/

theorem dropLast_append_of_getLast? {rules : List (Rule μ φ σ ν)} {last : Rule μ φ σ ν}
    (h : rules.getLast? = some last) : rules = rules.dropLast ++ [last] := by
  have hne : rules ≠ [] := by
    rintro rfl
    cases h
  rw [List.getLast?_eq_some_getLast hne, Option.some.injEq] at h
  rw [← h, List.dropLast_append_getLast hne]

/-- An option for the last rule of a chain. -/
theorem refines_change {registration : Registration μ φ σ ν} {reference : Reference μ φ σ ν}
    {pairs : List (RulePair μ φ σ ν)} (h : Refines registration reference pairs) {index : ℕ}
    {builder : RuleBuilder μ φ σ ν} (hbuilder : registration.builders[index]? = some builder)
    {attachment : Attachment μ φ σ} {values : Rule μ φ σ ν → Rule μ φ σ ν}
    (hvalues : Realizes attachment values) {last : Rule μ φ σ ν}
    (hlast : builder.last = some last) :
    ∃ next validator changed, builder.change registration.validator values = .ok (next, validator) ∧
      Refines { validator := validator, builders := registration.builders.set index next }
        { reference with rules := attachLast index attachment reference.rules } changed := by
  have hgetLast : builder.chain.getLast? = some last := by
    rw [← h.last builder (List.mem_of_getElem? hbuilder), hlast]
  have hchain := dropLast_append_of_getLast? hgetLast
  obtain ⟨replacement, validator, hloop, hrefines⟩ :=
    refines_replaceEach h hbuilder hvalues hchain
  have hreplace : registration.validator.replace last
      { values last with identity := registration.validator.next } = .ok validator ∧
        replacement last = { values last with identity := registration.validator.next } := by
    rw [RuleBuilder.replaceEach] at hloop
    cases hreplaced : registration.validator.replace last
        { values last with identity := registration.validator.next } with
    | error error =>
        simp only [hreplaced] at hloop
        cases hloop
    | ok replaced =>
        simp only [hreplaced] at hloop
        injection hloop with hloop
        injection hloop with hrules hvalidator
        injection hrules with hrule
        exact ⟨congrArg _ hvalidator, hrule.symm⟩
  obtain ⟨hreplaced, hrule⟩ := hreplace
  have hset : builder.chain.set (builder.chain.length - 1) (replacement last) =
      builder.chain.dropLast ++ [replacement last] := by
    have hlength : builder.chain.length - 1 = builder.chain.dropLast.length := by
      rw [List.length_dropLast]
    rw [hlength]
    conv_lhs => rw [hchain]
    rw [List.dropLast_concat, List.set_append_right _ _ (Nat.le_refl _), Nat.sub_self]
    rfl
  refine ⟨{ builder with
    chain := builder.chain.dropLast ++ [replacement last]
    last := some (replacement last) }, validator,
    replacedPairs attachment replacement [last.identity] pairs, ?_, ?_⟩
  · rw [RuleBuilder.change, hlast]
    change (registration.validator.replace last _ >>= _) = _
    rw [hreplaced, ← hrule, ← hset]
    rfl
  · have hsnd := snd_replacedPairs_last h.paired.nodup
      ((h.chain index builder hbuilder) ▸ hgetLast) attachment replacement
    rw [h.rules, ← hsnd]
    have hgot : (builder.chain.dropLast ++ [last].map replacement).getLast? =
        some (replacement last) := by simp
    rw [hgot] at hrefines
    exact hrefines

/-- What a call leaves of a registration. -/
def Registration.after (registration : Registration μ φ σ ν) (index : ℕ)
    (built : Except String (RuleBuilder μ φ σ ν × BaseValidator μ φ σ ν)) :
    Registration μ φ σ ν :=
  match built with
  | .error _ => registration
  | .ok (builder, validator) =>
      { validator := validator, builders := registration.builders.set index builder }

/-- Without a rule in its chain, a call that attaches throws, and nothing would be attached. -/
theorem refines_of_last_none {registration : Registration μ φ σ ν}
    {reference : Reference μ φ σ ν} {pairs : List (RulePair μ φ σ ν)}
    (h : Refines registration reference pairs) {index : ℕ} {builder : RuleBuilder μ φ σ ν}
    (hbuilder : registration.builders[index]? = some builder) (hlast : builder.last = none)
    (attachment : Attachment μ φ σ) (applyTo : ApplyConditionTo) :
    Refines registration
      { reference with rules := attachTo index attachment applyTo reference.rules } pairs := by
  have hchain : chainOf index pairs = [] := by
    rw [← h.chain index builder hbuilder, ← List.getLast?_eq_none_iff,
      ← h.last builder (List.mem_of_getElem? hbuilder), hlast]
  have hrules : attachTo index attachment applyTo reference.rules = reference.rules := by
    rw [h.rules, attachTo_of_chainOf_nil hchain]
  rw [hrules]
  exact h

theorem refines_option {registration : Registration μ φ σ ν} {reference : Reference μ φ σ ν}
    {pairs : List (RulePair μ φ σ ν)} (h : Refines registration reference pairs) {index : ℕ}
    {builder : RuleBuilder μ φ σ ν} (hbuilder : registration.builders[index]? = some builder)
    {attachment : Attachment μ φ σ} {values : Rule μ φ σ ν → Rule μ φ σ ν}
    (hvalues : Realizes attachment values) :
    ∃ changed, Refines
      (registration.after index (builder.change registration.validator values))
      { reference with rules := attachLast index attachment reference.rules } changed := by
  cases hlast : builder.last with
  | none =>
      have hthrows : builder.change registration.validator values =
          .error "A rule is required before its options" := by
        rw [RuleBuilder.change, hlast]
      rw [hthrows]
      exact ⟨pairs, refines_of_last_none h hbuilder hlast attachment .currentValidator⟩
  | some last =>
      obtain ⟨next, validator, changed, hchange, hrefines⟩ :=
        refines_change h hbuilder hvalues hlast
      rw [hchange]
      exact ⟨changed, hrefines⟩

theorem refines_when {registration : Registration μ φ σ ν} {reference : Reference μ φ σ ν}
    {pairs : List (RulePair μ φ σ ν)} (h : Refines registration reference pairs) {index : ℕ}
    {builder : RuleBuilder μ φ σ ν} (hbuilder : registration.builders[index]? = some builder)
    (predicate : Predicate μ) (applyTo : ApplyConditionTo) :
    ∃ changed, Refines
      (registration.after index (builder.when registration.validator predicate applyTo))
      { reference with rules := attachTo index (.condition predicate) applyTo reference.rules }
      changed := by
  cases hlast : builder.last with
  | none =>
      have hthrows : builder.when registration.validator predicate applyTo =
          .error "A rule is required before its options" := by
        rw [RuleBuilder.when, hlast]
      rw [hthrows]
      exact ⟨pairs, refines_of_last_none h hbuilder hlast (.condition predicate) applyTo⟩
  | some last =>
      have hgetLast : builder.chain.getLast? = some last := by
        rw [← h.last builder (List.mem_of_getElem? hbuilder), hlast]
      have hchain : builder.chain = builder.kept applyTo ++ builder.selected applyTo := by
        cases applyTo with
        | allValidators => rfl
        | currentValidator =>
            rw [RuleBuilder.kept, RuleBuilder.selected, hgetLast]
            exact dropLast_append_of_getLast? hgetLast
      obtain ⟨replacement, validator, hloop, hrefines⟩ :=
        refines_replaceEach h hbuilder (realizes_conditioned predicate) hchain
      have hwhen : builder.when registration.validator predicate applyTo = .ok
          ({ builder with
            chain := builder.kept applyTo ++ (builder.selected applyTo).map replacement
            last := (builder.kept applyTo ++
              (builder.selected applyTo).map replacement).getLast? }, validator) := by
        rw [RuleBuilder.when, hlast]
        change (RuleBuilder.replaceEach _ _ _ >>= _) = _
        rw [hloop]
        rfl
      have hsnd : (replacedPairs (.condition predicate) replacement
          ((builder.selected applyTo).map (·.identity)) pairs).map Prod.snd =
            attachTo index (.condition predicate) applyTo reference.rules := by
        rw [h.rules]
        cases applyTo with
        | allValidators =>
            rw [RuleBuilder.selected, h.chain index builder hbuilder]
            exact snd_replacedPairs_all h.paired index _ replacement
        | currentValidator =>
            rw [RuleBuilder.selected, hgetLast]
            exact snd_replacedPairs_last h.paired.nodup
              ((h.chain index builder hbuilder) ▸ hgetLast) _ replacement
      rw [hwhen, ← hsnd]
      exact ⟨_, hrefines⟩

/-- A rule that is added goes to the end of its chain, and of the list. -/
theorem refines_add {registration : Registration μ φ σ ν} {reference : Reference μ φ σ ν}
    {pairs : List (RulePair μ φ σ ν)} (h : Refines registration reference pairs) {index : ℕ}
    {builder : RuleBuilder μ φ σ ν} (hbuilder : registration.builders[index]? = some builder)
    (above : ν → ν → Bool) {addition : Addition ν} (hvalid : addition.isInvalid above = false)
    (hsafe : addition.safe = addition.isRepresentable) :
    ∃ next validator changed, ∃ rule : Rule μ φ σ ν,
      builder.add above registration.validator addition = .ok (next, validator) ∧
      next.last = some rule ∧
      Refines { validator := validator, builders := registration.builders.set index next }
        { reference with rules := reference.rules ++
            [{ chain := index, path := builder.path, addition := addition }] } changed := by
  have hlt : index < registration.builders.length := (List.getElem?_eq_some_iff.1 hbuilder).1
  refine ⟨_, _, pairs ++ [({
    identity := registration.validator.next
    path := builder.path
    kind := addition.kind
    args := addition.args
    clientSafe := addition.safe }, { chain := index, path := builder.path, addition := addition })],
    _, by rw [RuleBuilder.add, hvalid, if_neg Bool.false_ne_true], rfl, ?_⟩
  refine ⟨⟨?_, ?_, ?_, ?_⟩, ?_, ?_, ?_, ?_, ?_⟩
  · rw [List.map_append, ← h.paired.rules]
    rfl
  · intro pair hpair
    rcases List.mem_append.1 hpair with hold | hnew
    · exact h.paired.represents pair hold
    · rw [List.mem_singleton.1 hnew]
      simp only [Rule.descriptor, ReferenceRule.descriptor, hsafe]
      simp [allHold]
  · rw [List.map_append, List.nodup_append]
    refine ⟨h.paired.nodup, by simp, ?_⟩
    intro identity hmem other hother heq
    obtain ⟨pair, hpair, rfl⟩ := List.mem_map.1 hmem
    have hfresh := h.paired.fresh pair hpair
    rw [List.map_singleton, List.mem_singleton] at hother
    rw [heq, hother] at hfresh
    exact Nat.lt_irrefl _ hfresh
  · intro pair hpair
    rcases List.mem_append.1 hpair with hold | hnew
    · exact Nat.lt_succ_of_lt (h.paired.fresh pair hold)
    · rw [List.mem_singleton.1 hnew]
      exact Nat.lt_succ_self _
  · rw [List.map_append, ← h.rules]
    rfl
  · rw [← h.paths, List.map_set]
    refine List.ext_getElem? fun other => ?_
    rw [List.getElem?_set]
    split_ifs with heq hlength
    · rw [← heq, List.getElem?_map, hbuilder]
      rfl
    · rw [List.length_map] at hlength
      exact absurd hlt hlength
    · rfl
  · intro other otherBuilder hother
    have happend : ∀ pair : RulePair μ φ σ ν, chainOf other (pairs ++ [pair]) =
        chainOf other pairs ++ if pair.2.chain = other then [pair.1] else [] := by
      intro pair
      unfold chainOf
      rw [List.filter_append, List.map_append]
      by_cases hchain : pair.2.chain = other
      · simp [hchain]
      · simp [hchain]
    rw [happend]
    rw [List.getElem?_set] at hother
    by_cases heq : index = other
    · subst heq
      simp only [if_true, hlt, Option.some.injEq] at hother
      subst hother
      rw [h.chain index builder hbuilder, if_pos rfl]
    · rw [if_neg heq] at hother
      rw [h.chain other otherBuilder hother, if_neg heq, List.append_nil]
  · intro otherBuilder hother
    rcases List.mem_or_eq_of_mem_set hother with hmem | heq
    · exact h.last otherBuilder hmem
    · rw [heq]
      simp
  · intro pair hpair
    rw [List.length_set]
    rcases List.mem_append.1 hpair with hold | hnew
    · exact h.chains pair hold
    · rw [List.mem_singleton.1 hnew]
      exact hlt

/-- The last rule of its chain is the rule that was just added. -/
theorem attachLast_append_singleton {chain : ℕ} (attachment : Attachment μ φ σ)
    (rules : List (ReferenceRule μ φ σ ν)) {rule : ReferenceRule μ φ σ ν}
    (hchain : rule.chain = chain) :
    attachLast chain attachment (rules ++ [rule]) = rules ++ [rule.attach attachment] := by
  induction rules with
  | nil => simp [attachLast, hchain]
  | cons first rest ih =>
      have hany : (rest ++ [rule]).any (fun other => other.chain = chain) = true := by
        simp [hchain]
      rw [List.cons_append, attachLast, if_pos hany, ih, List.cons_append]

/-- A method that adds a rule, with the message it may supply. -/
theorem refines_addMethod {registration : Registration μ φ σ ν} {reference : Reference μ φ σ ν}
    {pairs : List (RulePair μ φ σ ν)} (h : Refines registration reference pairs) {index : ℕ}
    {builder : RuleBuilder μ φ σ ν} (hbuilder : registration.builders[index]? = some builder)
    (above : ν → ν → Bool) (method : Method ν) :
    ∃ changed, Refines
      (registration.after index (builder.addMethod above registration.validator method))
      { reference with rules := reference.perform above index builder.path (.add method) }
      changed := by
  cases hinvalid : method.addition.isInvalid above with
  | true =>
      have hthrows : builder.addMethod above registration.validator method =
          .error ("Invalid validation rule arguments: " ++ method.addition.kind) := by
        rw [RuleBuilder.addMethod, RuleBuilder.add, hinvalid, if_pos rfl]
        rfl
      have hsame : reference.perform above index builder.path (.add method) = reference.rules :=
        if_pos hinvalid
      rw [hthrows, hsame]
      exact ⟨pairs, h⟩
  | false =>
      obtain ⟨next, validator, changed, rule, hadd, hlast, hrefines⟩ :=
        refines_add h hbuilder above hinvalid (safe_eq_isRepresentable method)
      have hperform : reference.perform above index builder.path (.add method) =
          reference.rules ++ [{
            chain := index
            path := builder.path
            addition := method.addition
            attached := method.errorMessage.toList.map fun text => .message (.text text) }] :=
        if_neg (by rw [hinvalid]; exact Bool.false_ne_true)
      rw [hperform]
      cases hmessage : method.errorMessage with
      | none =>
          have hmethod : builder.addMethod above registration.validator method =
              .ok (next, validator) := by
            rw [RuleBuilder.addMethod, hadd]
            dsimp only [bind, Except.bind]
            rw [hmessage]
          rw [hmethod]
          exact ⟨changed, hrefines⟩
      | some message =>
          have hlt : index < registration.builders.length :=
            (List.getElem?_eq_some_iff.1 hbuilder).1
          have hnext : (registration.builders.set index next)[index]? = some next := by
            rw [List.getElem?_set, if_pos rfl, if_pos hlt]
          obtain ⟨ended, endedValidator, pairs', hchange, hended⟩ :=
            refines_change hrefines hnext (realizes_message (.text message)) hlast
          have hmethod : builder.addMethod above registration.validator method =
              .ok (ended, endedValidator) := by
            rw [RuleBuilder.addMethod, hadd]
            dsimp only [bind, Except.bind]
            rw [hmessage]
            exact hchange
          have hattached : attachLast index (.message (.text message)) (reference.rules ++
              [{ chain := index, path := builder.path, addition := method.addition }]) =
              reference.rules ++ [{
                chain := index
                path := builder.path
                addition := method.addition
                attached := [.message (.text message)] }] :=
            attachLast_append_singleton _ _ rfl
          simp only [hattached, List.set_set] at hended
          rw [hmethod]
          exact ⟨pairs', hended⟩

/-- One call keeps the two levels in step. -/
theorem refines_perform {registration : Registration μ φ σ ν} {reference : Reference μ φ σ ν}
    {pairs : List (RulePair μ φ σ ν)} (h : Refines registration reference pairs) {index : ℕ}
    {builder : RuleBuilder μ φ σ ν} (hbuilder : registration.builders[index]? = some builder)
    (above : ν → ν → Bool) (call : BuilderCall μ φ σ ν) :
    ∃ changed, Refines
      (registration.after index (builder.perform above registration.validator call))
      { reference with rules := reference.perform above index builder.path call } changed := by
  cases call with
  | add method => exact refines_addMethod h hbuilder above method
  | when predicate applyTo => exact refines_when h hbuilder predicate applyTo
  | unless' predicate applyTo => exact refines_when h hbuilder _ applyTo
  | withMessage message => exact refines_option h hbuilder (realizes_message message)
  | withSeverity severity => exact refines_option h hbuilder (realizes_severity severity)
  | withState state => exact refines_option h hbuilder (realizes_state state)
  | ignoreConceptRules =>
      refine ⟨pairs, ?_⟩
      have hset : registration.builders.set index builder = registration.builders := by
        refine List.ext_getElem? fun other => ?_
        rw [List.getElem?_set]
        split_ifs with heq hlt
        · rw [← heq, hbuilder]
        · exact (List.getElem?_eq_none (Nat.not_lt.1 (heq ▸ hlt))).symm
        · rfl
      change Refines (registration.after index
        (builder.ignoreConceptRules registration.validator)) reference pairs
      unfold RuleBuilder.ignoreConceptRules
      split
      · simp only [Registration.after, hset]
        exact ⟨⟨h.paired.rules, h.paired.represents, h.paired.nodup, h.paired.fresh⟩, h.rules,
          h.paths, h.chain, h.last, h.chains⟩
      · exact h

/-- One event keeps the two levels in step. -/
theorem refines_step {registration : Registration μ φ σ ν} {reference : Reference μ φ σ ν}
    {pairs : List (RulePair μ φ σ ν)} (h : Refines registration reference pairs)
    (above : ν → ν → Bool) (event : BuildEvent μ φ σ ν) :
    ∃ changed, Refines (registration.step above event) (reference.step above event) changed := by
  cases event with
  | ruleFor path =>
      refine ⟨pairs, h.paired, h.rules, ?_, ?_, ?_, ?_⟩
      · change (registration.builders ++ [_]).map _ = reference.paths ++ [path]
        rw [List.map_append, h.paths]
        rfl
      · intro index builder hbuilder
        change (registration.builders ++ [_])[index]? = some builder at hbuilder
        rw [List.getElem?_append] at hbuilder
        split_ifs at hbuilder with hlt
        · exact h.chain index builder hbuilder
        · -- The new builder has no rules, and no rule is of its chain.
          have hchain : builder.chain = [] := by
            rw [List.mem_singleton.1 (List.mem_of_getElem? hbuilder)]
          rw [hchain, chainOf, eq_comm, List.map_eq_nil_iff, List.filter_eq_nil_iff]
          intro pair hpair heq
          have hlength := h.chains pair hpair
          rw [of_decide_eq_true heq] at hlength
          exact hlt hlength
      · intro builder hbuilder
        rcases List.mem_append.1 hbuilder with hold | hnew
        · exact h.last builder hold
        · rw [List.mem_singleton.1 hnew]
          rfl
      · intro pair hpair
        have hlength := h.chains pair hpair
        change _ < (registration.builders ++ [_]).length
        rw [List.length_append]
        exact Nat.lt_add_right _ hlength
  | call index call =>
      have hpaths : reference.paths[index]? =
          registration.builders[index]?.map (·.path) := by
        rw [← h.paths, List.getElem?_map]
      rw [Registration.step, Reference.step, hpaths]
      cases hbuilder : registration.builders[index]? with
      | none => exact ⟨pairs, h⟩
      | some builder =>
          obtain ⟨changed, hchanged⟩ := refines_perform h hbuilder above call
          refine ⟨changed, ?_⟩
          simp only [Registration.after] at hchanged
          exact hchanged

/-- Over any sequence of events the two levels stay in step. -/
theorem refines_run (above : ν → ν → Bool) (events : List (BuildEvent μ φ σ ν)) :
    ∃ pairs, Refines (Registration.run above events) (Reference.run above events) pairs := by
  induction events using List.reverseRecOn with
  | nil =>
      refine ⟨[], ⟨rfl, ?_, List.nodup_nil, ?_⟩, rfl, rfl, ?_, ?_, ?_⟩
      · exact fun _ hpair => absurd hpair List.not_mem_nil
      · exact fun _ hpair => absurd hpair List.not_mem_nil
      · intro index builder hbuilder
        cases hbuilder
      · exact fun _ hbuilder => absurd hbuilder List.not_mem_nil
      · exact fun _ hpair => absurd hpair List.not_mem_nil
  | append_singleton events event ih =>
      obtain ⟨pairs, hpairs⟩ := ih
      obtain ⟨changed, hchanged⟩ := refines_step hpairs above event
      refine ⟨changed, ?_⟩
      rw [Registration.run, Reference.run, List.foldl_append, List.foldl_append]
      exact hchanged

/-- Whatever is called on the builders of a validator, in whatever order: its rules are the
rules of the reference, in the order they were added, and the same is read of each. -/
theorem rules_eq_reference (above : ν → ν → Bool) (events : List (BuildEvent μ φ σ ν)) :
    (Registration.run above events).validator.rules.map Rule.descriptor =
      (Reference.run above events).rules.map ReferenceRule.descriptor := by
  obtain ⟨pairs, h⟩ := refines_run above events
  rw [h.paired.rules, h.rules, List.map_map, List.map_map]
  exact List.map_congr_left h.paired.represents

end Arc.Validation
