import Arc.Validation.RuleBuilder
import Mathlib.Order.Compare

/-!
# Evaluating rules

A rule is evaluated against a decoded value. The comparison rules ask for the sign of one
signed difference, and equality is decided apart for each kind of value.
`comparisonRules_consistent_iff` says that the two agree except for two infinities of one
sign, which are equal and have no difference.

The objects of the value types are given by their types; their texts, ticks and `equals`, the
order of texts and the patterns for texts are the platform's.
-/

namespace Arc.Validation

/-! ### Values -/

/-- A value with its concept unwrapped. A date has its time if it is valid, and an array or
another object is known by its identity. -/
inductive RuleValue (δ τ σ : Type)
  | undefined
  | null
  | boolean (value : Bool)
  | number (value : Number)
  | string (text : String)
  | guid (text : String)
  | date (time : Option ℤ)
  | dateOnly (value : δ)
  | timeOnly (value : τ)
  | timeSpan (value : σ)
  | array (identity length : ℕ)
  | object (identity : ℕ)
  deriving DecidableEq

/-- The value types of the fundamentals, and what the language does with texts. -/
structure ValueTypes (δ τ σ : Type) where
  dateOnlyText : δ → String
  dateOnlyEquals : δ → δ → Bool
  timeOnlyText : τ → String
  timeOnlyEquals : τ → τ → Bool
  ticks : σ → Number
  guidEquals : String → String → Bool
  emptyGuid : String
  localeCompare : String → String → Ordering
  whiteSpaceOnly : String → Bool
  emailAddress : String → Bool
  phone : String → Bool
  url : String → Bool
  test : String → String → String → Bool

/-- An argument that is neither a number nor a pattern: a value, or a predicate. -/
inductive Operand (δ τ σ : Type)
  | value (value : RuleValue δ τ σ)
  | predicate (must : RuleValue δ τ σ → Except String Bool)

/-- An argument that was passed, as a value. -/
def Argument.value? {δ τ σ : Type} : Argument (Operand δ τ σ) → Option (RuleValue δ τ σ)
  | .number bound => some (.number bound)
  | .value (.value operand) => some operand
  | .value (.predicate _) | .pattern _ _ => none

namespace RuleValue

variable {δ τ σ : Type} (types : ValueTypes δ τ σ)

/-- `value == null` -/
def isNullish : RuleValue δ τ σ → Bool
  | undefined | null => true
  | _ => false

def isEmpty : RuleValue δ τ σ → Bool
  | undefined | null => true
  | string text => text.isEmpty || types.whiteSpaceOnly text
  | number value => value == .finite 0
  | boolean value => !value
  | array _ length => length == 0
  | guid text => types.guidEquals text types.emptyGuid
  | _ => false

def equal : RuleValue δ τ σ → RuleValue δ τ σ → Bool
  | guid left, guid right => types.guidEquals left right
  | dateOnly left, dateOnly right => types.dateOnlyEquals left right
  | timeOnly left, timeOnly right => types.timeOnlyEquals left right
  | date left, date right => left == right && left.isSome
  | timeSpan left, timeSpan right =>
      types.ticks left == types.ticks right && types.ticks left != .nan
  | number left, number right => left == right && left != .nan
  | undefined, undefined => true
  | null, null => true
  | boolean left, boolean right => left == right
  | string left, string right => left == right
  | array left _, array right _ => left == right
  | object left, object right => left == right
  | _, _ => false

/-- The number a comparison of texts answers, up to its size. -/
def ofOrdering : Ordering → Number
  | .lt => .finite (-1)
  | .eq => .finite 0
  | .gt => .finite 1

/-- The time of a date as a number. -/
def timeOf : Option ℤ → Number
  | none => .nan
  | some time => .finite time

/-- Compare only numbers and matching temporal value types. -/
def compareValues : RuleValue δ τ σ → RuleValue δ τ σ → Option Number
  | number left, number right => some (left.sub right)
  | date left, date right => some ((timeOf left).sub (timeOf right))
  | dateOnly left, dateOnly right =>
      some (ofOrdering (types.localeCompare (types.dateOnlyText left) (types.dateOnlyText right)))
  | timeOnly left, timeOnly right =>
      some (ofOrdering (types.localeCompare (types.timeOnlyText left) (types.timeOnlyText right)))
  | timeSpan left, timeSpan right => some ((types.ticks left).sub (types.ticks right))
  | _, _ => none

end RuleValue

/-! ### Rules -/

section Evaluation

variable {δ τ σ : Type} (types : ValueTypes δ τ σ)

/-- `compareValues(value, argument) ?? missing` -/
def differenceFrom (value : RuleValue δ τ σ) (argument : Option (Argument (Operand δ τ σ)))
    (missing : Number) : Number :=
  ((argument.bind Argument.value?).bind (value.compareValues types)).getD missing

/-- The number of UTF-16 units of a text. -/
def textLength (text : String) : ℕ :=
  (text.toList.map fun char => if 65535 < char.val then 2 else 1).sum

/-- The numeric bound an argument stands for. -/
def boundOf : Option (Argument (Operand δ τ σ)) → Number
  | some (.number bound) => bound
  | some (.value (.value (.number bound))) => bound
  | _ => .nan

/-- Nullish, or a text the condition holds of. -/
def textRule (value : RuleValue δ τ σ) (holds : String → Bool) : Except String Bool :=
  .ok (value.isNullish ||
    match value with
    | .string text => holds text
    | _ => false)

/-- Nullish, or compared with a bound. -/
def comparisonRule (value : RuleValue δ τ σ) (holds : Bool) : Except String Bool :=
  .ok (value.isNullish || holds)

/-- What `equal` compares with: an argument that is missing is undefined, and one that is no
value equals none. -/
def equalsArgument (value : RuleValue δ τ σ) : Option (Argument (Operand δ τ σ)) → Bool
  | none => value.equal types .undefined
  | some argument => argument.value?.any (value.equal types)

/-- Evaluate one registered rule, given by its kind and arguments, against its value. -/
def evaluateRule (kind : String) (args : List (Argument (Operand δ τ σ)))
    (value : RuleValue δ τ σ) (aborted : Bool := false) : Except String Bool :=
  let first := args[0]?
  let second := args[1]?
  let below := Number.infinite true
  let above := Number.infinite false
  let zero := Number.finite 0
  if aborted then .error "Validation canceled"
  else
    match kind with
    | "notNull" => .ok !value.isNullish
    | "null" => .ok value.isNullish
    | "notEmpty" => .ok !value.isEmpty types
    | "empty" => .ok (value.isEmpty types)
    | "minLength" => textRule value fun text =>
        (boundOf first).lessEqual (.finite (textLength text))
    | "maxLength" => textRule value fun text =>
        Number.lessEqual (.finite (textLength text)) (boundOf first)
    | "length" => textRule value fun text =>
        (boundOf first).lessEqual (.finite (textLength text)) &&
          Number.lessEqual (.finite (textLength text)) (boundOf second)
    | "greaterThan" => comparisonRule value (zero.less (differenceFrom types value first below))
    | "greaterThanOrEqual" =>
        comparisonRule value (zero.lessEqual (differenceFrom types value first below))
    | "lessThan" => comparisonRule value ((differenceFrom types value first above).less zero)
    | "lessThanOrEqual" =>
        comparisonRule value ((differenceFrom types value first above).lessEqual zero)
    | "inclusiveBetween" => comparisonRule value
        (zero.lessEqual (differenceFrom types value first below) &&
          (differenceFrom types value second above).lessEqual zero)
    | "exclusiveBetween" => comparisonRule value
        (zero.less (differenceFrom types value first below) &&
          (differenceFrom types value second above).less zero)
    | "equal" => .ok (equalsArgument types value first)
    | "notEqual" => .ok !equalsArgument types value first
    | "emailAddress" => textRule value types.emailAddress
    | "phone" => textRule value types.phone
    | "url" => textRule value types.url
    | "matches" => textRule value fun text =>
        match first with
        | some (.pattern source flags) => types.test source flags text
        | _ => false
    | "must" | "mustAsync" =>
        match first with
        | some (.value (.predicate must)) => must value
        | _ => .error "first is not a function"
    | _ => .error ("Unsupported validation rule: " ++ kind)

end Evaluation

/-! ### Values of one kind -/

/-- The kinds whose values are compared. -/
inductive ComparableKind
  | number
  | date
  | dateOnly
  | timeOnly
  | timeSpan
  deriving DecidableEq, Repr

/-- What the texts, the ticks and `equals` of the value types have to do with one another, and
that the order of texts is one, which tells the texts of different dates and times apart. -/
structure ValueTypes.Lawful {δ τ σ : Type} (types : ValueTypes δ τ σ) : Prop where
  dateOnlyEquals : ∀ left right,
    types.dateOnlyEquals left right = true ↔ types.dateOnlyText left = types.dateOnlyText right
  timeOnlyEquals : ∀ left right,
    types.timeOnlyEquals left right = true ↔ types.timeOnlyText left = types.timeOnlyText right
  transCmp : Std.TransCmp types.localeCompare
  dateOnlyText : ∀ left right,
    types.localeCompare (types.dateOnlyText left) (types.dateOnlyText right) = .eq →
      types.dateOnlyText left = types.dateOnlyText right
  timeOnlyText : ∀ left right,
    types.localeCompare (types.timeOnlyText left) (types.timeOnlyText right) = .eq →
      types.timeOnlyText left = types.timeOnlyText right

namespace RuleValue

variable {δ τ σ : Type} (types : ValueTypes δ τ σ)

/-- The kind of a comparable value that is a number if it stands for one. -/
def comparableKind : RuleValue δ τ σ → Option ComparableKind
  | number value => if value = .nan then none else some .number
  | date time => if time.isSome then some .date else none
  | dateOnly _ => some .dateOnly
  | timeOnly _ => some .timeOnly
  | timeSpan value => if types.ticks value = .nan then none else some .timeSpan
  | _ => none

/-- The forms of the comparable values. -/
inductive Comparable : ComparableKind → RuleValue δ τ σ → Prop
  | number (value : Number) (h : value ≠ .nan) : Comparable .number (number value)
  | date (time : ℤ) : Comparable .date (date (some time))
  | dateOnly (value : δ) : Comparable .dateOnly (dateOnly value)
  | timeOnly (value : τ) : Comparable .timeOnly (timeOnly value)
  | timeSpan (value : σ) (h : types.ticks value ≠ .nan) : Comparable .timeSpan (timeSpan value)

theorem comparable_of_kind {kind : ComparableKind} {value : RuleValue δ τ σ}
    (h : value.comparableKind types = some kind) : Comparable types kind value := by
  cases value with
  | number value =>
      simp only [comparableKind] at h
      split_ifs at h with hnan
      cases h
      exact Comparable.number value hnan
  | date time =>
      cases time with
      | none => cases h
      | some time =>
          cases h
          exact Comparable.date time
  | dateOnly value =>
      cases h
      exact Comparable.dateOnly value
  | timeOnly value =>
      cases h
      exact Comparable.timeOnly value
  | timeSpan value =>
      simp only [comparableKind] at h
      split_ifs at h with hnan
      cases h
      exact Comparable.timeSpan value hnan
  | undefined => cases h
  | null => cases h
  | boolean value => cases h
  | string text => cases h
  | guid text => cases h
  | array identity length => cases h
  | object identity => cases h

/-- The number a value stands for. -/
def magnitude : RuleValue δ τ σ → Option Number
  | number value => some value
  | timeSpan value => some (types.ticks value)
  | _ => none

/-- Both stand for the infinity of one sign. -/
def SameInfinity (value bound : RuleValue δ τ σ) : Prop :=
  ∃ negative, value.magnitude types = some (.infinite negative) ∧
    bound.magnitude types = some (.infinite negative)

/-- One of the three holds, and only one. -/
def ExactlyOne (below same above : Prop) : Prop :=
  (below ∧ ¬ same ∧ ¬ above) ∨ (¬ below ∧ same ∧ ¬ above) ∨ (¬ below ∧ ¬ same ∧ above)

/-- The value is above the bound. -/
def Above (value bound : RuleValue δ τ σ) : Prop :=
  ∃ difference, value.compareValues types bound = some difference ∧
    (Number.finite 0).less difference = true

/-! ### What a difference says -/

variable {types} {value bound : RuleValue δ τ σ} {kind : ComparableKind}

theorem zero_less_ofOrdering (order : Ordering) :
    (Number.finite 0).less (ofOrdering order) = (order == .gt) := by
  cases order <;> simp [ofOrdering, Number.less]

theorem ofOrdering_less_zero (order : Ordering) :
    (ofOrdering order).less (.finite 0) = (order == .lt) := by
  cases order <;> simp [ofOrdering, Number.less]

theorem ofOrdering_eq_zero (order : Ordering) : ofOrdering order = .finite 0 ↔ order = .eq := by
  cases order <;> simp [ofOrdering]

theorem timeOf_ne_nan (time : ℤ) : timeOf (some time) ≠ .nan := by
  simp [timeOf]

/-- The difference of two values of a kind has the sign of the way round they are, and is zero
exactly if they are equal and not the same infinity. -/
structure Differs (types : ValueTypes δ τ σ) (value bound : RuleValue δ τ σ)
    (difference : Number) : Prop where
  compareValues : value.compareValues types bound = some difference
  positive : (Number.finite 0).less difference = true ↔ Above types value bound
  negative : difference.less (.finite 0) = true ↔ Above types bound value
  zero : difference = .finite 0 ↔ value.equal types bound = true ∧ ¬ SameInfinity types value bound

theorem above_iff {difference : Number} (h : value.compareValues types bound = some difference) :
    Above types value bound ↔ (Number.finite 0).less difference = true := by
  constructor
  · rintro ⟨other, hother, hless⟩
    rw [h] at hother
    rwa [Option.some.inj hother]
  · exact fun hless => ⟨difference, h, hless⟩

/-- A difference of two numbers. -/
theorem Differs.of_sub {left right : Number}
    (h : value.compareValues types bound = some (left.sub right))
    (hback : bound.compareValues types value = some (right.sub left))
    (hequal : value.equal types bound = true ↔ left = right)
    (hinfinite : SameInfinity types value bound ↔ left = right ∧ left.isFinite = false) :
    Differs types value bound (left.sub right) where
  compareValues := h
  positive := (above_iff h).symm
  negative := by
    rw [above_iff hback, Number.zero_less_sub, Number.sub_less_zero]
  zero := by
    rw [Number.sub_eq_zero_iff, hequal, hinfinite]
    cases left.isFinite <;> simp

/-- A comparison of two texts. -/
theorem Differs.of_text {left right : String} (hcompare : Std.TransCmp types.localeCompare)
    (h : value.compareValues types bound = some (ofOrdering (types.localeCompare left right)))
    (hback : bound.compareValues types value =
      some (ofOrdering (types.localeCompare right left)))
    (hequal : value.equal types bound = true ↔ left = right)
    (htext : types.localeCompare left right = .eq → left = right)
    (hfinite : value.magnitude types = none) :
    Differs types value bound (ofOrdering (types.localeCompare left right)) where
  compareValues := h
  positive := (above_iff h).symm
  negative := by
    rw [above_iff hback, zero_less_ofOrdering, ofOrdering_less_zero, beq_iff_eq, beq_iff_eq,
      Std.OrientedCmp.gt_iff_lt]
  zero := by
    rw [ofOrdering_eq_zero, hequal]
    constructor
    · refine fun heq => ⟨htext heq, ?_⟩
      rintro ⟨negative, hvalue, -⟩
      rw [hfinite] at hvalue
      cases hvalue
    · rintro ⟨rfl, -⟩
      exact Std.ReflCmp.compare_self

theorem sameInfinity_iff {left right : Number} (hleft : left ≠ .nan)
    (hvalue : value.magnitude types = some left) (hbound : bound.magnitude types = some right) :
    SameInfinity types value bound ↔ left = right ∧ left.isFinite = false := by
  rw [SameInfinity, hvalue, hbound]
  constructor
  · rintro ⟨negative, hinfinite, hother⟩
    cases hinfinite
    cases hother
    exact ⟨rfl, rfl⟩
  · rintro ⟨rfl, hinfinite⟩
    cases left with
    | nan => exact absurd rfl hleft
    | infinite negative => exact ⟨negative, rfl, rfl⟩
    | finite value => cases hinfinite

theorem exists_differs (hlawful : types.Lawful) (hvalue : Comparable types kind value)
    (hbound : Comparable types kind bound) :
    ∃ difference, Differs types value bound difference := by
  have hcompare := hlawful.transCmp
  cases hvalue with
  | number left hleft =>
      cases hbound with
      | number right hright =>
          refine ⟨_, Differs.of_sub rfl rfl ?_ (sameInfinity_iff hleft rfl rfl)⟩
          simp [equal, hleft]
  | date left =>
      cases hbound with
      | date right =>
          refine ⟨_, Differs.of_sub rfl rfl ?_ ?_⟩
          · simp [equal, timeOf]
          · simp [SameInfinity, magnitude, timeOf, Number.isFinite]
  | dateOnly left =>
      cases hbound with
      | dateOnly right =>
          exact ⟨_, Differs.of_text hcompare rfl rfl (hlawful.dateOnlyEquals left right)
            (hlawful.dateOnlyText left right) rfl⟩
  | timeOnly left =>
      cases hbound with
      | timeOnly right =>
          exact ⟨_, Differs.of_text hcompare rfl rfl (hlawful.timeOnlyEquals left right)
            (hlawful.timeOnlyText left right) rfl⟩
  | timeSpan left hleft =>
      cases hbound with
      | timeSpan right hright =>
          refine ⟨_, Differs.of_sub rfl rfl ?_ (sameInfinity_iff hleft rfl rfl)⟩
          simp [equal, hleft]

theorem equal_of_sameInfinity (hvalue : Comparable types kind value)
    (hbound : Comparable types kind bound) (h : SameInfinity types value bound) :
    value.equal types bound = true := by
  obtain ⟨negative, hleft, hright⟩ := h
  cases hvalue with
  | number left hleft' =>
      cases hbound with
      | number right hright' =>
          cases hleft
          cases hright
          simp [equal]
  | timeSpan left hleft' =>
      cases hbound with
      | timeSpan right hright' =>
          simp only [magnitude, Option.some.injEq] at hleft hright
          simp [equal, hleft, hright]
  | date left => cases hleft
  | dateOnly left => cases hleft
  | timeOnly left => cases hleft

/-! ### The order of a kind -/

theorem exactlyOne_of_sub {left right : Number} (hleft : left ≠ .nan) (hright : right ≠ .nan)
    (h : value.compareValues types bound = some (left.sub right))
    (hback : bound.compareValues types value = some (right.sub left))
    (hequal : value.equal types bound = true ↔ left = right) :
    ExactlyOne (Above types bound value) (value.equal types bound = true)
      (Above types value bound) := by
  have hirrefl : ∀ {first second : Number}, first.less second = true →
      ¬ second.less first = true := by
    intro first second hless hother
    have hself := Number.less_trans hless hother
    rw [Number.not_less_self] at hself
    cases hself
  rw [above_iff h, above_iff hback, Number.zero_less_sub, Number.zero_less_sub, hequal]
  rcases Number.less_or_eq_or_less hleft hright with hless | rfl | hless
  · refine .inl ⟨hless, ?_, hirrefl hless⟩
    rintro rfl
    exact hirrefl hless hless
  · exact .inr (.inl ⟨by simp [Number.not_less_self], rfl, by simp [Number.not_less_self]⟩)
  · refine .inr (.inr ⟨hirrefl hless, ?_, hless⟩)
    rintro rfl
    exact hirrefl hless hless

theorem exactlyOne_of_text {left right : String} (hcompare : Std.TransCmp types.localeCompare)
    (h : value.compareValues types bound = some (ofOrdering (types.localeCompare left right)))
    (hback : bound.compareValues types value =
      some (ofOrdering (types.localeCompare right left)))
    (hequal : value.equal types bound = true ↔ left = right)
    (htext : types.localeCompare left right = .eq → left = right) :
    ExactlyOne (Above types bound value) (value.equal types bound = true)
      (Above types value bound) := by
  have heq : left = right ↔ types.localeCompare left right = .eq :=
    ⟨fun heq => heq ▸ Std.ReflCmp.compare_self, htext⟩
  rw [above_iff h, above_iff hback, zero_less_ofOrdering, zero_less_ofOrdering, beq_iff_eq,
    beq_iff_eq, Std.OrientedCmp.gt_iff_lt, hequal, heq]
  cases types.localeCompare left right <;> simp [ExactlyOne]

/-- A value is below a bound, equal to it or above it. -/
theorem trichotomy (hlawful : types.Lawful) (hvalue : Comparable types kind value)
    (hbound : Comparable types kind bound) :
    ExactlyOne (Above types bound value) (value.equal types bound = true)
      (Above types value bound) := by
  have hcompare := hlawful.transCmp
  cases hvalue with
  | number left hleft =>
      cases hbound with
      | number right hright =>
          exact exactlyOne_of_sub hleft hright rfl rfl (by simp [equal, hleft])
  | date left =>
      cases hbound with
      | date right =>
          exact exactlyOne_of_sub (timeOf_ne_nan left) (timeOf_ne_nan right) rfl rfl
            (by simp [equal, timeOf])
  | dateOnly left =>
      cases hbound with
      | dateOnly right =>
          exact exactlyOne_of_text hcompare rfl rfl (hlawful.dateOnlyEquals left right)
            (hlawful.dateOnlyText left right)
  | timeOnly left =>
      cases hbound with
      | timeOnly right =>
          exact exactlyOne_of_text hcompare rfl rfl (hlawful.timeOnlyEquals left right)
            (hlawful.timeOnlyText left right)
  | timeSpan left hleft =>
      cases hbound with
      | timeSpan right hright =>
          exact exactlyOne_of_sub hleft hright rfl rfl (by simp [equal, hleft])

theorem Above.trans (hlawful : types.Lawful) {other : RuleValue δ τ σ}
    (hvalue : Comparable types kind value) (hbound : Comparable types kind bound)
    (hother : Comparable types kind other) (habove : Above types value bound)
    (hbelow : Above types bound other) : Above types value other := by
  have hcompare := hlawful.transCmp
  have htexts : ∀ left middle right : String,
      (Number.finite 0).less (ofOrdering (types.localeCompare left middle)) = true →
      (Number.finite 0).less (ofOrdering (types.localeCompare middle right)) = true →
      (Number.finite 0).less (ofOrdering (types.localeCompare left right)) = true := by
    intro left middle right hleft hright
    rw [zero_less_ofOrdering, beq_iff_eq] at hleft hright ⊢
    exact Std.TransCmp.gt_trans hleft hright
  have hnumbers : ∀ left middle right : Number,
      (Number.finite 0).less (left.sub middle) = true →
      (Number.finite 0).less (middle.sub right) = true →
      (Number.finite 0).less (left.sub right) = true := by
    intro left middle right hleft hright
    rw [Number.zero_less_sub] at hleft hright ⊢
    exact Number.less_trans hright hleft
  cases hvalue with
  | number left hleft =>
      cases hbound with
      | number middle hmiddle =>
          cases hother with
          | number right hright =>
              rw [above_iff rfl] at habove hbelow ⊢
              exact hnumbers _ _ _ habove hbelow
  | date left =>
      cases hbound with
      | date middle =>
          cases hother with
          | date right =>
              rw [above_iff rfl] at habove hbelow ⊢
              exact hnumbers _ _ _ habove hbelow
  | dateOnly left =>
      cases hbound with
      | dateOnly middle =>
          cases hother with
          | dateOnly right =>
              rw [above_iff rfl] at habove hbelow ⊢
              exact htexts _ _ _ habove hbelow
  | timeOnly left =>
      cases hbound with
      | timeOnly middle =>
          cases hother with
          | timeOnly right =>
              rw [above_iff rfl] at habove hbelow ⊢
              exact htexts _ _ _ habove hbelow
  | timeSpan left hleft =>
      cases hbound with
      | timeSpan middle hmiddle =>
          cases hother with
          | timeSpan right hright =>
              rw [above_iff rfl] at habove hbelow ⊢
              exact hnumbers _ _ _ habove hbelow

end RuleValue

/-! ### The comparison rules -/

section Comparisons

variable {δ τ σ : Type} (types : ValueTypes δ τ σ)

/-- A bound as the argument of a rule. -/
def argument : RuleValue δ τ σ → Argument (Operand δ τ σ)
  | .number bound => .number bound
  | bound => .value (.value bound)

/-- The rule holds of the value. -/
def Accepts (rule : Addition (Operand δ τ σ)) (value : RuleValue δ τ σ) : Prop :=
  evaluateRule types rule.kind rule.args value = .ok true

/-- The comparison rules say of a value and two bounds what they should say together. -/
structure ConsistentRules (value a b : RuleValue δ τ σ) : Prop where
  atLeast : Accepts types (greaterThanOrEqual (argument a)) value ↔
    Accepts types (greaterThan (argument a)) value ∨ Accepts types (equal (argument a)) value
  atMost : Accepts types (lessThanOrEqual (argument a)) value ↔
    Accepts types (lessThan (argument a)) value ∨ Accepts types (equal (argument a)) value
  exactlyOne : RuleValue.ExactlyOne (Accepts types (lessThan (argument a)) value)
    (Accepts types (equal (argument a)) value) (Accepts types (greaterThan (argument a)) value)
  between : Accepts types (inclusiveBetween (argument a) (argument b)) value ↔
    Accepts types (greaterThanOrEqual (argument a)) value ∧
      Accepts types (lessThanOrEqual (argument b)) value
  strictlyBetween : Accepts types (exclusiveBetween (argument a) (argument b)) value ↔
    Accepts types (greaterThan (argument a)) value ∧
      Accepts types (lessThan (argument b)) value
  above_trans : Accepts types (greaterThan (argument a)) value →
    Accepts types (greaterThan (argument b)) a → Accepts types (greaterThan (argument b)) value
  below_trans : Accepts types (lessThan (argument a)) value →
    Accepts types (lessThan (argument b)) a → Accepts types (lessThan (argument b)) value

variable {types} {value a b : RuleValue δ τ σ} {difference : Number}

theorem value?_argument (bound : RuleValue δ τ σ) : (argument bound).value? = some bound := by
  cases bound <;> rfl

theorem differenceFrom_argument (h : value.compareValues types a = some difference)
    (missing : Number) : differenceFrom types value (some (argument a)) missing = difference := by
  rw [differenceFrom, Option.bind_some, value?_argument, Option.bind_some, h]
  rfl

theorem not_isNullish {kind : ComparableKind} (h : value.Comparable types kind) :
    value.isNullish = false := by
  cases h <;> rfl

theorem comparisonRule_eq_true {holds : Bool} (h : value.isNullish = false) :
    comparisonRule value holds = .ok true ↔ holds = true := by
  rw [comparisonRule, h, Bool.false_or, Except.ok.injEq]

theorem zero_lessEqual_iff : (Number.finite 0).lessEqual difference = true ↔
    (Number.finite 0).less difference = true ∨ difference = .finite 0 := by
  rw [Number.lessEqual, Bool.or_eq_true, Bool.and_eq_true, beq_iff_eq]
  exact or_congr_right ⟨fun h => h.1.symm, fun h => ⟨h.symm, rfl⟩⟩

theorem lessEqual_zero_iff : difference.lessEqual (.finite 0) = true ↔
    difference.less (.finite 0) = true ∨ difference = .finite 0 := by
  rw [Number.lessEqual, Bool.or_eq_true, Bool.and_eq_true, beq_iff_eq]
  refine or_congr_right ⟨fun h => h.1, fun h => ⟨h, ?_⟩⟩
  rw [h]
  rfl

/-! #### One bound -/

section Bound

variable (hnull : value.isNullish = false) (h : RuleValue.Differs types value a difference)
include hnull h

theorem accepts_greaterThan :
    Accepts types (greaterThan (argument a)) value ↔ RuleValue.Above types value a := by
  rw [← h.positive, ← comparisonRule_eq_true hnull,
    ← differenceFrom_argument h.compareValues (.infinite true)]
  rfl

theorem accepts_lessThan :
    Accepts types (lessThan (argument a)) value ↔ RuleValue.Above types a value := by
  rw [← h.negative, ← comparisonRule_eq_true hnull,
    ← differenceFrom_argument h.compareValues (.infinite false)]
  rfl

theorem accepts_greaterThanOrEqual :
    Accepts types (greaterThanOrEqual (argument a)) value ↔ RuleValue.Above types value a ∨
      (value.equal types a = true ∧ ¬ RuleValue.SameInfinity types value a) := by
  rw [← h.positive, ← h.zero, ← zero_lessEqual_iff, ← comparisonRule_eq_true hnull,
    ← differenceFrom_argument h.compareValues (.infinite true)]
  rfl

theorem accepts_lessThanOrEqual :
    Accepts types (lessThanOrEqual (argument a)) value ↔ RuleValue.Above types a value ∨
      (value.equal types a = true ∧ ¬ RuleValue.SameInfinity types value a) := by
  rw [← h.negative, ← h.zero, ← lessEqual_zero_iff, ← comparisonRule_eq_true hnull,
    ← differenceFrom_argument h.compareValues (.infinite false)]
  rfl

end Bound

theorem accepts_equal :
    Accepts types (equal (argument a)) value ↔ value.equal types a = true := by
  change Except.ok (equalsArgument types value (some (argument a))) = Except.ok true ↔ _
  rw [equalsArgument, value?_argument, Option.any_some, Except.ok.injEq]

/-! #### Two bounds -/

section Between

variable (hnull : value.isNullish = false)
include hnull

theorem accepts_inclusiveBetween :
    Accepts types (inclusiveBetween (argument a) (argument b)) value ↔
      Accepts types (greaterThanOrEqual (argument a)) value ∧
        Accepts types (lessThanOrEqual (argument b)) value := by
  have hlower : Accepts types (greaterThanOrEqual (argument a)) value ↔
      (Number.finite 0).lessEqual
        (differenceFrom types value (some (argument a)) (.infinite true)) = true :=
    comparisonRule_eq_true hnull
  have hupper : Accepts types (lessThanOrEqual (argument b)) value ↔
      (differenceFrom types value (some (argument b)) (.infinite false)).lessEqual
        (.finite 0) = true := comparisonRule_eq_true hnull
  rw [hlower, hupper, ← Bool.and_eq_true]
  exact comparisonRule_eq_true hnull

theorem accepts_exclusiveBetween :
    Accepts types (exclusiveBetween (argument a) (argument b)) value ↔
      Accepts types (greaterThan (argument a)) value ∧
        Accepts types (lessThan (argument b)) value := by
  have hlower : Accepts types (greaterThan (argument a)) value ↔
      (Number.finite 0).less
        (differenceFrom types value (some (argument a)) (.infinite true)) = true :=
    comparisonRule_eq_true hnull
  have hupper : Accepts types (lessThan (argument b)) value ↔
      (differenceFrom types value (some (argument b)) (.infinite false)).less
        (.finite 0) = true := comparisonRule_eq_true hnull
  rw [hlower, hupper, ← Bool.and_eq_true]
  exact comparisonRule_eq_true hnull

end Between

/-- The comparison rules agree exactly if the value and the bound are not the same infinity:
that one equals the bound, but their difference is no number. -/
theorem comparisonRules_consistent_iff (hlawful : types.Lawful) {kind : ComparableKind}
    (hvalue : value.comparableKind types = some kind) (ha : a.comparableKind types = some kind)
    (hb : b.comparableKind types = some kind) :
    ConsistentRules types value a b ↔ ¬ RuleValue.SameInfinity types value a := by
  replace hvalue := RuleValue.comparable_of_kind types hvalue
  replace ha := RuleValue.comparable_of_kind types ha
  replace hb := RuleValue.comparable_of_kind types hb
  have hnull := not_isNullish hvalue
  obtain ⟨first, hfirst⟩ := RuleValue.exists_differs hlawful hvalue ha
  obtain ⟨second, hsecond⟩ := RuleValue.exists_differs hlawful hvalue hb
  obtain ⟨third, hthird⟩ := RuleValue.exists_differs hlawful ha hb
  have hone := RuleValue.trichotomy hlawful hvalue ha
  constructor
  · intro hconsistent hinfinite
    have hsame : value.equal types a = true :=
      RuleValue.equal_of_sameInfinity hvalue ha hinfinite
    have hgreater := hconsistent.atLeast.2 (.inr (accepts_equal.2 hsame))
    rcases (accepts_greaterThanOrEqual hnull hfirst).1 hgreater with habove | ⟨-, hnot⟩
    · rcases hone with ⟨-, -, hno⟩ | ⟨-, -, hno⟩ | ⟨-, hno, -⟩
      · exact hno habove
      · exact hno habove
      · exact hno hsame
    · exact hnot hinfinite
  · intro hinfinite
    exact {
      atLeast := by
        rw [accepts_greaterThanOrEqual hnull hfirst, accepts_greaterThan hnull hfirst,
          accepts_equal, and_iff_left hinfinite]
      atMost := by
        rw [accepts_lessThanOrEqual hnull hfirst, accepts_lessThan hnull hfirst,
          accepts_equal, and_iff_left hinfinite]
      exactlyOne := by
        rw [accepts_lessThan hnull hfirst, accepts_greaterThan hnull hfirst, accepts_equal]
        exact hone
      between := accepts_inclusiveBetween hnull
      strictlyBetween := accepts_exclusiveBetween hnull
      above_trans := by
        rw [accepts_greaterThan hnull hfirst, accepts_greaterThan (not_isNullish ha) hthird,
          accepts_greaterThan hnull hsecond]
        exact RuleValue.Above.trans hlawful hvalue ha hb
      below_trans := by
        rw [accepts_lessThan hnull hfirst, accepts_lessThan (not_isNullish ha) hthird,
          accepts_lessThan hnull hsecond]
        exact fun hbelow habove => RuleValue.Above.trans hlawful hb ha hvalue habove hbelow }

end Comparisons

/-! ### Infinity as a bound -/

/-- Value types whose dates and times are their texts. -/
def textTypes : ValueTypes String String ℤ where
  dateOnlyText := id
  dateOnlyEquals left right := left == right
  timeOnlyText := id
  timeOnlyEquals left right := left == right
  ticks value := .finite value
  guidEquals left right := left == right
  emptyGuid := "00000000-0000-0000-0000-000000000000"
  localeCompare := compare
  whiteSpaceOnly text := text.all Char.isWhitespace
  emailAddress text := text.contains '@'
  phone text := text.all Char.isDigit
  url text := text.startsWith "https://"
  test _ _ _ := true

theorem textTypes_lawful : textTypes.Lawful where
  dateOnlyEquals _ _ := beq_iff_eq
  timeOnlyEquals _ _ := beq_iff_eq
  transCmp := inferInstanceAs (Std.TransOrd String)
  dateOnlyText _ _ h := Std.LawfulEqOrd.eq_of_compare h
  timeOnlyText _ _ h := Std.LawfulEqOrd.eq_of_compare h

theorem comparisonRules_consistent_numbers :
    ConsistentRules textTypes (.number (.finite 3)) (.number (.finite 5))
        (.number (.infinite false)) ↔
      ¬ RuleValue.SameInfinity textTypes (.number (.finite 3)) (.number (.finite 5)) :=
  comparisonRules_consistent_iff textTypes_lawful rfl rfl rfl

/-- Infinity equals infinity and is not at least infinity. -/
theorem infinity_not_consistent :
    Accepts textTypes (equal (argument (.number (.infinite false)))) (.number (.infinite false)) ∧
      ¬ Accepts textTypes (greaterThanOrEqual (argument (.number (.infinite false))))
        (.number (.infinite false)) ∧
      ¬ ConsistentRules textTypes (.number (.infinite false)) (.number (.infinite false))
        (.number (.infinite false)) := by
  have hequal : Accepts textTypes (equal (argument (.number (.infinite false))))
      (.number (.infinite false)) := rfl
  have hless : ¬ Accepts textTypes (greaterThanOrEqual (argument (.number (.infinite false))))
      (.number (.infinite false)) := by
    intro h
    have hfalse : evaluateRule textTypes "greaterThanOrEqual"
        [argument (.number (.infinite false))] (.number (.infinite false)) = .ok false := rfl
    have htrue : evaluateRule textTypes "greaterThanOrEqual"
        [argument (.number (.infinite false))] (.number (.infinite false)) = .ok true := h
    rw [hfalse] at htrue
    cases htrue
  exact ⟨hequal, hless, fun hconsistent => hless (hconsistent.atLeast.2 (.inr hequal))⟩

end Arc.Validation
