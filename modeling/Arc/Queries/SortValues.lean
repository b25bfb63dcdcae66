import Arc.Foundation.Numbers
import Arc.Foundation.StableSort
import Arc.Queries.QueryRendering

/-!
# The values arrays are sorted by

An array is sorted by the values of a field. Two values of one kind are compared as such a
kind is, absent values come first, and two values of different kinds are compared as texts:
this is no order on values of different kinds, and none with values that are not a number.
`orderedOn_of_ofOneKind` says where it is one.

The text of a value and the comparison of texts are the language's.
-/

namespace Arc.Queries

/-- What a field of an item holds. A BSON value has the name of its type, and a value that is
none of these has only its text. -/
inductive SortValue
  | null
  | number (value : Number)
  | string (text : String)
  | boolean (value : Bool)
  | bigint (value : ℤ)
  | date (time : Number)
  | guid (text : String)
  | dateOnly (year month day : ℤ)
  | timeOnly (hour minute second millisecond : ℤ)
  | timeSpan (ticks : ℤ)
  | bson (type text : String)
  | concept (value : SortValue)
  | other (text : String)
  deriving DecidableEq

/-- `String(value)` for values that are no texts, and `localeCompare`. -/
structure TextPlatform where
  toText : SortValue → String
  localeCompare : String → String → Ordering

namespace SortValue

def scalarBsonTypes : List String :=
  ["ObjectId", "Decimal128", "Long", "Int32", "Double", "Binary", "UUID", "Timestamp"]

def isScalarSortValue : SortValue → Bool
  | concept value => value.isScalarSortValue
  | bson type _ => scalarBsonTypes.contains type
  | other _ => false
  | _ => true

/-- The value of a concept, of a concept of a concept, and so on. -/
def unwrapped : SortValue → SortValue
  | concept value => value.unwrapped
  | value => value

def text (platform : TextPlatform) : SortValue → String
  | string text => text
  | guid text => text
  | bson _ text => text
  | other text => text
  | value => platform.toText value

/-- The sign of `left - right`, which is not a number for one that is not or for two infinities
of one sign, and then counts as zero. -/
def difference (left right : Number) : Ordering :=
  if left.less right then .lt else if right.less left then .gt else .eq

/-- `compareValues` on values that are no concepts -/
def compareUnwrapped (platform : TextPlatform) : SortValue → SortValue → Ordering
  | date left, date right => difference left right
  | null, null => .eq
  | null, _ => .lt
  | _, null => .gt
  | dateOnly year month day, dateOnly year' month' day' =>
      (compare year year').then ((compare month month').then (compare day day'))
  | timeOnly hour minute second millisecond, timeOnly hour' minute' second' millisecond' =>
      (compare hour hour').then ((compare minute minute').then
        ((compare second second').then (compare millisecond millisecond')))
  | timeSpan left, timeSpan right => compare left right
  | number left, number right => difference left right
  | bigint left, bigint right => compare left right
  | boolean left, boolean right => compare left right
  | left, right => platform.localeCompare (left.text platform) (right.text platform)

def compareValues (platform : TextPlatform) (left right : SortValue) : Ordering :=
  compareUnwrapped platform left.unwrapped right.unwrapped

/-! ### Values of one kind -/

/-- How a value is compared with those of its kind. -/
inductive Kind
  | number
  | boolean
  | bigint
  | date
  | dateOnly
  | timeOnly
  | timeSpan
  | text
  deriving DecidableEq, Repr

def kind : SortValue → Option Kind
  | null => none
  | number _ => some .number
  | boolean _ => some .boolean
  | bigint _ => some .bigint
  | date _ => some .date
  | dateOnly .. => some .dateOnly
  | timeOnly .. => some .timeOnly
  | timeSpan _ => some .timeSpan
  | concept value => value.kind
  | string _ | guid _ | bson .. | other _ => some .text

/-- The value is a number that is not one, or a date that is none. -/
def isNaN : SortValue → Bool
  | number .nan => true
  | date .nan => true
  | concept value => value.isNaN
  | _ => false

/-- The values other than null are of one kind, and none is not a number. -/
def OfOneKind (values : List SortValue) : Prop :=
  ∃ kind, ∀ value ∈ values, (value.kind = none ∨ value.kind = some kind) ∧ value.isNaN = false

/-! ### Numbers -/

theorem not_less_trans {a b c : Number} (hb : b ≠ .nan) (hab : b.less a = false)
    (hbc : c.less b = false) : c.less a = false := by
  rcases a with _ | (_ | _) | first <;> rcases b with _ | (_ | _) | value <;>
    rcases c with _ | (_ | _) | last <;> simp_all [Number.less]
  exact hab.trans hbc

theorem less_asymm {a b : Number} (h : a.less b = true) : b.less a = false := by
  rcases a with _ | (_ | _) | first <;> rcases b with _ | (_ | _) | value <;>
    simp_all [Number.less]
  exact h.le

theorem isLE_difference (a b : Number) : (difference a b).isLE = !b.less a := by
  unfold difference
  cases hab : a.less b with
  | true => simp [less_asymm hab]
  | false => cases b.less a <;> rfl

theorem swap_difference (a b : Number) : difference b a = (difference a b).swap := by
  unfold difference
  cases hab : a.less b with
  | true => simp [less_asymm hab]
  | false => cases b.less a <;> rfl

/-! ### The comparison of one kind -/

def isText : SortValue → Bool
  | string _ | guid _ | bson .. | other _ => true
  | _ => false

/-- The forms of the values of each kind. -/
inductive Shaped : Kind → SortValue → Prop
  | number (value : Number) (h : value ≠ .nan) : Shaped .number (number value)
  | boolean (value : Bool) : Shaped .boolean (boolean value)
  | bigint (value : ℤ) : Shaped .bigint (bigint value)
  | date (time : Number) (h : time ≠ .nan) : Shaped .date (date time)
  | dateOnly (year month day : ℤ) : Shaped .dateOnly (dateOnly year month day)
  | timeOnly (hour minute second millisecond : ℤ) :
      Shaped .timeOnly (timeOnly hour minute second millisecond)
  | timeSpan (ticks : ℤ) : Shaped .timeSpan (timeSpan ticks)
  | text (value : SortValue) (h : value.isText = true) : Shaped .text value

theorem shaped_unwrapped {kind : Kind} {value : SortValue} (h : value.kind = some kind)
    (hnan : value.isNaN = false) : Shaped kind value.unwrapped := by
  induction value with
  | null => cases h
  | number value =>
      cases h
      refine Shaped.number value ?_
      rintro rfl
      cases hnan
  | date time =>
      cases h
      refine Shaped.date time ?_
      rintro rfl
      cases hnan
  | concept value ih => exact ih h hnan
  | boolean value =>
      cases h
      exact Shaped.boolean value
  | bigint value =>
      cases h
      exact Shaped.bigint value
  | dateOnly year month day =>
      cases h
      exact Shaped.dateOnly year month day
  | timeOnly hour minute second millisecond =>
      cases h
      exact Shaped.timeOnly hour minute second millisecond
  | timeSpan ticks =>
      cases h
      exact Shaped.timeSpan ticks
  | string text =>
      cases h
      exact Shaped.text _ rfl
  | guid text =>
      cases h
      exact Shaped.text _ rfl
  | bson type text =>
      cases h
      exact Shaped.text _ rfl
  | other text =>
      cases h
      exact Shaped.text _ rfl

theorem unwrapped_eq_null {value : SortValue} (h : value.kind = none) :
    value.unwrapped = null := by
  induction value with
  | null => rfl
  | concept value ih => exact ih h
  | _ => cases h

variable {platform : TextPlatform} {kind : Kind} {a b c : SortValue}

theorem compareUnwrapped_text (ha : a.isText = true) (hb : b.isText = true) :
    compareUnwrapped platform a b = platform.localeCompare (a.text platform) (b.text platform) := by
  cases a <;> cases ha <;> cases b <;> first | rfl | cases hb

theorem compare_null_left (h : Shaped kind a) : compareUnwrapped platform null a = .lt := by
  cases h with
  | text _ h => cases a <;> first | rfl | cases h
  | _ => rfl

theorem compare_null_right (h : Shaped kind a) : compareUnwrapped platform a null = .gt := by
  cases h with
  | text _ h => cases a <;> first | rfl | cases h
  | _ => rfl

abbrev compareDays : ℤ × ℤ × ℤ → ℤ × ℤ × ℤ → Ordering :=
  compareLex (compareOn (·.1)) (compareLex (compareOn (·.2.1)) (compareOn (·.2.2)))

abbrev compareTimes : ℤ × ℤ × ℤ × ℤ → ℤ × ℤ × ℤ × ℤ → Ordering :=
  compareLex (compareOn (·.1)) (compareLex (compareOn (·.2.1))
    (compareLex (compareOn (·.2.2.1)) (compareOn (·.2.2.2))))

theorem compareUnwrapped_swap [Std.TransCmp platform.localeCompare] (ha : Shaped kind a)
    (hb : Shaped kind b) :
    compareUnwrapped platform b a = (compareUnwrapped platform a b).swap := by
  cases ha with
  | number value _ =>
      cases hb with
      | number other _ => exact swap_difference value other
  | boolean value =>
      cases hb with
      | boolean other => exact (Std.OrientedOrd.eq_swap : compare other value = _)
  | bigint value =>
      cases hb with
      | bigint other => exact (Std.OrientedOrd.eq_swap : compare other value = _)
  | date time _ =>
      cases hb with
      | date other _ => exact swap_difference time other
  | dateOnly year month day =>
      cases hb with
      | dateOnly year' month' day' =>
          exact (Std.OrientedCmp.eq_swap : compareDays (year', month', day') (year, month, day) = _)
  | timeOnly hour minute second millisecond =>
      cases hb with
      | timeOnly hour' minute' second' millisecond' =>
          exact (Std.OrientedCmp.eq_swap : compareTimes (hour', minute', second', millisecond')
            (hour, minute, second, millisecond) = _)
  | timeSpan ticks =>
      cases hb with
      | timeSpan other => exact (Std.OrientedOrd.eq_swap : compare other ticks = _)
  | text _ ha =>
      cases hb with
      | text _ hb =>
          rw [compareUnwrapped_text ha hb, compareUnwrapped_text hb ha]
          exact Std.OrientedCmp.eq_swap

theorem isLE_difference_trans {a b c : Number} (hb : b ≠ .nan) (hab : (difference a b).isLE = true)
    (hbc : (difference b c).isLE = true) : (difference a c).isLE = true := by
  rw [isLE_difference, Bool.not_eq_true'] at *
  exact not_less_trans hb hab hbc

theorem compareUnwrapped_trans [Std.TransCmp platform.localeCompare] (ha : Shaped kind a)
    (hb : Shaped kind b) (hc : Shaped kind c)
    (hab : (compareUnwrapped platform a b).isLE = true)
    (hbc : (compareUnwrapped platform b c).isLE = true) :
    (compareUnwrapped platform a c).isLE = true := by
  cases ha with
  | number value _ =>
      cases hb with
      | number other hother =>
          cases hc with
          | number last _ => exact isLE_difference_trans hother hab hbc
  | boolean value =>
      cases hb with
      | boolean other =>
          cases hc with
          | boolean last =>
              exact (Std.TransOrd.isLE_trans hab hbc : (compare value last).isLE = true)
  | bigint value =>
      cases hb with
      | bigint other =>
          cases hc with
          | bigint last =>
              exact (Std.TransOrd.isLE_trans hab hbc : (compare value last).isLE = true)
  | date time _ =>
      cases hb with
      | date other hother =>
          cases hc with
          | date last _ => exact isLE_difference_trans hother hab hbc
  | dateOnly year month day =>
      cases hb with
      | dateOnly year' month' day' =>
          cases hc with
          | dateOnly last lastMonth lastDay =>
              change (compareDays (year, month, day) (year', month', day')).isLE = true at hab
              have htrans : (compareDays (year, month, day) (last, lastMonth, lastDay)).isLE =
                  true := Std.TransCmp.isLE_trans hab hbc
              exact htrans
  | timeOnly hour minute second millisecond =>
      cases hb with
      | timeOnly hour' minute' second' millisecond' =>
          cases hc with
          | timeOnly last lastMinute lastSecond lastMillisecond =>
              change (compareTimes (hour, minute, second, millisecond)
                (hour', minute', second', millisecond')).isLE = true at hab
              have htrans : (compareTimes (hour, minute, second, millisecond)
                  (last, lastMinute, lastSecond, lastMillisecond)).isLE = true :=
                Std.TransCmp.isLE_trans hab hbc
              exact htrans
  | timeSpan ticks =>
      cases hb with
      | timeSpan other =>
          cases hc with
          | timeSpan last =>
              exact (Std.TransOrd.isLE_trans hab hbc : (compare ticks last).isLE = true)
  | text _ ha =>
      cases hb with
      | text _ hb =>
          cases hc with
          | text _ hc =>
              rw [compareUnwrapped_text ha hb] at hab
              rw [compareUnwrapped_text hb hc] at hbc
              rw [compareUnwrapped_text ha hc]
              exact Std.TransCmp.isLE_trans hab hbc

/-- Among values of one kind and nulls, `compareValues` is an order. -/
theorem orderedOn_of_ofOneKind [Std.TransCmp platform.localeCompare] {values : List SortValue}
    (h : OfOneKind values) : OrderedOn (compareValues platform) values := by
  obtain ⟨kind, hall⟩ := h
  have hform : ∀ value ∈ values, value.unwrapped = null ∨ Shaped kind value.unwrapped := by
    intro value hmem
    obtain ⟨hkind, hnan⟩ := hall value hmem
    exact hkind.imp unwrapped_eq_null fun hkind => shaped_unwrapped hkind hnan
  unfold compareValues
  constructor
  · intro a ha b hb
    rcases hform a ha with ha | ha
    · rcases hform b hb with hb | hb
      · rw [ha, hb]
        rfl
      · rw [ha, compare_null_left hb, compare_null_right hb]
        rfl
    · rcases hform b hb with hb | hb
      · rw [hb, compare_null_left ha, compare_null_right ha]
        rfl
      · exact compareUnwrapped_swap ha hb
  · intro a ha b hb c hc hab hbc
    rcases hform a ha with ha | ha
    · rcases hform c hc with hc | hc
      · rw [ha, hc]
        rfl
      · rw [ha, compare_null_left hc]
        rfl
    · rcases hform b hb with hb | hb
      · rw [hb, compare_null_right ha] at hab
        cases hab
      · rcases hform c hc with hc | hc
        · rw [hc, compare_null_right hb] at hbc
          cases hbc
        · exact compareUnwrapped_trans ha hb hc hab hbc

end SortValue

end Arc.Queries
