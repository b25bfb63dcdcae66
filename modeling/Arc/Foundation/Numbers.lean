import Mathlib.Data.Rat.Lemmas
import Mathlib.Algebra.Order.Ring.Unbundled.Rat

/-!
# Numbers of the language

A number is finite, infinite or not a number at all. The finite ones are the rationals the
floating-point numbers stand for; rounding happens where numbers are computed. Of what is
computed only the sign is asked, which rounding keeps: a difference is zero only of equals.
-/

namespace Arc

/-- A number; `-0` and `0` are one value here, since no comparison tells them apart. -/
inductive Number
  | nan
  | infinite (negative : Bool)
  | finite (value : ℚ)
  deriving DecidableEq

namespace Number

/-- `Number.MAX_SAFE_INTEGER` -/
def maxSafe : ℚ := 9007199254740991

/-- `Number.isFinite(value)` -/
def isFinite : Number → Bool
  | finite _ => true
  | _ => false

/-- `Number.isSafeInteger(value)` -/
def isSafeInteger : Number → Bool
  | finite value => value.den = 1 && decide (|value| ≤ maxSafe)
  | _ => false

/-- `value < other` -/
def less : Number → Number → Bool
  | nan, _ => false
  | _, nan => false
  | infinite true, infinite true => false
  | infinite true, _ => true
  | _, infinite true => false
  | infinite false, _ => false
  | _, infinite false => true
  | finite value, finite other => value < other

/-- `value <= other` -/
def lessEqual (value other : Number) : Bool :=
  value.less other || (value == other && value != nan)

/-- `value - other` up to rounding -/
def sub : Number → Number → Number
  | nan, _ => nan
  | _, nan => nan
  | infinite negative, infinite other => if negative = other then nan else infinite negative
  | infinite negative, finite _ => infinite negative
  | finite _, infinite other => infinite !other
  | finite value, finite other => finite (value - other)

section Comparisons

attribute [local simp] less sub

theorem zero_less_sub (value other : Number) :
    (finite 0).less (value.sub other) = other.less value := by
  rcases value with _ | (_ | _) | first <;> rcases other with _ | (_ | _) | second <;>
    simp

theorem sub_less_zero (value other : Number) :
    (value.sub other).less (finite 0) = value.less other := by
  rcases value with _ | (_ | _) | first <;> rcases other with _ | (_ | _) | second <;>
    simp

/-- Two infinities of one sign have no difference. -/
theorem sub_eq_zero_iff {value other : Number} :
    value.sub other = finite 0 ↔ value = other ∧ value.isFinite = true := by
  rcases value with _ | (_ | _) | first <;> rcases other with _ | (_ | _) | second <;>
    simp [isFinite, sub_eq_zero]

theorem less_trans {a b c : Number} (hab : a.less b = true) (hbc : b.less c = true) :
    a.less c = true := by
  rcases a with _ | (_ | _) | first <;> rcases b with _ | (_ | _) | value <;>
    rcases c with _ | (_ | _) | last <;> simp_all
  exact hab.trans hbc

theorem not_less_self (value : Number) : value.less value = false := by
  rcases value with _ | (_ | _) | value <;> simp

/-- Numbers that are numbers are equal or one is the lesser. -/
theorem less_or_eq_or_less {value other : Number} (hvalue : value ≠ nan) (hother : other ≠ nan) :
    value.less other = true ∨ value = other ∨ other.less value = true := by
  rcases value with _ | (_ | _) | first <;> rcases other with _ | (_ | _) | second <;>
    simp_all
  exact lt_trichotomy first second

end Comparisons

end Number

end Arc
