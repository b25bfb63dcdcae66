import Arc.Foundation.Numbers
import Mathlib.Data.Int.Log
import Mathlib.Data.Rat.Floor

/-!
# Rounding to floating-point numbers

A rational is rounded to the nearest number of 53 significant bits, to the even one of two that
are as near, and from half a unit above the greatest number on to an infinity. The finite numbers
are the rationals that are rounded to themselves.
-/

namespace Arc.Number

/-- The nearest integer, the even one of two. -/
def roundEven (value : ℚ) : ℤ :=
  let below := ⌊value⌋
  let above := value - below
  if above < 1 / 2 then below
  else if 1 / 2 < above then below + 1
  else if below % 2 = 0 then below
  else below + 1

/-- The distance of the numbers around a rational. -/
def spacing (value : ℚ) : ℚ := 2 ^ (max (Int.log 2 |value|) (-1022) - 52)

/-- The number for a rational. -/
def ofRat (value : ℚ) : Number :=
  if value = 0 then .finite 0
  else
    let rounded := roundEven (value / spacing value) * spacing value
    if |rounded| < 2 ^ 1024 then .finite rounded else .infinite (value < 0)

theorem roundEven_intCast (value : ℤ) : roundEven (value : ℚ) = value := by
  unfold roundEven
  simp

/-- An integer under `2 ^ 53` is a number of its own. -/
theorem ofRat_intCast {value : ℤ} (h : |value| < 2 ^ 53) :
    ofRat (value : ℚ) = .finite value := by
  by_cases hzero : value = 0
  · simp [ofRat, hzero]
  have hone : (1 : ℚ) ≤ |(value : ℚ)| := by
    have : 1 ≤ |value| := Int.one_le_abs hzero
    exact_mod_cast this
  have hlow : 0 ≤ Int.log 2 |(value : ℚ)| :=
    (Int.zpow_le_iff_le_log (by decide) (by linarith)).1 (by simpa using hone)
  have hhigh : Int.log 2 |(value : ℚ)| < 53 := by
    refine (Int.lt_zpow_iff_log_lt (by decide) (by linarith)).1 ?_
    exact_mod_cast h
  obtain ⟨places, hplaces⟩ : ∃ places : ℕ, 52 - Int.log 2 |(value : ℚ)| = places :=
    Int.eq_ofNat_of_zero_le (by omega)
  have hspacing : spacing value = ((2 : ℚ) ^ places)⁻¹ := by
    have hexponent : max (Int.log 2 |(value : ℚ)|) (-1022) - 52 = -(places : ℤ) := by omega
    unfold spacing
    rw [hexponent, zpow_neg, zpow_natCast]
  have hscaled : (value : ℚ) / spacing value = ((value * 2 ^ places : ℤ) : ℚ) := by
    rw [hspacing, div_inv_eq_mul]
    push_cast
    rfl
  have hrounded : (roundEven (value / spacing value) : ℚ) * spacing value = value := by
    rw [hscaled, roundEven_intCast, hspacing]
    push_cast
    rw [mul_assoc, mul_inv_cancel₀ (by positivity), mul_one]
  have hbound : |(value : ℚ)| < 2 ^ 1024 := by
    have hvalue : |(value : ℚ)| < 2 ^ 53 := by exact_mod_cast h
    exact hvalue.trans_le (pow_le_pow_right₀ (by norm_num) (by norm_num))
  unfold ofRat
  dsimp only
  rw [hrounded, if_neg (by exact_mod_cast hzero), if_pos hbound]

end Arc.Number
