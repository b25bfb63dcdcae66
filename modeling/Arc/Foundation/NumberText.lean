import Arc.Foundation.Doubles
import Mathlib.Data.Nat.Digits.Lemmas

/-!
# Texts of numbers

The text of a finite number has the fewest decimal digits that are rounded to the number, and of
the decimals with so many digits the nearest. A number from `10 ^ 21` on, or under `10 ^ -6`, is
written with an exponent.
-/

namespace Arc.Number

/-- A finite number of the language. -/
structure Double where
  value : ℚ
  rounded : ofRat value = .finite value

/-- An integer that the language has. -/
def Double.ofInt (value : ℤ) (h : |value| < 2 ^ 53) : Double := ⟨value, ofRat_intCast h⟩

/-- The digits of a number, with the point after the first `point` of them. -/
structure Decimal where
  significand : ℕ
  point : ℤ

/-! ### Digits -/

/-- The digits of a positive number. -/
def digits (number : ℕ) : List Char := (Nat.digits 10 number).reverse.map Nat.digitChar

/-- The value of a sequence of digits. -/
def digitsValue (text : List Char) : ℕ :=
  text.foldl (fun value digit => 10 * value + (digit.toNat - 48)) 0

theorem digitChar_spec {digit : ℕ} (h : digit < 10) :
    (Nat.digitChar digit).isDigit = true ∧ (Nat.digitChar digit).toNat - 48 = digit := by
  interval_cases digit <;> decide

theorem isDigit_of_mem_digits {number : ℕ} {c : Char} (h : c ∈ digits number) :
    c.isDigit = true := by
  obtain ⟨digit, hdigit, rfl⟩ := List.mem_map.1 h
  exact (digitChar_spec (Nat.digits_lt_base (by decide) (List.mem_reverse.1 hdigit))).1

@[simp] theorem digitsValue_nil : digitsValue [] = 0 := rfl

theorem digitsValue_append (front back : List Char) :
    digitsValue (front ++ back) =
      digitsValue front * 10 ^ back.length + digitsValue back := by
  induction back using List.reverseRecOn with
  | nil => simp [digitsValue]
  | append_singleton back c ih =>
      have hsnoc : ∀ text, digitsValue (text ++ [c]) = 10 * digitsValue text + (c.toNat - 48) := by
        intro text
        unfold digitsValue
        rw [List.foldl_append, List.foldl_cons, List.foldl_nil]
      rw [← List.append_assoc, hsnoc, hsnoc, ih, List.length_append, List.length_singleton,
        pow_succ]
      ring

theorem digitsValue_replicate_zero (count : ℕ) :
    digitsValue (List.replicate count '0') = 0 := by
  induction count with
  | zero => rfl
  | succ count ih =>
      rw [List.replicate_succ', digitsValue_append, ih]
      rfl

theorem digitsValue_digits (number : ℕ) : digitsValue (digits number) = number := by
  have hlist : ∀ list : List ℕ, (∀ digit ∈ list, digit < 10) →
      digitsValue (list.reverse.map Nat.digitChar) = Nat.ofDigits 10 list := by
    intro list hlist
    induction list with
    | nil => rfl
    | cons digit list ih =>
        rw [List.reverse_cons, List.map_append, digitsValue_append,
          ih fun digit h => hlist digit (List.mem_cons_of_mem _ h), Nat.ofDigits_cons]
        have hdigit := (digitChar_spec (hlist digit List.mem_cons_self)).2
        simp only [List.map_cons, List.map_nil, List.length_singleton, pow_one, digitsValue,
          List.foldl_cons, List.foldl_nil, hdigit]
        ring
  unfold digits
  rw [hlist _ fun digit h => Nat.digits_lt_base (by decide) h, Nat.ofDigits_digits]

theorem length_digits {number k : ℕ} (hlow : 10 ^ (k - 1) ≤ number) (hhigh : number < 10 ^ k) :
    (digits number).length = k := by
  have hpos : 0 < k := by
    rcases Nat.eq_zero_or_pos k with rfl | hpos
    · simp at hlow hhigh
      omega
    · exact hpos
  have hle := (Nat.digits_length_le_iff (b := 10) (by decide) number).2 hhigh
  have hlt := (Nat.lt_digits_length_iff (b := 10) (k := k - 1) (by decide) number).2 hlow
  unfold digits
  rw [List.length_map, List.length_reverse]
  omega

/-- The first digit of a positive number is not a zero. -/
theorem digits_eq_cons {number : ℕ} (h : number ≠ 0) :
    ∃ first rest, digits number = first :: rest ∧ first ≠ '0' := by
  have hne : Nat.digits 10 number ≠ [] := Nat.digits_ne_nil_iff_ne_zero.2 h
  obtain ⟨front, last, hlast⟩ := List.eq_nil_or_concat (Nat.digits 10 number) |>.resolve_left hne
  have hnonzero : last ≠ 0 := by
    have := Nat.getLast_digit_ne_zero 10 h
    simpa [hlast] using this
  have hdigit : last < 10 :=
    Nat.digits_lt_base (b := 10) (m := number) (by decide) (by simp [hlast])
  refine ⟨Nat.digitChar last, front.reverse.map Nat.digitChar, by simp [digits, hlast], ?_⟩
  interval_cases last <;> first | contradiction | decide

/-! ### Decimals -/

def signed (value magnitude : ℚ) : ℚ := if value < 0 then -magnitude else magnitude

/-- A decimal has `k` digits and is rounded to the value. -/
def IsDecimal (value : ℚ) (k : ℕ) (decimal : Decimal) : Prop :=
  10 ^ (k - 1) ≤ decimal.significand ∧ decimal.significand < 10 ^ k ∧
    ofRat (signed value (decimal.significand * 10 ^ (decimal.point - k))) = .finite value

instance (value : ℚ) (k : ℕ) (decimal : Decimal) : Decidable (IsDecimal value k decimal) :=
  inferInstanceAs (Decidable (_ ∧ _ ∧ _))

/-- The place of the point of a value. -/
def place (value : ℚ) : ℤ := Int.log 10 |value| + 1

/-- `10 ^ k` has one digit more than `k`, and is written with the point one further on. -/
def normalize (k significand : ℕ) (point : ℤ) : Decimal :=
  if significand = 10 ^ k then ⟨10 ^ (k - 1), point + 1⟩ else ⟨significand, point⟩

/-- The decimals of `k` digits around a value, the nearest first. -/
def candidates (value : ℚ) (k : ℕ) : List Decimal :=
  let scaled := |value| * 10 ^ (k - place value)
  [roundEven scaled, ⌊scaled⌋, ⌊scaled⌋ + 1].map fun significand =>
    normalize k significand.toNat (place value)

def nearestDecimal (value : ℚ) (k : ℕ) : Option Decimal :=
  (candidates value k).find? fun decimal => decide (IsDecimal value k decimal)

theorem scaled_bounds {value : ℚ} (h : value ≠ 0) (k : ℕ) :
    (10 : ℚ) ^ ((k : ℤ) - 1) ≤ |value| * 10 ^ (k - place value) ∧
      |value| * 10 ^ (k - place value) < (10 : ℚ) ^ (k : ℤ) := by
  have hpos : 0 < |value| := abs_pos.2 h
  have hlow := Int.zpow_log_le_self (b := 10) (by decide) hpos
  have hhigh := Int.lt_zpow_succ_log_self (b := 10) (by decide) |value|
  have hten : (0 : ℚ) < 10 := by norm_num
  have hscale : (0 : ℚ) < 10 ^ (k - place value) := zpow_pos hten _
  unfold place at hscale ⊢
  push_cast at hlow hhigh
  constructor
  · calc (10 : ℚ) ^ ((k : ℤ) - 1)
        = 10 ^ Int.log 10 |value| * 10 ^ ((k : ℤ) - (Int.log 10 |value| + 1)) := by
          rw [← zpow_add₀ hten.ne']
          congr 1
          ring
      _ ≤ _ := mul_le_mul_of_nonneg_right hlow hscale.le
  · calc |value| * (10 : ℚ) ^ ((k : ℤ) - (Int.log 10 |value| + 1))
        < 10 ^ (Int.log 10 |value| + 1) * 10 ^ ((k : ℤ) - (Int.log 10 |value| + 1)) :=
          mul_lt_mul_of_pos_right hhigh hscale
      _ = (10 : ℚ) ^ (k : ℤ) := by
          rw [← zpow_add₀ hten.ne']
          congr 1
          ring

/-- A value that `k` digits write exactly has a decimal of `k` digits. -/
theorem isSome_nearestDecimal {value : ℚ} (hvalue : ofRat value = .finite value) (h : value ≠ 0)
    {k : ℕ} (hk : 1 ≤ k) (integer : ℤ)
    (hinteger : |value| * 10 ^ (k - place value) = integer) :
    (nearestDecimal value k).isSome = true := by
  obtain ⟨hlow, hhigh⟩ := scaled_bounds h k
  rw [hinteger] at hlow hhigh
  have hnonneg : 0 ≤ integer := by
    have : (0 : ℚ) ≤ integer := (zpow_nonneg (by norm_num) _).trans hlow
    exact_mod_cast this
  obtain ⟨number, rfl⟩ := Int.eq_ofNat_of_zero_le hnonneg
  have hlow' : 10 ^ (k - 1) ≤ number := by
    have hcast : ((k : ℤ) - 1) = ((k - 1 : ℕ) : ℤ) := by omega
    rw [hcast, zpow_natCast] at hlow
    exact_mod_cast hlow
  have hhigh' : number < 10 ^ k := by
    rw [zpow_natCast] at hhigh
    exact_mod_cast hhigh
  have hscale : |value| = number * (10 : ℚ) ^ (place value - k) := by
    have hten : (10 : ℚ) ≠ 0 := by norm_num
    rw [← Int.cast_natCast, ← hinteger, mul_assoc, ← zpow_add₀ hten]
    simp
  have hsigned : signed value |value| = value := by
    unfold signed
    split_ifs with hneg
    · rw [abs_of_neg hneg, neg_neg]
    · rw [abs_of_nonneg (not_lt.1 hneg)]
  have hdecimal : IsDecimal value k ⟨number, place value⟩ :=
    ⟨hlow', hhigh', by rw [← hscale, hsigned, hvalue]⟩
  refine List.find?_isSome.2 ⟨⟨number, place value⟩, ?_, decide_eq_true hdecimal⟩
  unfold candidates
  rw [hinteger]
  refine List.mem_map.2 ⟨number, by simp, ?_⟩
  rw [Int.toNat_natCast, normalize, if_neg hhigh'.ne]

/-- A finite number is an integer over a power of ten. -/
theorem Double.exists_integer (x : Double) :
    ∃ places : ℕ, ∃ integer : ℤ, |x.value| * 10 ^ places = integer := by
  have hpower : ∃ (integer exponent : ℤ), x.value = integer * 2 ^ exponent := by
    have hrounded := x.rounded
    unfold ofRat at hrounded
    dsimp only at hrounded
    split_ifs at hrounded with hzero hfinite
    · exact ⟨0, 0, by simpa using hzero⟩
    · exact ⟨_, _, (Number.finite.inj hrounded).symm⟩
  obtain ⟨integer, exponent, hvalue⟩ := hpower
  refine ⟨exponent.natAbs, |integer| * 5 ^ exponent.natAbs *
    2 ^ (exponent.natAbs + exponent).toNat, ?_⟩
  have hnat : (((exponent.natAbs + exponent).toNat : ℕ) : ℤ) = exponent.natAbs + exponent := by
    omega
  have htwo : (2 : ℚ) ^ ((exponent.natAbs + exponent).toNat) =
      2 ^ exponent.natAbs * 2 ^ exponent := by
    rw [← zpow_natCast, hnat, zpow_add₀ (by norm_num), zpow_natCast]
  rw [Int.cast_mul, Int.cast_mul, Int.cast_pow, Int.cast_pow, Int.cast_abs, Int.cast_ofNat,
    Int.cast_ofNat, htwo, hvalue, abs_mul,
    abs_of_pos (zpow_pos (by norm_num : (0 : ℚ) < 2) exponent),
    show (10 : ℚ) = 5 * 2 by norm_num, mul_pow]
  ring

theorem Double.exists_nearestDecimal (x : Double) (h : x.value ≠ 0) :
    ∃ k, 1 ≤ k ∧ (nearestDecimal x.value k).isSome = true := by
  obtain ⟨places, integer, hinteger⟩ := x.exists_integer
  have hpos : 0 < |x.value| := abs_pos.2 h
  have hone : 1 ≤ integer := by
    have : (0 : ℚ) < integer := by
      rw [← hinteger]
      positivity
    have : 0 < integer := by exact_mod_cast this
    omega
  have hplace : 1 ≤ place x.value + places := by
    have hle : (10 : ℚ) ^ (-(places : ℤ)) ≤ |x.value| := by
      rw [zpow_neg, zpow_natCast, inv_le_iff_one_le_mul₀ (by positivity), hinteger]
      exact_mod_cast hone
    have := (Int.zpow_le_iff_le_log (b := 10) (by decide) hpos).1 (by exact_mod_cast hle)
    unfold place
    omega
  refine ⟨(place x.value + places).toNat, by omega,
    isSome_nearestDecimal x.rounded h (by omega) integer ?_⟩
  rw [Int.toNat_of_nonneg (by omega), add_sub_cancel_left, zpow_natCast, hinteger]

/-- The decimal that a number other than zero is written with. -/
def toDecimal (x : Double) (h : x.value ≠ 0) : Decimal :=
  (nearestDecimal x.value (Nat.find (x.exists_nearestDecimal h))).get
    (Nat.find_spec (x.exists_nearestDecimal h)).2

theorem toDecimal_mem (x : Double) (h : x.value ≠ 0) :
    nearestDecimal x.value (Nat.find (x.exists_nearestDecimal h)) = some (toDecimal x h) := by
  unfold toDecimal
  rw [Option.some_get]

theorem isDecimal_of_nearestDecimal {value : ℚ} {k : ℕ} {decimal : Decimal}
    (h : nearestDecimal value k = some decimal) : IsDecimal value k decimal := by
  unfold nearestDecimal at h
  have hfound := List.find?_some h
  exact of_decide_eq_true hfound

theorem toDecimal_isDecimal (x : Double) (h : x.value ≠ 0) :
    IsDecimal x.value (digits (toDecimal x h).significand).length (toDecimal x h) := by
  have hdecimal := isDecimal_of_nearestDecimal (toDecimal_mem x h)
  rwa [length_digits hdecimal.1 hdecimal.2.1]

theorem toDecimal_significand_ne_zero (x : Double) (h : x.value ≠ 0) :
    (toDecimal x h).significand ≠ 0 := by
  have hlow := (toDecimal_isDecimal x h).1
  have hpos : 0 < 10 ^ ((digits (toDecimal x h).significand).length - 1) := by positivity
  omega

theorem toDecimal_point (x : Double) (h : x.value ≠ 0) :
    (toDecimal x h).point = place x.value ∨ (toDecimal x h).point = place x.value + 1 := by
  have hmem := List.mem_of_find?_eq_some (toDecimal_mem x h)
  unfold candidates at hmem
  obtain ⟨significand, -, hsignificand⟩ := List.mem_map.1 hmem
  rw [← hsignificand, normalize]
  split_ifs
  · exact .inr rfl
  · exact .inl rfl

/-- An integer needs no digit after the point. -/
theorem length_digits_toDecimal_le {x : Double} (h : x.value ≠ 0) {integer : ℤ}
    (hinteger : x.value = integer) :
    ((digits (toDecimal x h).significand).length : ℤ) ≤ (toDecimal x h).point := by
  have habs : (1 : ℚ) ≤ |x.value| := by
    rw [hinteger] at h ⊢
    have : 1 ≤ |integer| := Int.one_le_abs (by exact_mod_cast h)
    exact_mod_cast this
  have hplace : 1 ≤ place x.value := by
    have := (Int.zpow_le_iff_le_log (b := 10) (r := |x.value|) (x := 0) (by decide)
      (by linarith)).1 (by simpa using habs)
    unfold place
    omega
  have hsome : (nearestDecimal x.value (place x.value).toNat).isSome = true := by
    refine isSome_nearestDecimal x.rounded h (by omega) |integer| ?_
    rw [Int.toNat_of_nonneg (by omega), sub_self, zpow_zero, mul_one, hinteger]
    push_cast
    rfl
  have hfind := Nat.find_min' (x.exists_nearestDecimal h) ⟨by omega, hsome⟩
  have hdecimal := isDecimal_of_nearestDecimal (toDecimal_mem x h)
  rw [length_digits hdecimal.1 hdecimal.2.1]
  rcases toDecimal_point x h with hpoint | hpoint <;> omega

/-! ### Texts -/

/-- The text of a decimal. -/
def decimalText (decimal : Decimal) : List Char :=
  let text := digits decimal.significand
  if -6 < decimal.point ∧ decimal.point ≤ 21 then
    if text.length ≤ decimal.point then
      text ++ List.replicate (decimal.point - text.length).toNat '0'
    else if 0 < decimal.point then
      text.take decimal.point.toNat ++ '.' :: text.drop decimal.point.toNat
    else '0' :: '.' :: (List.replicate (-decimal.point).toNat '0' ++ text)
  else
    text.take 1 ++ (if text.length = 1 then [] else '.' :: text.drop 1) ++
      'e' :: (if decimal.point < 0 then '-' else '+') :: digits (decimal.point - 1).natAbs

/-- An integer that is not too large is written by its digits and zeros after them. -/
theorem decimalText_of_integer {x : Double} (hzero : x.value ≠ 0) {integer : ℤ}
    (hinteger : x.value = integer) (hbound : |x.value| < 10 ^ 20) :
    ∃ zeros : ℕ, decimalText (toDecimal x hzero) =
        digits (toDecimal x hzero).significand ++ List.replicate zeros '0' ∧
      ofRat (signed x.value ((toDecimal x hzero).significand * 10 ^ zeros)) = .finite x.value := by
  have hlength := length_digits_toDecimal_le hzero hinteger
  have hlog : Int.log 10 |x.value| < 20 := by
    refine (Int.lt_zpow_iff_log_lt (by decide) (abs_pos.2 hzero)).1 ?_
    exact_mod_cast hbound
  have hpoint : (toDecimal x hzero).point ≤ 21 := by
    rcases toDecimal_point x hzero with hpoint | hpoint <;> unfold place at hpoint <;> omega
  refine ⟨((toDecimal x hzero).point -
    ((digits (toDecimal x hzero).significand).length : ℤ)).toNat, ?_, ?_⟩
  · unfold decimalText
    dsimp only
    rw [if_pos ⟨by omega, hpoint⟩, if_pos hlength]
  · rw [← zpow_natCast, Int.toNat_of_nonneg (by omega)]
    exact (toDecimal_isDecimal x hzero).2.2

/-- `String(x)` -/
def Double.text (x : Double) : List Char :=
  if h : x.value = 0 then ['0']
  else if x.value < 0 then '-' :: decimalText (toDecimal x h)
  else decimalText (toDecimal x h)

end Arc.Number
