import Arc.Http.QueryBinding

/-!
# Texts of numbers in a query string

A number is read from its text unless the text has an exponent, which the pattern of numbers in a
query string does not know. The text of a 32-bit integer has neither a point nor an exponent.
-/

namespace Arc.Http.QueryBinding

open Arc.Number

/-! ### Patterns -/

theorem takeWhile_digits {front : Text} (rest : Text) (hfront : ∀ c ∈ front, c.isDigit = true)
    (hrest : ∀ c ∈ rest.head?, c.isDigit = false) :
    (front ++ rest).takeWhile Char.isDigit = front ∧
      (front ++ rest).dropWhile Char.isDigit = rest := by
  induction front with
  | nil =>
      cases rest with
      | nil => exact ⟨rfl, rfl⟩
      | cons c rest =>
          have hc := hrest c rfl
          simp [hc]
  | cons c front ih =>
      obtain ⟨htake, hdrop⟩ := ih fun c hc => hfront c (List.mem_cons_of_mem _ hc)
      have hc := hfront c List.mem_cons_self
      simp [hc, htake, hdrop]

theorem readWhole_digits {first : Char} {front : Text} (rest : Text) (hfirst : first ≠ '0')
    (hfront : ∀ c ∈ first :: front, c.isDigit = true)
    (hrest : ∀ c ∈ rest.head?, c.isDigit = false) :
    readWhole (first :: front ++ rest) = some (first :: front, rest) := by
  obtain ⟨htake, hdrop⟩ := takeWhile_digits rest hfront hrest
  rw [List.cons_append] at htake hdrop ⊢
  unfold readWhole
  split
  · rename_i heq
    cases heq
    exact absurd rfl hfirst
  · rw [htake, hdrop]
    rfl

theorem readFraction_digits {text : Text} (hne : text ≠ [])
    (hall : ∀ c ∈ text, c.isDigit = true) : readFraction ('.' :: text) = some text := by
  have hdigits : text.all Char.isDigit = true := List.all_eq_true.2 hall
  simp [readFraction, hne, hdigits]

/-- The digits of a positive number, with zeros behind them, are one whole number. -/
theorem readUnsigned_whole {number zeros : ℕ} (h : number ≠ 0) :
    readUnsigned (digits number ++ List.replicate zeros '0') =
      some ((number : ℚ) * 10 ^ zeros) := by
  obtain ⟨first, front, hdigits, hfirst⟩ := digits_eq_cons h
  have hall : ∀ c ∈ first :: (front ++ List.replicate zeros '0'), c.isDigit = true := by
    intro c hc
    rw [← List.cons_append, ← hdigits] at hc
    rcases List.mem_append.1 hc with hc | hc
    · exact isDigit_of_mem_digits hc
    · rw [List.eq_of_mem_replicate hc]
      rfl
  have hwhole := readWhole_digits [] hfirst hall (by simp)
  rw [List.append_nil, ← List.cons_append, ← hdigits] at hwhole
  unfold readUnsigned
  rw [hwhole]
  simp [readFraction, digitsValue_append, digitsValue_digits, digitsValue_replicate_zero]

/-- The digits of a positive number with a point among them. -/
theorem readUnsigned_point {number place : ℕ} (h : number ≠ 0) (hplace : 0 < place)
    (hlength : place < (digits number).length) :
    readUnsigned ((digits number).take place ++ '.' :: (digits number).drop place) =
      some ((number : ℚ) / 10 ^ ((digits number).length - place)) := by
  obtain ⟨first, front, hdigits, hfirst⟩ := digits_eq_cons h
  have htake : (digits number).take place = first :: front.take (place - 1) := by
    obtain ⟨place, rfl⟩ := Nat.exists_eq_succ_of_ne_zero hplace.ne'
    rw [hdigits]
    rfl
  have hall : ∀ c ∈ first :: front.take (place - 1), c.isDigit = true := by
    intro c hc
    rw [← htake] at hc
    exact isDigit_of_mem_digits (List.mem_of_mem_take hc)
  have hwhole := readWhole_digits ('.' :: (digits number).drop place) hfirst hall
    (by simp)
  rw [← htake] at hwhole
  have hdrop : (digits number).drop place ≠ [] := by
    intro hnil
    have := List.drop_eq_nil_iff.1 hnil
    omega
  have hfraction := readFraction_digits hdrop fun c hc =>
    isDigit_of_mem_digits (List.mem_of_mem_drop hc)
  unfold readUnsigned
  rw [hwhole]
  simp [hfraction, digitsValue_digits]

/-- Zeros between the point and the digits of a number. -/
theorem readUnsigned_small {number zeros : ℕ} (h : number ≠ 0) :
    readUnsigned ('0' :: '.' :: (List.replicate zeros '0' ++ digits number)) =
      some ((number : ℚ) / 10 ^ (zeros + (digits number).length)) := by
  obtain ⟨first, front, hdigits, -⟩ := digits_eq_cons h
  have hall : ∀ c ∈ List.replicate zeros '0' ++ digits number, c.isDigit = true := by
    intro c hc
    rcases List.mem_append.1 hc with hc | hc
    · rw [List.eq_of_mem_replicate hc]
      rfl
    · exact isDigit_of_mem_digits hc
  have hfraction := readFraction_digits (by simp [hdigits]) hall
  have hvalue : digitsValue (['0'] ++ (List.replicate zeros '0' ++ digits number)) = number := by
    rw [← List.append_assoc, digitsValue_append, digitsValue_digits, digitsValue_append,
      digitsValue_replicate_zero]
    simp [digitsValue]
  unfold readUnsigned
  rw [readWhole]
  simp only [Option.bind_eq_bind, Option.bind_some, hfraction, hvalue, List.length_append,
    List.length_replicate]

/-- An exponent is no part of the pattern. -/
theorem readUnsigned_exponent {number : ℕ} (h : number ≠ 0) (exponent : Text) :
    readUnsigned ((digits number).take 1 ++
      (if (digits number).length = 1 then [] else '.' :: (digits number).drop 1) ++
        'e' :: exponent) = none := by
  obtain ⟨first, front, hdigits, hfirst⟩ := digits_eq_cons h
  have hall : ∀ c ∈ [first], c.isDigit = true := by
    intro c hc
    have hmem : c ∈ digits number := by
      rw [hdigits, List.mem_singleton.1 hc]
      exact List.mem_cons_self
    exact isDigit_of_mem_digits hmem
  unfold readUnsigned
  rw [hdigits, List.append_assoc]
  cases front with
  | nil =>
      have hwhole := readWhole_digits ('e' :: exponent) hfirst hall (by simp)
      simp only [List.take_succ_cons, List.take_zero, List.length_singleton, if_true,
        List.nil_append]
      rw [List.cons_append, List.nil_append] at hwhole ⊢
      rw [hwhole]
      rfl
  | cons second front =>
      have hwhole := readWhole_digits ('.' :: (second :: front) ++ 'e' :: exponent)
        hfirst hall (by simp)
      have hlength : (first :: second :: front).length ≠ 1 := by simp
      rw [if_neg hlength]
      simp only [List.take_succ_cons, List.take_zero, List.drop_succ_cons, List.drop_zero]
      rw [hwhole]
      simp only [Option.bind_eq_bind, Option.bind_some, List.cons_append, readFraction]
      have he : ((second :: (front ++ 'e' :: exponent)).all Char.isDigit) = false :=
        List.all_eq_false.2 ⟨'e', by simp, by decide⟩
      rw [he]
      rfl

/-! ### Numbers -/

/-- The text has no exponent. -/
def Plain (decimal : Decimal) : Prop := -6 < decimal.point ∧ decimal.point ≤ 21

theorem e_mem_decimalText_iff (decimal : Decimal) :
    'e' ∈ decimalText decimal ↔ ¬ Plain decimal := by
  have hdigits : 'e' ∉ digits decimal.significand := by
    intro h
    exact absurd (isDigit_of_mem_digits h) (by decide)
  have htake : ∀ count, 'e' ∉ (digits decimal.significand).take count :=
    fun count h => hdigits (List.mem_of_mem_take h)
  have hdrop : ∀ count, 'e' ∉ (digits decimal.significand).drop count :=
    fun count h => hdigits (List.mem_of_mem_drop h)
  unfold decimalText Plain
  dsimp only
  split_ifs <;> simp_all [List.mem_replicate]

theorem readUnsigned_decimalText {decimal : Decimal} (h : decimal.significand ≠ 0)
    (hplain : Plain decimal) :
    readUnsigned (decimalText decimal) =
      some ((decimal.significand : ℚ) *
        10 ^ (decimal.point - ((digits decimal.significand).length : ℤ))) := by
  unfold Plain at hplain
  unfold decimalText
  dsimp only
  rw [if_pos hplain]
  split_ifs with hwhole hpoint
  · rw [readUnsigned_whole h, ← zpow_natCast, Int.toNat_of_nonneg (by omega)]
  · rw [readUnsigned_point h (by omega) (by omega), ← zpow_natCast, div_eq_mul_inv, ← zpow_neg]
    congr 3
    omega
  · rw [readUnsigned_small h, ← zpow_natCast, div_eq_mul_inv, ← zpow_neg]
    congr 3
    omega

theorem decimalNumber_nonneg {text : Text} (h : ∀ rest, text ≠ '-' :: rest) :
    decimalNumber text = (readUnsigned text).map Number.ofRat := by
  unfold decimalNumber
  split
  · exact absurd rfl (h _)
  · rfl

theorem decimalText_ne_minus (decimal : Decimal) (h : decimal.significand ≠ 0) (rest : Text) :
    decimalText decimal ≠ '-' :: rest := by
  obtain ⟨first, front, hdigits, -⟩ := digits_eq_cons h
  have hfirst : first ≠ '-' := by
    rintro rfl
    have hmem : '-' ∈ digits decimal.significand := by simp [hdigits]
    exact absurd (isDigit_of_mem_digits hmem) (by decide)
  unfold decimalText
  rw [hdigits]
  dsimp only
  split_ifs with hplain hwhole hpoint
  · simp [hfirst]
  · obtain ⟨place, hplace⟩ : ∃ place, decimal.point.toNat = place + 1 :=
      Nat.exists_eq_succ_of_ne_zero (by omega)
    rw [hplace]
    simp [hfirst]
  · simp
  all_goals simp [hfirst]

theorem readUnsigned_decimalText_eq {decimal : Decimal} (h : decimal.significand ≠ 0) :
    readUnsigned (decimalText decimal) =
      if 'e' ∈ decimalText decimal then none
      else some ((decimal.significand : ℚ) *
        10 ^ (decimal.point - ((digits decimal.significand).length : ℤ))) := by
  split_ifs with hexponent
  · rw [e_mem_decimalText_iff, Plain] at hexponent
    unfold decimalText
    dsimp only
    rw [if_neg hexponent]
    exact readUnsigned_exponent h _
  · rw [e_mem_decimalText_iff, not_not] at hexponent
    exact readUnsigned_decimalText h hexponent

/-- A number is read from its text unless the text has an exponent. -/
theorem decimalNumber_text (x : Double) :
    decimalNumber x.text = if 'e' ∈ x.text then none else some (.finite x.value) := by
  by_cases hzero : x.value = 0
  · have htext : x.text = ['0'] := dif_pos hzero
    rw [htext, hzero]
    simp [decimalNumber, readUnsigned, readWhole, readFraction, digitsValue, Number.ofRat]
  have hne := toDecimal_significand_ne_zero x hzero
  have hdecimal := (toDecimal_isDecimal x hzero).2.2
  unfold signed at hdecimal
  unfold Double.text
  rw [dif_neg hzero]
  by_cases hneg : x.value < 0
  · rw [if_pos hneg] at hdecimal ⊢
    have hmem : 'e' ∈ '-' :: decimalText (toDecimal x hzero) ↔
        'e' ∈ decimalText (toDecimal x hzero) := by simp
    have hread : decimalNumber ('-' :: decimalText (toDecimal x hzero)) =
        (readUnsigned (decimalText (toDecimal x hzero))).map fun value => .ofRat (-value) := rfl
    rw [hread, readUnsigned_decimalText_eq hne]
    simp only [hmem]
    split_ifs
    · rfl
    · rw [Option.map_some, hdecimal]
  · rw [if_neg hneg] at hdecimal ⊢
    rw [decimalNumber_nonneg (decimalText_ne_minus _ hne), readUnsigned_decimalText_eq hne]
    split_ifs
    · rfl
    · rw [Option.map_some, hdecimal]

/-- A large number is written with an exponent. -/
theorem e_mem_text_of_large {x : Double} (h : 10 ^ 21 ≤ |x.value|) : 'e' ∈ x.text := by
  have hzero : x.value ≠ 0 := by
    intro hzero
    rw [hzero] at h
    norm_num at h
  have hlog : 21 ≤ Int.log 10 |x.value| :=
    (Int.zpow_le_iff_le_log (by decide) (abs_pos.2 hzero)).1 (by exact_mod_cast h)
  have hplain : ¬ Plain (toDecimal x hzero) := by
    unfold Plain
    rcases toDecimal_point x hzero with hpoint | hpoint <;> unfold place at hpoint <;> omega
  have hmem := (e_mem_decimalText_iff _).2 hplain
  unfold Double.text
  rw [dif_neg hzero]
  split_ifs
  · exact List.mem_cons_of_mem _ hmem
  · exact hmem

/-! ### Integers -/

theorem isSpace_of_isDigit {c : Char} (h : c.isDigit = true) : isSpace c = false := by
  cases hspace : isSpace c with
  | false => rfl
  | true =>
      unfold isSpace at hspace
      simp only [Bool.or_eq_true, decide_eq_true_eq] at hspace
      rcases hspace with ((((rfl | rfl) | rfl) | rfl) | rfl) | rfl <;> exact absurd h (by decide)

/-- A 32-bit integer has a decimal without a point among its digits and without an exponent. -/
theorem decimalText_of_isInt32 {x : Double} (hzero : x.value ≠ 0)
    (h : isInt32 (.finite x.value) = true) :
    ∃ zeros : ℕ, decimalText (toDecimal x hzero) =
        digits (toDecimal x hzero).significand ++ List.replicate zeros '0' ∧
      Number.ofRat (signed x.value ((toDecimal x hzero).significand * 10 ^ zeros)) =
        .finite x.value := by
  unfold isInt32 at h
  simp only [Bool.and_eq_true, decide_eq_true_eq] at h
  obtain ⟨⟨hden, hlow⟩, hhigh⟩ := h
  have hinteger : x.value = x.value.num := (Rat.den_eq_one_iff _).1 hden |>.symm
  refine decimalText_of_integer hzero hinteger ?_
  refine lt_of_le_of_lt (abs_le.2 ⟨hlow, hhigh.trans (by norm_num)⟩) ?_
  norm_num

theorem readInteger_digits {number zeros : ℕ} (h : number ≠ 0) (negative : Bool) :
    readInteger negative (digits number ++ List.replicate zeros '0') =
      some (.ofRat (if negative then -(number * 10 ^ zeros : ℚ) else number * 10 ^ zeros)) := by
  obtain ⟨first, front, hdigits, -⟩ := digits_eq_cons h
  have hall : ∀ c ∈ digits number ++ List.replicate zeros '0', c.isDigit = true := by
    intro c hc
    rcases List.mem_append.1 hc with hc | hc
    · exact isDigit_of_mem_digits hc
    · rw [List.eq_of_mem_replicate hc]
      rfl
  obtain ⟨htake, hdrop⟩ := takeWhile_digits [] hall (by simp)
  rw [List.append_nil] at htake hdrop
  unfold readInteger
  dsimp only
  rw [htake, hdrop, if_neg (by simp [hdigits]), digitsValue_append, digitsValue_digits,
    digitsValue_replicate_zero, List.length_replicate, Nat.add_zero]
  push_cast
  rfl

theorem getInteger_text {x : Double} (h : isInt32 (.finite x.value) = true) :
    getInteger (some (.string x.text)) = some (.finite x.value) := by
  have hread : integerText x.text = some (.finite x.value) := by
    unfold Double.text
    split_ifs with hzero hneg
    · rw [hzero]
      simp [integerText, readSign, readInteger, isSpace, digitsValue, Number.ofRat]
    · obtain ⟨zeros, htext, hvalue⟩ := decimalText_of_isInt32 hzero h
      unfold signed at hvalue
      rw [if_pos hneg] at hvalue
      rw [htext]
      have hread : integerText ('-' :: (digits (toDecimal x hzero).significand ++
          List.replicate zeros '0')) = readInteger true
            (digits (toDecimal x hzero).significand ++ List.replicate zeros '0') := rfl
      rw [hread, readInteger_digits (toDecimal_significand_ne_zero x hzero), if_pos rfl, hvalue]
    · obtain ⟨zeros, htext, hvalue⟩ := decimalText_of_isInt32 hzero h
      unfold signed at hvalue
      rw [if_neg hneg] at hvalue
      have hne := toDecimal_significand_ne_zero x hzero
      obtain ⟨first, front, hdigits, -⟩ := digits_eq_cons hne
      have hmem : first ∈ digits (toDecimal x hzero).significand := by simp [hdigits]
      have hfirst := isDigit_of_mem_digits hmem
      have hsign : readSign (first :: (front ++ List.replicate zeros '0')) =
          (false, first :: (front ++ List.replicate zeros '0')) := by
        unfold readSign
        split
        · rename_i heq
          cases heq
          exact absurd hfirst (by decide)
        · rename_i heq
          cases heq
          exact absurd hfirst (by decide)
        · rfl
      rw [htext]
      unfold integerText
      rw [hdigits, List.cons_append, List.dropWhile_cons_of_neg
        (by rw [isSpace_of_isDigit hfirst]; simp), hsign]
      dsimp only
      rw [← List.cons_append, ← hdigits, readInteger_digits hne, if_neg (by simp), hvalue]
  simp [getInteger, hread, h]

end Arc.Http.QueryBinding
