import Arc.Foundation.JsonText
import Arc.Foundation.NumberText

/-!
# Numbers in JSON texts

The text of a finite number, as code units, is one token for the number, whatever follows that
could not continue a number.
-/

namespace Arc.JsonText

open Number

/-- The code units of a text of ASCII characters. -/
def asciiUnits (text : List Char) : Units := text.map fun c => c.toNat.toUInt16

@[simp] theorem asciiUnits_nil : asciiUnits [] = [] := rfl

@[simp] theorem asciiUnits_cons (c : Char) (text : List Char) :
    asciiUnits (c :: text) = c.toNat.toUInt16 :: asciiUnits text := rfl

@[simp] theorem asciiUnits_append (front back : List Char) :
    asciiUnits (front ++ back) = asciiUnits front ++ asciiUnits back := List.map_append

@[simp] theorem length_asciiUnits (text : List Char) : (asciiUnits text).length = text.length :=
  List.length_map _

/-- What may follow a number. -/
def Delimited (rest : Units) : Prop :=
  ∀ unit ∈ rest.head?, isDigit unit = false ∧ unit ≠ 0x2E ∧ unit ≠ 0x65 ∧ unit ≠ 0x45

theorem delimited_nil : Delimited [] := by simp [Delimited]

theorem delimited_comma (rest : Units) : Delimited (0x2C :: rest) := by
  simp [Delimited, isDigit]

theorem delimited_closeArray (rest : Units) : Delimited (0x5D :: rest) := by
  simp [Delimited, isDigit]

theorem delimited_closeObject (rest : Units) : Delimited (0x7D :: rest) := by
  simp [Delimited, isDigit]

/-! ### Digits -/

/-- A unit that is a digit. -/
theorem digit_spec {c : Char} (h : c.isDigit = true) :
    isDigit c.toNat.toUInt16 = true ∧ c.toNat.toUInt16.toNat - 0x30 = c.toNat - 48 := by
  have hbounds : 48 ≤ c.toNat ∧ c.toNat ≤ 57 := by
    simp only [Char.isDigit, Bool.and_eq_true, decide_eq_true_eq] at h
    exact ⟨by simpa [UInt32.le_iff_toNat_le] using h.1, by simpa [UInt32.le_iff_toNat_le] using h.2⟩
  have hvalue : c.toNat.toUInt16.toNat = c.toNat := by
    simp only [Nat.toUInt16_eq, UInt16.toNat_ofNat']
    omega
  refine ⟨?_, by rw [hvalue]⟩
  simp only [isDigit, Bool.and_eq_true, decide_eq_true_eq, UInt16.le_iff_toNat_le, hvalue]
  exact hbounds

theorem isDigit_of_mem_asciiUnits {text : List Char} (h : ∀ c ∈ text, c.isDigit = true)
    {unit : UInt16} (hunit : unit ∈ asciiUnits text) : isDigit unit = true := by
  obtain ⟨c, hc, rfl⟩ := List.mem_map.1 hunit
  exact (digit_spec (h c hc)).1

theorem digitsValue_asciiUnits {text : List Char} (h : ∀ c ∈ text, c.isDigit = true) :
    digitsValue (asciiUnits text) = Number.digitsValue text := by
  unfold digitsValue Number.digitsValue asciiUnits
  rw [List.foldl_map]
  refine List.foldl_ext _ _ _ fun value c hc => ?_
  rw [(digit_spec (h c hc)).2]

/-- Digits are taken as far as they go. -/
theorem takeWhile_digits {front : Units} (rest : Units) (hfront : ∀ u ∈ front, isDigit u = true)
    (hrest : ∀ u ∈ rest.head?, isDigit u = false) :
    (front ++ rest).takeWhile isDigit = front ∧ (front ++ rest).dropWhile isDigit = rest := by
  induction front with
  | nil =>
      cases rest with
      | nil => exact ⟨rfl, rfl⟩
      | cons u rest =>
          have hu := hrest u rfl
          simp [hu]
  | cons u front ih =>
      obtain ⟨htake, hdrop⟩ := ih fun u hu => hfront u (List.mem_cons_of_mem _ hu)
      have hu := hfront u List.mem_cons_self
      simp [hu, htake, hdrop]

/-! ### Parts of a number -/

theorem lexInteger_digits {first : UInt16} {front : Units} (rest : Units) (hfirst : first ≠ 0x30)
    (hfront : ∀ u ∈ first :: front, isDigit u = true)
    (hrest : ∀ u ∈ rest.head?, isDigit u = false) :
    lexInteger (first :: front ++ rest) = some (first :: front, rest) := by
  obtain ⟨htake, hdrop⟩ := takeWhile_digits rest hfront hrest
  rw [List.cons_append] at htake hdrop ⊢
  unfold lexInteger
  split
  · rename_i heq
    cases heq
    exact absurd rfl hfirst
  · rw [htake, hdrop]
    rfl

theorem lexFraction_digits {text : Units} (rest : Units) (hne : text ≠ [])
    (hall : ∀ u ∈ text, isDigit u = true) (hrest : ∀ u ∈ rest.head?, isDigit u = false) :
    lexFraction (0x2E :: (text ++ rest)) = some (text, rest) := by
  obtain ⟨htake, hdrop⟩ := takeWhile_digits rest hall hrest
  have hnonempty : ¬ text.isEmpty = true := by simpa using hne
  change (if ((text ++ rest).takeWhile isDigit).isEmpty then none
    else some ((text ++ rest).takeWhile isDigit, (text ++ rest).dropWhile isDigit)) = _
  rw [htake, hdrop, if_neg hnonempty]

theorem lexFraction_none {rest : Units} (h : ∀ u ∈ rest.head?, u ≠ 0x2E) :
    lexFraction rest = some ([], rest) := by
  unfold lexFraction
  split
  · exact absurd rfl (h _ rfl)
  · rfl

theorem lexExponent_none {rest : Units} (h : ∀ u ∈ rest.head?, u ≠ 0x65 ∧ u ≠ 0x45) :
    lexExponent rest = some (0, rest) := by
  cases rest with
  | nil => rfl
  | cons u rest =>
      obtain ⟨hlower, hupper⟩ := h u rfl
      simp [lexExponent, hlower, hupper]

/-- An exponent with its sign. -/
theorem lexExponent_digits {digits : Units} (rest : Units) (negative : Bool) (hne : digits ≠ [])
    (hall : ∀ u ∈ digits, isDigit u = true) (hrest : ∀ u ∈ rest.head?, isDigit u = false) :
    lexExponent (0x65 :: (if negative then 0x2D else 0x2B) :: (digits ++ rest)) =
      some (if negative then -(digitsValue digits : ℤ) else digitsValue digits, rest) := by
  obtain ⟨htake, hdrop⟩ := takeWhile_digits rest hall hrest
  cases negative <;> simp [lexExponent, htake, hdrop, hne]

/-- A number of its parts. -/
theorem lexUnsigned_of_parts {input digits afterInteger fraction afterFraction rest : Units}
    {exponent : ℤ} (hinteger : lexInteger input = some (digits, afterInteger))
    (hfraction : lexFraction afterInteger = some (fraction, afterFraction))
    (hexponent : lexExponent afterFraction = some (exponent, rest)) :
    lexUnsigned input =
      some (digitsValue (digits ++ fraction) * (10 : ℚ) ^ (exponent - fraction.length), rest) := by
  unfold lexUnsigned
  rw [hinteger]
  simp only [Option.bind_eq_bind, Option.bind_some, hfraction, hexponent]

/-! ### Decimals -/

section Decimals

variable {number : ℕ} {rest : Units}

theorem Delimited.noDigit (h : Delimited rest) : ∀ u ∈ rest.head?, isDigit u = false :=
  fun u hu => (h u hu).1

theorem Delimited.lexFraction (h : Delimited rest) : lexFraction rest = some ([], rest) :=
  lexFraction_none fun u hu => (h u hu).2.1

theorem Delimited.lexExponent (h : Delimited rest) : lexExponent rest = some (0, rest) :=
  lexExponent_none fun u hu => (h u hu).2.2

/-- The first digits of a positive number, as an integer part. -/
theorem lexInteger_take {text : List Char} (hnumber : number ≠ 0) (hrest : ∀ u ∈ rest.head?,
    isDigit u = false) (hall : ∀ c ∈ text, c.isDigit = true)
    (hplace : ∃ place zeros, 0 < place ∧ text = (digits number).take place ++ zeros) :
    lexInteger (asciiUnits text ++ rest) = some (asciiUnits text, rest) := by
  obtain ⟨place, zeros, hplace, htext⟩ := hplace
  obtain ⟨first, front, hdigits, hfirst⟩ := digits_eq_cons hnumber
  obtain ⟨place, rfl⟩ := Nat.exists_eq_succ_of_ne_zero hplace.ne'
  rw [hdigits, List.take_succ_cons, List.cons_append] at htext
  subst htext
  refine lexInteger_digits rest ?_ (fun u hu => isDigit_of_mem_asciiUnits hall hu) hrest
  intro hzero
  have hdigit : first.isDigit = true := hall first List.mem_cons_self
  have hvalue := congrArg UInt16.toNat hzero
  have hbound : first.toNat < 0x10000 := by
    simp only [Char.isDigit, Bool.and_eq_true, decide_eq_true_eq] at hdigit
    have : first.toNat ≤ 57 := by simpa [UInt32.le_iff_toNat_le] using hdigit.2
    omega
  refine hfirst (Char.toNat_inj.1 ?_)
  simp only [Nat.toUInt16_eq, UInt16.toNat_ofNat'] at hvalue
  simpa [Nat.mod_eq_of_lt hbound] using hvalue

theorem lexUnsigned_whole (hnumber : number ≠ 0) (zeros : ℕ) (hrest : Delimited rest) :
    lexUnsigned (asciiUnits (digits number ++ List.replicate zeros '0') ++ rest) =
      some ((number : ℚ) * 10 ^ (zeros : ℤ), rest) := by
  have hall : ∀ c ∈ digits number ++ List.replicate zeros '0', c.isDigit = true := by
    intro c hc
    rcases List.mem_append.1 hc with hc | hc
    · exact isDigit_of_mem_digits hc
    · rw [List.eq_of_mem_replicate hc]
      rfl
  have hpos : 0 < (digits number).length := by
    obtain ⟨first, front, hdigits, -⟩ := digits_eq_cons hnumber
    simp [hdigits]
  have hinteger := lexInteger_take hnumber hrest.noDigit hall
    ⟨_, _, hpos, by rw [List.take_length]⟩
  rw [lexUnsigned_of_parts hinteger hrest.lexFraction hrest.lexExponent, List.append_nil,
    digitsValue_asciiUnits hall, digitsValue_append, digitsValue_digits,
    digitsValue_replicate_zero]
  simp

/-- A point among the digits, and what follows the digits. -/
theorem lexUnsigned_point {after : Units} {exponent : ℤ} (hnumber : number ≠ 0) {place : ℕ}
    (hplace : 0 < place) (hlength : place < (digits number).length)
    (hafter : ∀ u ∈ after.head?, isDigit u = false)
    (hexponent : lexExponent after = some (exponent, rest)) :
    lexUnsigned (asciiUnits ((digits number).take place) ++
        0x2E :: (asciiUnits ((digits number).drop place) ++ after)) =
      some ((number : ℚ) * 10 ^ (exponent - ((digits number).length - place : ℕ)), rest) := by
  have htake : ∀ c ∈ (digits number).take place, c.isDigit = true :=
    fun c hc => isDigit_of_mem_digits (List.mem_of_mem_take hc)
  have hdrop : ∀ c ∈ (digits number).drop place, c.isDigit = true :=
    fun c hc => isDigit_of_mem_digits (List.mem_of_mem_drop hc)
  have hne : asciiUnits ((digits number).drop place) ≠ [] := by
    intro hnil
    have := congrArg List.length hnil
    simp at this
    omega
  have hinteger : lexInteger (asciiUnits ((digits number).take place) ++
      0x2E :: (asciiUnits ((digits number).drop place) ++ after)) = some _ :=
    lexInteger_take hnumber (by simp [isDigit]) htake ⟨place, [], hplace, by simp⟩
  have hfraction := lexFraction_digits after hne
    (fun u hu => isDigit_of_mem_asciiUnits hdrop hu) hafter
  rw [lexUnsigned_of_parts hinteger hfraction hexponent, ← asciiUnits_append,
    List.take_append_drop, digitsValue_asciiUnits fun c hc => isDigit_of_mem_digits hc,
    digitsValue_digits, length_asciiUnits, List.length_drop]

/-- Zeros between the point and the digits. -/
theorem lexUnsigned_small (hnumber : number ≠ 0) (zeros : ℕ) (hrest : Delimited rest) :
    lexUnsigned (0x30 :: 0x2E ::
        (asciiUnits (List.replicate zeros '0' ++ digits number) ++ rest)) =
      some ((number : ℚ) * 10 ^ (-((zeros + (digits number).length : ℕ) : ℤ)), rest) := by
  have hall : ∀ c ∈ List.replicate zeros '0' ++ digits number, c.isDigit = true := by
    intro c hc
    rcases List.mem_append.1 hc with hc | hc
    · rw [List.eq_of_mem_replicate hc]
      rfl
    · exact isDigit_of_mem_digits hc
  have hne : asciiUnits (List.replicate zeros '0' ++ digits number) ≠ [] := by
    obtain ⟨first, front, hdigits, -⟩ := digits_eq_cons hnumber
    simp [hdigits]
  have hfraction := lexFraction_digits rest hne
    (fun u hu => isDigit_of_mem_asciiUnits hall hu) hrest.noDigit
  have hinteger : lexInteger (0x30 :: 0x2E ::
      (asciiUnits (List.replicate zeros '0' ++ digits number) ++ rest)) =
        some ([0x30], 0x2E :: (asciiUnits (List.replicate zeros '0' ++ digits number) ++ rest)) :=
    rfl
  have hzero : ∀ text : Units, digitsValue ([0x30] ++ text) = digitsValue text := fun _ => rfl
  rw [lexUnsigned_of_parts hinteger hfraction hrest.lexExponent, hzero,
    digitsValue_asciiUnits hall, digitsValue_append, digitsValue_digits,
    digitsValue_replicate_zero, length_asciiUnits, List.length_append, List.length_replicate]
  simp

/-- The first digit alone, and what follows it. -/
theorem lexUnsigned_single {after : Units} {exponent : ℤ} (hnumber : number ≠ 0)
    (hlength : (digits number).length = 1)
    (hafter : ∀ u ∈ after.head?, isDigit u = false ∧ u ≠ 0x2E)
    (hexponent : lexExponent after = some (exponent, rest)) :
    lexUnsigned (asciiUnits ((digits number).take 1) ++ after) =
      some ((number : ℚ) * 10 ^ exponent, rest) := by
  have hall : ∀ c ∈ (digits number).take 1, c.isDigit = true :=
    fun c hc => isDigit_of_mem_digits (List.mem_of_mem_take hc)
  have hinteger := lexInteger_take hnumber (fun u hu => (hafter u hu).1) hall
    ⟨1, [], Nat.one_pos, by simp⟩
  rw [lexUnsigned_of_parts hinteger (lexFraction_none fun u hu => (hafter u hu).2) hexponent,
    List.append_nil, digitsValue_asciiUnits hall, List.take_of_length_le hlength.le,
    digitsValue_digits]
  simp

/-- The exponent of a decimal. -/
theorem lexExponent_decimal {point : ℤ} (hpoint : point < 0 ∨ 1 < point) (hrest : Delimited rest) :
    lexExponent (asciiUnits ('e' :: (if point < 0 then '-' else '+') ::
        digits (point - 1).natAbs) ++ rest) = some (point - 1, rest) := by
  have hnumber : (point - 1).natAbs ≠ 0 := by omega
  have hall : ∀ c ∈ digits (point - 1).natAbs, c.isDigit = true := fun c => isDigit_of_mem_digits
  have hne : asciiUnits (digits (point - 1).natAbs) ≠ [] := by
    obtain ⟨first, front, hdigits, -⟩ := digits_eq_cons hnumber
    simp [hdigits]
  have hread := lexExponent_digits rest (decide (point < 0)) hne
    (fun u hu => isDigit_of_mem_asciiUnits hall hu) hrest.noDigit
  rw [digitsValue_asciiUnits hall, digitsValue_digits] at hread
  by_cases hneg : point < 0
  · have hvalue : -((point - 1).natAbs : ℤ) = point - 1 := by
      rw [Int.ofNat_natAbs_of_nonpos (by omega), neg_neg]
    simp only [hneg, decide_true, if_true, hvalue] at hread ⊢
    exact hread
  · have hvalue : ((point - 1).natAbs : ℤ) = point - 1 := Int.natAbs_of_nonneg (by omega)
    simp only [hneg, decide_false, Bool.false_eq_true, if_false, hvalue] at hread ⊢
    exact hread

theorem lexUnsigned_decimalText {decimal : Decimal} (h : decimal.significand ≠ 0)
    (hrest : Delimited rest) :
    lexUnsigned (asciiUnits (decimalText decimal) ++ rest) =
      some ((decimal.significand : ℚ) *
        10 ^ (decimal.point - ((digits decimal.significand).length : ℤ)), rest) := by
  have hpos : 0 < (digits decimal.significand).length := by
    obtain ⟨first, front, hdigits, -⟩ := digits_eq_cons h
    simp [hdigits]
  unfold decimalText
  dsimp only
  by_cases hplain : -6 < decimal.point ∧ decimal.point ≤ 21
  · rw [if_pos hplain]
    split_ifs with hwhole hpoint
    · rw [lexUnsigned_whole h _ hrest, Int.toNat_of_nonneg (by omega)]
    · rw [asciiUnits_append, asciiUnits_cons, List.append_assoc, List.cons_append]
      refine (lexUnsigned_point h (by omega) (by omega) hrest.noDigit
        hrest.lexExponent).trans ?_
      congr 4
      omega
    · have hread := lexUnsigned_small h (-decimal.point).toNat hrest
      refine hread.trans ?_
      congr 4
      omega
  · rw [if_neg hplain]
    have hfar : decimal.point < 0 ∨ 1 < decimal.point := by omega
    have hexponent := lexExponent_decimal hfar hrest
    by_cases hsingle : (digits decimal.significand).length = 1
    · rw [if_pos hsingle, List.append_nil, asciiUnits_append, List.append_assoc,
        lexUnsigned_single h hsingle (by simp [isDigit]) hexponent, hsingle]
      rfl
    · rw [if_neg hsingle, asciiUnits_append, asciiUnits_append, asciiUnits_cons,
        List.append_assoc, List.append_assoc, List.cons_append]
      have hread := lexUnsigned_point h Nat.one_pos (by omega) (by simp [isDigit]) hexponent
      refine hread.trans ?_
      congr 4
      omega

/-- The text of a decimal begins with a digit. -/
theorem decimalText_eq_cons {decimal : Decimal} (h : decimal.significand ≠ 0) :
    ∃ first text, decimalText decimal = first :: text ∧ first.isDigit = true := by
  obtain ⟨first, front, hdigits, -⟩ := digits_eq_cons h
  have hfirst : first.isDigit = true := isDigit_of_mem_digits (by
    rw [hdigits]
    exact List.mem_cons_self)
  unfold decimalText
  rw [hdigits]
  dsimp only
  split_ifs with hplain hwhole hpoint
  · exact ⟨_, _, rfl, hfirst⟩
  · obtain ⟨place, hplace⟩ : ∃ place, decimal.point.toNat = place + 1 :=
      Nat.exists_eq_succ_of_ne_zero (by omega)
    rw [hplace, List.take_succ_cons, List.cons_append]
    exact ⟨_, _, rfl, hfirst⟩
  · exact ⟨_, _, rfl, rfl⟩
  all_goals exact ⟨_, _, rfl, hfirst⟩

/-- A token that begins with a digit is a number. -/
theorem lexToken_digit {unit : UInt16} (rest : Units) (h : isDigit unit = true) :
    lexToken (unit :: rest) = (lexUnsigned (unit :: rest)).map fun read =>
      (.literal (.number (.ofRat read.1)), read.2) := by
  unfold lexToken
  split <;> first | rfl | (rename_i heq; cases heq <;> exact absurd h (by decide))

/-- The text of a finite number is one token. -/
theorem lexToken_text (x : Double) (hrest : Delimited rest) :
    lexToken (asciiUnits x.text ++ rest) =
      some (.literal (.number (.finite x.value)), rest) := by
  by_cases hzero : x.value = 0
  · have htext : x.text = ['0'] := dif_pos hzero
    have hread : lexUnsigned (0x30 :: rest) = some (0, rest) := by
      have hinteger : lexInteger (0x30 :: rest) = some ([0x30], rest) := rfl
      rw [lexUnsigned_of_parts hinteger hrest.lexFraction hrest.lexExponent]
      simp [digitsValue]
    have hunits : asciiUnits ['0'] ++ rest = 0x30 :: rest := rfl
    have hdigit : isDigit 0x30 = true := rfl
    rw [htext, hzero, hunits, lexToken_digit rest hdigit, hread, Option.map_some]
    simp [Number.ofRat]
  have hne := toDecimal_significand_ne_zero x hzero
  have hdecimal := (toDecimal_isDecimal x hzero).2.2
  have hread := lexUnsigned_decimalText hne hrest
  unfold signed at hdecimal
  unfold Double.text
  rw [dif_neg hzero]
  by_cases hneg : x.value < 0
  · rw [if_pos hneg] at hdecimal ⊢
    have hunits : asciiUnits ('-' :: decimalText (toDecimal x hzero)) ++ rest =
        0x2D :: (asciiUnits (decimalText (toDecimal x hzero)) ++ rest) := rfl
    rw [hunits]
    change (lexUnsigned _).map _ = _
    rw [hread, Option.map_some]
    dsimp only
    rw [hdecimal]
  · rw [if_neg hneg] at hdecimal ⊢
    obtain ⟨first, text, htext, hfirst⟩ := decimalText_eq_cons hne
    rw [htext, asciiUnits_cons, List.cons_append] at hread ⊢
    rw [lexToken_digit _ (digit_spec hfirst).1, hread, Option.map_some, hdecimal]

/-- The text of a finite number begins with no white space. -/
theorem text_eq_cons (x : Double) :
    ∃ unit units, asciiUnits x.text = unit :: units ∧ isWhiteSpace unit = false := by
  have hdigit : ∀ c : Char, c.isDigit = true → isWhiteSpace c.toNat.toUInt16 = false := by
    intro c hc
    have hunit := (digit_spec hc).1
    generalize c.toNat.toUInt16 = unit at hunit ⊢
    cases hspace : isWhiteSpace unit with
    | false => rfl
    | true =>
        simp only [isWhiteSpace, Bool.or_eq_true, beq_iff_eq] at hspace
        rcases hspace with ((rfl | rfl) | rfl) | rfl <;> exact absurd hunit (by decide)
  unfold Double.text
  split_ifs with hzero hneg
  · exact ⟨_, _, rfl, rfl⟩
  · exact ⟨_, _, rfl, rfl⟩
  · obtain ⟨first, text, htext, hfirst⟩ :=
      decimalText_eq_cons (toDecimal_significand_ne_zero x hzero)
    exact ⟨_, _, by rw [htext, asciiUnits_cons], hdigit first hfirst⟩

end Decimals

end Arc.JsonText
