import Arc.Drizzle.StoredColumns

/-!
# Texts of keys

The text of a key, a number being a safe integer, is read as the key again.
-/

namespace Arc.Drizzle.DrizzleModelCodec

variable {T : ValueTypes} {F : Fundamentals T}

/-- Digits are a number key. -/
theorem integer_digits {digits : Units} (hne : digits ≠ [])
    (hall : ∀ u ∈ digits, JsonText.isDigit u = true) :
    isIntegerText digits = true ∧ integerOf digits = .ofRat (JsonText.digitsValue digits) ∧
      isIntegerText (0x2D :: digits) = true ∧
      integerOf (0x2D :: digits) = .ofRat (-(JsonText.digitsValue digits : ℚ)) := by
  have hdigits : (!digits.isEmpty && digits.all JsonText.isDigit) = true := by
    have hempty : digits.isEmpty = false := by simpa using hne
    rw [hempty, List.all_eq_true.2 hall]
    rfl
  obtain ⟨unit, rest, rfl⟩ := List.exists_cons_of_ne_nil hne
  have hunit : unit ≠ 0x2D := by
    rintro rfl
    exact absurd (hall _ List.mem_cons_self) (by decide)
  refine ⟨?_, ?_, hdigits, rfl⟩
  · unfold isIntegerText
    split
    · rename_i heq
      exact absurd (List.cons.inj heq).1 hunit
    · exact hdigits
  · unfold integerOf
    split
    · rename_i heq
      exact absurd (List.cons.inj heq).1 hunit
    · rfl

/-- The text of a safe integer is a number key, and is read as it. -/
theorem integer_text {value : ℚ} (h : (Number.finite value).isSafeInteger = true) :
    isIntegerText (stringOf F (.number (.finite value))) = true ∧
      integerOf (stringOf F (.number (.finite value))) = .finite value := by
  obtain ⟨hden, hmax⟩ := Bool.and_eq_true_iff.1 h
  have hinteger : value = value.num := ((Rat.den_eq_one_iff _).1 (by simpa using hden)).symm
  have hbound : |value| ≤ 9007199254740991 := of_decide_eq_true hmax
  have hrounded : Number.ofRat value = .finite value := by
    have hnum : |value.num| < 2 ^ 53 := by
      rw [hinteger] at hbound
      have : |value.num| ≤ 9007199254740991 := by exact_mod_cast hbound
      omega
    have hround := Number.ofRat_intCast hnum
    rwa [← hinteger] at hround
  have htext : stringOf F (.number (.finite value)) =
      JsonText.asciiUnits (Number.Double.text ⟨value, hrounded⟩) :=
    congrArg JsonText.asciiUnits (dif_pos hrounded)
  rw [htext]
  by_cases hzero : value = 0
  · subst hzero
    have hzeroText : Number.Double.text ⟨0, hrounded⟩ = ['0'] := dif_pos rfl
    rw [hzeroText]
    exact ⟨rfl, rfl⟩
  obtain ⟨zeros, hdecimal, hvalue⟩ := Number.decimalText_of_integer
    (x := ⟨value, hrounded⟩) hzero hinteger (hbound.trans_lt (by norm_num))
  have hne := Number.toDecimal_significand_ne_zero ⟨value, hrounded⟩ hzero
  have hdouble : Number.Double.text ⟨value, hrounded⟩ =
      if value < 0 then '-' :: Number.decimalText (Number.toDecimal ⟨value, hrounded⟩ hzero)
      else Number.decimalText (Number.toDecimal ⟨value, hrounded⟩ hzero) := dif_neg hzero
  rw [hdouble]
  revert hdecimal hvalue hne
  generalize Number.toDecimal ⟨value, hrounded⟩ hzero = decimal
  intro hdecimal hvalue hne
  have hall : ∀ c ∈ Number.digits decimal.significand ++ List.replicate zeros '0',
      c.isDigit = true := by
    intro c hc
    rcases List.mem_append.1 hc with hc | hc
    · exact Number.isDigit_of_mem_digits hc
    · rw [List.eq_of_mem_replicate hc]
      rfl
  have hnonempty : JsonText.asciiUnits (Number.digits decimal.significand ++
      List.replicate zeros '0') ≠ [] := by
    obtain ⟨first, front, hdigits, -⟩ := Number.digits_eq_cons hne
    simp [hdigits]
  obtain ⟨hplain, hplainValue, hsigned, hsignedValue⟩ := integer_digits hnonempty
    fun u hu => JsonText.isDigit_of_mem_asciiUnits hall hu
  have hmagnitude : (JsonText.digitsValue (JsonText.asciiUnits
      (Number.digits decimal.significand ++ List.replicate zeros '0')) : ℚ) =
        decimal.significand * 10 ^ zeros := by
    rw [JsonText.digitsValue_asciiUnits hall, Number.digitsValue_append,
      Number.digitsValue_digits, Number.digitsValue_replicate_zero, List.length_replicate]
    push_cast
    ring
  rw [hmagnitude] at hplainValue hsignedValue
  by_cases hneg : value < 0
  · rw [Number.signed, if_pos hneg] at hvalue
    have hminus : JsonText.asciiUnits (if value < 0 then '-' :: Number.decimalText decimal
        else Number.decimalText decimal) = 0x2D :: JsonText.asciiUnits
          (Number.digits decimal.significand ++ List.replicate zeros '0') := by
      rw [if_pos hneg, hdecimal]
      rfl
    rw [hminus]
    exact ⟨hsigned, hsignedValue.trans hvalue⟩
  · rw [Number.signed, if_neg hneg] at hvalue
    rw [if_neg hneg, hdecimal]
    exact ⟨hplain, hplainValue.trans hvalue⟩

theorem keyText_number {value : ℚ} {key : Units}
    (h : (Primitive.number (T := T) value).keyText F = some key) :
    (Number.finite value).isSafeInteger = true ∧ key = stringOf F (.number (.finite value)) := by
  change (if (Number.finite value).isSafeInteger then some (stringOf F (.number (.finite value)))
    else none) = some key at h
  split_ifs at h with hsafe
  cases h
  exact ⟨hsafe, rfl⟩

theorem keyPrimitive_number {value : ℚ} (h : (Number.finite value).isSafeInteger = true) :
    keyPrimitive F .number (stringOf F (.number (.finite value))) =
      .ok (.number (.finite value)) := by
  obtain ⟨htext, hvalue⟩ := integer_text (F := F) h
  unfold keyPrimitive
  dsimp only
  rw [htext, hvalue, h]
  rfl

theorem keyPrimitive_guid (hinverse : F.Inverse) (value : T.Guid) :
    keyPrimitive F .guid (F.guidText value) = .ok (.guid value) := by
  unfold keyPrimitive
  dsimp only
  rw [hinverse.isGuid, hinverse.guid]
  rfl

/-- The text of a key is read as the key. -/
theorem convert_keyPrimitive (hinverse : F.Inverse) {field : FieldValue T} {key : Units}
    (hkey : field.keyText F = some key) {dialect : DrizzleDialect} {column : Column T}
    (hcolumn : field.column F dialect = .ok column) (name : String) :
    keyPrimitive F (keyType field.type) key >>= convert F ⟨name, field.type⟩ =
      .ok field.value := by
  have hprimitive : ∀ (type : ConceptType) (primitive : Primitive T),
      type.valueType = some primitive.kind → primitive.keyText F = some key →
        keyPrimitive F (keyType (.concept type)) key >>= convert F ⟨name, .concept type⟩ =
          .ok (.concept type primitive.value) := by
    intro type primitive htype hkey
    cases primitive with
    | string text =>
        cases hkey
        unfold keyType convert
        dsimp only
        rw [htype]
        rfl
    | number value =>
        obtain ⟨hsafe, rfl⟩ := keyText_number hkey
        have hread := keyPrimitive_number (F := F) hsafe
        unfold keyType convert
        dsimp only
        rw [htype]
        dsimp only [Primitive.kind]
        rw [hread]
        rfl
    | guid value =>
        cases hkey
        have hread := keyPrimitive_guid hinverse value
        unfold keyType convert
        dsimp only
        rw [htype]
        dsimp only [Primitive.kind]
        rw [hread]
        rfl
  cases field with
  | string columnType text =>
      cases hkey
      rfl
  | number columnType value =>
      obtain ⟨hsafe, rfl⟩ := keyText_number hkey
      change keyPrimitive F .number _ >>= convert F ⟨name, .number⟩ = _
      rw [keyPrimitive_number hsafe]
      rfl
  | guid value =>
      cases hkey
      change keyPrimitive F .guid _ >>= convert F ⟨name, .guid⟩ = _
      rw [keyPrimitive_guid hinverse]
      change parsed (F.parseGuid (F.guidText value)) .guid = _
      rw [hinverse.guid]
      rfl
  | dateOnly value =>
      cases hkey
      change parsed (F.parseDateOnly (F.dateOnlyText value)) .dateOnly = _
      rw [hinverse.dateOnly]
      rfl
  | timeOnly value =>
      cases hkey
      change parsed (F.parseTimeOnly (F.timeOnlyText value)) .timeOnly = _
      rw [hinverse.timeOnly]
      rfl
  | timeSpan value =>
      cases hkey
      change parsed (F.parseTimeSpan (F.timeSpanText value)) .timeSpan = _
      rw [hinverse.timeSpan]
      rfl
  | concept type primitive varcharLength =>
      refine hprimitive type primitive ?_ hkey
      obtain ⟨codec, hcodec, -⟩ := FieldValue.column_concept hcolumn
      exact (conceptCodec_eq_ok hcodec).1
  | json field => cases hkey

end Arc.Drizzle.DrizzleModelCodec
