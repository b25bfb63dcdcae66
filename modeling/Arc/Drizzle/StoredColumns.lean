import Arc.Drizzle.DrizzleModelCodec

/-!
# Values in columns

A value of a kind that a column is built for comes back through its column as it was written. The
one exception is a text under `jsonCodec` where the driver parses JSON: the codec parses what it
is given once more, and never comes back to the text. The model codec sets a field to the value
that was decoded for it.
-/

namespace Arc.Drizzle

variable {T : ValueTypes}

/-! ### Values and their columns -/

/-- What a concept is made of. -/
inductive Primitive (T : ValueTypes)
  | string (text : Units)
  | number (value : ℚ)
  | guid (value : T.Guid)

def Primitive.kind : Primitive T → ConceptCodecKind
  | .string _ => .string
  | .number _ => .number
  | .guid _ => .guid

def Primitive.value : Primitive T → ColumnValue T
  | .string text => .string text
  | .number value => .number (.finite value)
  | .guid value => .guid value

/-- The text of a primitive as a key; a number is a safe integer. -/
def Primitive.keyText (F : Fundamentals T) : Primitive T → Option Units
  | .string text => some text
  | .number value =>
      if (Number.finite value).isSafeInteger then some (stringOf F (.number (.finite value)))
      else none
  | .guid value => some (F.guidText value)

/-- Whether a value of JSON may be in a field of a type: as the primitive that it is, or as an
instance of a class, which is not looked into. -/
def fitsType : JsonValue → FieldType → Bool
  | .null, _ => true
  | .string _, .string => true
  | .number _, .number => true
  | .boolean _, .boolean => true
  | _, .array => true
  | _, .object => true
  | _, .class _ _ => true
  | _, _ => false

/-- A value of JSON that the validator of its column accepts. -/
structure JsonField (T : ValueTypes) where
  value : JsonValue
  type : FieldType
  accepts : ColumnValue T → Bool
  isJson : value.IsJson
  fits : fitsType value type = true
  accepted : accepts (.json value) = true

/-- A value of a kind that columns are built for; texts and numbers are in columns of Drizzle's
own. -/
inductive FieldValue (T : ValueTypes)
  | string (columnType : String) (text : Units)
  | number (columnType : String) (value : ℚ)
  | guid (value : T.Guid)
  | dateOnly (value : T.DateOnly)
  | timeOnly (value : T.TimeOnly)
  | timeSpan (value : T.TimeSpan)
  | concept (type : ConceptType) (primitive : Primitive T) (varcharLength : Option Number)
  | json (field : JsonField T)

namespace FieldValue

def value : FieldValue T → ColumnValue T
  | .string _ text => .string text
  | .number _ value => .number (.finite value)
  | .guid value => .guid value
  | .dateOnly value => .dateOnly value
  | .timeOnly value => .timeOnly value
  | .timeSpan value => .timeSpan value
  | .concept type primitive _ => .concept type primitive.value
  | .json field => .json field.value

def type : FieldValue T → FieldType
  | .string _ _ => .string
  | .number _ _ => .number
  | .guid _ => .guid
  | .dateOnly _ => .dateOnly
  | .timeOnly _ => .timeOnly
  | .timeSpan _ => .timeSpan
  | .concept type _ _ => .concept type
  | .json field => field.type

/-- A text that is a value of JSON. -/
def isJsonString : FieldValue T → Bool
  | .json field => ColumnValue.isString (T := T) (.json field.value)
  | _ => false

/-- A validator that gives back what it accepts. -/
def validator (accepts : ColumnValue T → Bool) (value : ColumnValue T) :
    Except CodecError (ColumnValue T) :=
  if accepts value then .ok value else .error .foreign

variable (F : Fundamentals T)

def column (dialect : DrizzleDialect) : FieldValue T → Except CodecError (Column T)
  | .string columnType _ => .ok ⟨columnType, none⟩
  | .number columnType _ => .ok ⟨columnType, none⟩
  | .guid _ => .ok (customColumn dialect (guidCodec F dialect))
  | .dateOnly _ => .ok (customColumn dialect (dateOnlyCodec F))
  | .timeOnly _ => .ok (customColumn dialect (timeOnlyCodec F))
  | .timeSpan _ => .ok (customColumn dialect (timeSpanCodec F))
  | .concept type primitive varcharLength =>
      customColumn dialect <$> conceptCodec F type primitive.kind dialect varcharLength
  | .json field => .ok (customColumn dialect (jsonCodec F dialect (validator field.accepts)))

/-- The text of a key; JSON is no key. -/
def keyText : FieldValue T → Option Units
  | .string _ text => Primitive.keyText F (.string text)
  | .number _ value => Primitive.keyText F (.number value)
  | .guid value => Primitive.keyText F (.guid value)
  | .dateOnly value => some (F.dateOnlyText value)
  | .timeOnly value => some (F.timeOnlyText value)
  | .timeSpan value => some (F.timeSpanText value)
  | .concept _ primitive _ => Primitive.keyText F primitive
  | .json _ => none

end FieldValue

/-! ### Columns -/

section Columns

variable {F : Fundamentals T} {canonical : Units → Units} {dialect : DrizzleDialect}

theorem conceptCodec_eq_ok {type : ConceptType} {kind : ConceptCodecKind}
    {varcharLength : Option Number} {codec : ColumnCodec T}
    (h : conceptCodec F type kind dialect varcharLength = .ok codec) :
    type.valueType = some kind ∧ codec.sqlType = conceptSqlType F kind dialect varcharLength ∧
      codec.toDriver = conceptToDriver F kind dialect ∧
      codec.fromDriver = conceptFromDriver F type kind dialect := by
  unfold conceptCodec at h
  split_ifs at h with htype hlength
  cases h
  exact ⟨by simpa using htype, rfl, rfl, rfl⟩

/-- The text of an identifier comes back as it was written. -/
theorem stored_guid (hcanonical : ∀ value, canonical (F.guidText value) = F.guidText value)
    (type : SqlType) (htype : type ≠ .json ∧ type ≠ .jsonb) (value : T.Guid) :
    stored canonical type (ColumnValue.string (T := T) (F.guidText value)) =
      .ok (.string (F.guidText value)) := by
  cases type
  case uuid => exact congrArg (fun text => Except.ok (ColumnValue.string text)) (hcanonical value)
  case json => exact absurd rfl htype.1
  case jsonb => exact absurd rfl htype.2
  all_goals rfl

/-- Columns that are neither of identifiers nor of JSON return what was written. -/
theorem stored_of_plain {type : SqlType} (htype : type ≠ .uuid ∧ type ≠ .json ∧ type ≠ .jsonb)
    (value : ColumnValue T) : stored canonical type value = .ok value := by
  cases type
  case uuid => exact absurd rfl htype.1
  case json => exact absurd rfl htype.2.1
  case jsonb => exact absurd rfl htype.2.2
  all_goals rfl

/-- The three conversions of a value, one after the other. -/
theorem roundTrip_of_steps {codec : ColumnCodec T} {value written raw : ColumnValue T}
    {read : Except CodecError (ColumnValue T)} (hwritten : codec.toDriver value = .ok written)
    (hstored : stored canonical (dataType dialect codec) written = .ok raw)
    (hread : codec.fromDriver raw = read) :
    (customColumn dialect codec).roundTrip canonical dialect value = read := by
  change (codec.toDriver value >>= stored canonical (dataType dialect codec)) >>=
    codec.fromDriver = read
  rw [hwritten]
  change stored canonical (dataType dialect codec) written >>= codec.fromDriver = read
  rw [hstored]
  exact hread

theorem parseText_of_parse {α : Type} {parse : Units → Option α} {construct : α → ColumnValue T}
    {text : Units} {value : α} (h : parse text = some value) :
    parseText parse construct (.string text) = .ok (construct value) := by
  change parsed (parse text) construct = _
  rw [h]
  rfl

/-! ### Values that are read back -/

variable (hinverse : F.Inverse)
  (hcanonical : ∀ value, canonical (F.guidText value) = F.guidText value)

include hinverse hcanonical in
theorem roundTrip_guid (value : T.Guid) :
    (customColumn dialect (guidCodec F dialect)).roundTrip canonical dialect (.guid value) =
      .ok (.guid value) := by
  have hstored := stored_guid hcanonical (dataType dialect (guidCodec F dialect))
    (by cases dialect <;> exact ⟨nofun, nofun⟩) value
  exact roundTrip_of_steps rfl hstored (parseText_of_parse (hinverse.guid value))

include hinverse in
theorem roundTrip_dateOnly (value : T.DateOnly) :
    (customColumn dialect (dateOnlyCodec F)).roundTrip canonical dialect (.dateOnly value) =
      .ok (.dateOnly value) :=
  roundTrip_of_steps rfl (stored_of_plain (by cases dialect <;> exact ⟨nofun, nofun, nofun⟩) _)
    (parseText_of_parse (hinverse.dateOnly value))

include hinverse in
theorem roundTrip_timeOnly (value : T.TimeOnly) :
    (customColumn dialect (timeOnlyCodec F)).roundTrip canonical dialect (.timeOnly value) =
      .ok (.timeOnly value) :=
  roundTrip_of_steps rfl (stored_of_plain (by cases dialect <;> exact ⟨nofun, nofun, nofun⟩) _)
    (parseText_of_parse (hinverse.timeOnly value))

include hinverse in
theorem roundTrip_timeSpan (value : T.TimeSpan) :
    (customColumn dialect (timeSpanCodec F)).roundTrip canonical dialect (.timeSpan value) =
      .ok (.timeSpan value) :=
  roundTrip_of_steps rfl (stored_of_plain (by cases dialect <;> exact ⟨nofun, nofun, nofun⟩) _)
    (parseText_of_parse (hinverse.timeSpan value))

include hinverse hcanonical in
/-- A concept keeps its class. -/
theorem roundTrip_concept {type : ConceptType} {primitive : Primitive T}
    {varcharLength : Option Number} {codec : ColumnCodec T}
    (h : conceptCodec F type primitive.kind dialect varcharLength = .ok codec) :
    (customColumn dialect codec).roundTrip canonical dialect (.concept type primitive.value) =
      .ok (.concept type primitive.value) := by
  obtain ⟨-, hsql, htoDriver, hfromDriver⟩ := conceptCodec_eq_ok h
  cases primitive with
  | string text =>
      have hplain : dataType dialect codec ≠ .uuid ∧ dataType dialect codec ≠ .json ∧
          dataType dialect codec ≠ .jsonb := by
        unfold dataType
        rw [hsql]
        cases varcharLength <;> cases dialect <;> exact ⟨nofun, nofun, nofun⟩
      refine roundTrip_of_steps ?_ (stored_of_plain hplain (.string text)) ?_
      · rw [htoDriver]
        rfl
      · rw [hfromDriver]
        rfl
  | number value =>
      have hplain : dataType dialect codec ≠ .uuid ∧ dataType dialect codec ≠ .json ∧
          dataType dialect codec ≠ .jsonb := by
        unfold dataType
        rw [hsql]
        cases dialect <;> exact ⟨nofun, nofun, nofun⟩
      refine roundTrip_of_steps ?_ (stored_of_plain hplain (.number (.finite value))) ?_
      · rw [htoDriver]
        rfl
      · rw [hfromDriver]
        rfl
  | guid value =>
      have hstored := stored_guid hcanonical (dataType dialect codec)
        (by unfold dataType; rw [hsql]; cases dialect <;> exact ⟨nofun, nofun⟩) value
      refine roundTrip_of_steps ?_ hstored ?_
      · rw [htoDriver]
        rfl
      · rw [hfromDriver]
        have hread : (guidCodec F dialect).fromDriver (.string (F.guidText value)) =
            .ok (.guid value) := parseText_of_parse (hinverse.guid value)
        change (ColumnValue.concept type ·) <$> (guidCodec F dialect).fromDriver
          (.string (F.guidText value)) = _
        rw [hread]
        rfl

theorem validator_accepted (field : JsonField T) :
    FieldValue.validator field.accepts (.json field.value) = .ok (.json field.value) :=
  if_pos field.accepted

/-- What a codec for JSON reads of a text. -/
theorem fromDriver_text (field : JsonField T) (text : Units) :
    (jsonCodec F dialect (FieldValue.validator field.accepts)).fromDriver (.string text) =
      parsed (JsonText.parse text) .json >>= FieldValue.validator field.accepts := rfl

/-- What it reads of a value that is parsed already. -/
theorem fromDriver_parsed (field : JsonField T)
    (h : ColumnValue.isString (T := T) (.json field.value) = false) :
    (jsonCodec F dialect (FieldValue.validator field.accepts)).fromDriver (.json field.value) =
      .ok (.json field.value) := by
  have hvalid := validator_accepted field
  revert h hvalid
  generalize FieldValue.validator field.accepts = validate
  cases field.value <;> intro h hvalid
  case string text => cases h
  all_goals exact hvalid

/-- The text of a value of JSON, which the driver parses unless the dialect is SQLite. -/
theorem stored_json (field : JsonField T) :
    stored canonical (dataType dialect (jsonCodec F dialect (FieldValue.validator field.accepts)))
        (ColumnValue.string (T := T) (JsonText.stringify field.value)) =
      .ok (if dialect = .sqlite then .string (JsonText.stringify field.value)
        else .json field.value) := by
  have hparsed : parsed (JsonText.parse (JsonText.stringify field.value))
      (ColumnValue.json (T := T)) = .ok (.json field.value) := by
    rw [JsonText.parse_stringify field.isJson]
    rfl
  cases dialect
  · exact hparsed
  · exact hparsed
  · rfl

theorem roundTrip_json (field : JsonField T) (h : dialect = .sqlite ∨
    ColumnValue.isString (T := T) (.json field.value) = false) :
    (customColumn dialect (jsonCodec F dialect (FieldValue.validator field.accepts))).roundTrip
      canonical dialect (.json field.value) = .ok (.json field.value) := by
  refine roundTrip_of_steps rfl (stored_json field) ?_
  split_ifs with hdialect
  · rw [fromDriver_text, JsonText.parse_stringify field.isJson]
    exact validator_accepted field
  · exact fromDriver_parsed field (h.resolve_left hdialect)

/-- A text that the driver has parsed is parsed once more, and never comes back. -/
theorem roundTrip_json_ne (field : JsonField T) (hdialect : dialect ≠ .sqlite)
    (h : ColumnValue.isString (T := T) (.json field.value) = true) :
    (customColumn dialect (jsonCodec F dialect (FieldValue.validator field.accepts))).roundTrip
      canonical dialect (.json field.value) ≠ .ok (.json field.value) := by
  rw [roundTrip_of_steps rfl (stored_json field) rfl, if_neg hdialect]
  obtain ⟨text, htext⟩ : ∃ text, field.value = .string text := by
    revert h
    cases field.value <;> intro h
    case string text => exact ⟨text, rfl⟩
    all_goals cases h
  rw [htext, fromDriver_text]
  intro hread
  cases hparse : JsonText.parse text with
  | none =>
      rw [hparse] at hread
      cases hread
  | some value =>
      rw [hparse] at hread
      change FieldValue.validator field.accepts (.json value) = _ at hread
      unfold FieldValue.validator at hread
      split_ifs at hread
      cases hread
      exact JsonText.parse_ne_string text hparse

end Columns

/-! ### Kinds -/

namespace FieldValue

variable {F : Fundamentals T} {canonical : Units → Units} {dialect : DrizzleDialect}

theorem column_concept {type : ConceptType} {primitive : Primitive T}
    {varcharLength : Option Number} {column : Column T}
    (h : (concept type primitive varcharLength).column F dialect = .ok column) :
    ∃ codec, conceptCodec F type primitive.kind dialect varcharLength = .ok codec ∧
      column = customColumn dialect codec := by
  change customColumn dialect <$> conceptCodec F type primitive.kind dialect varcharLength =
    .ok column at h
  cases hcodec : conceptCodec F type primitive.kind dialect varcharLength with
  | error error =>
      rw [hcodec] at h
      cases h
  | ok codec =>
      rw [hcodec] at h
      cases h
      exact ⟨codec, rfl, rfl⟩

/-- A value comes back through its column exactly when it is no text that the driver parses. -/
theorem roundTrip_iff (hinverse : F.Inverse)
    (hcanonical : ∀ value, canonical (F.guidText value) = F.guidText value)
    {field : FieldValue T} {column : Column T} (h : field.column F dialect = .ok column) :
    column.roundTrip canonical dialect field.value = .ok field.value ↔
      dialect = .sqlite ∨ field.isJsonString = false := by
  cases field with
  | string columnType text =>
      cases h
      exact iff_of_true rfl (.inr rfl)
  | number columnType value =>
      cases h
      exact iff_of_true rfl (.inr rfl)
  | guid value =>
      cases h
      exact iff_of_true (roundTrip_guid hinverse hcanonical value) (.inr rfl)
  | dateOnly value =>
      cases h
      exact iff_of_true (roundTrip_dateOnly hinverse value) (.inr rfl)
  | timeOnly value =>
      cases h
      exact iff_of_true (roundTrip_timeOnly hinverse value) (.inr rfl)
  | timeSpan value =>
      cases h
      exact iff_of_true (roundTrip_timeSpan hinverse value) (.inr rfl)
  | concept type primitive varcharLength =>
      obtain ⟨codec, hcodec, rfl⟩ := column_concept h
      exact iff_of_true (roundTrip_concept hinverse hcanonical hcodec) (.inr rfl)
  | json field =>
      cases h
      refine ⟨fun hread => ?_, roundTrip_json field⟩
      by_contra hcondition
      obtain ⟨hdialect, hstring⟩ := not_or.1 hcondition
      exact roundTrip_json_ne field hdialect (Bool.eq_true_of_not_eq_false hstring) hread

theorem finite_of_isJson {number : Number} (h : (JsonValue.number number).IsJson) :
    ∃ value, number = .finite value := by
  cases number with
  | nan => exact h.elim
  | infinite negative => exact h.elim
  | finite value => exact ⟨value, rfl⟩

theorem fieldValue_json (field : JsonField T) (name : String) :
    DrizzleModelCodec.fieldValue F ⟨name, field.type⟩ (.json field.value) =
      .ok (.json field.value) := by
  obtain ⟨value, type, accepts, hjson, hfits, -⟩ := field
  cases type
  -- The instances of a class are not looked into.
  case array => exact ite_self _
  case object => exact ite_self _
  case «class» id name => exact ite_self _
  case string =>
      cases value
      case null => rfl
      case string text => rfl
      all_goals cases hfits
  case number =>
      cases value
      case null => rfl
      case number value =>
          obtain ⟨value, rfl⟩ := finite_of_isJson hjson
          rfl
      all_goals cases hfits
  case boolean =>
      cases value
      case null => rfl
      case boolean value => rfl
      all_goals cases hfits
  all_goals
    cases value
    case null => rfl
    all_goals cases hfits

/-- A key is bound. -/
theorem bind_eq_ok {field : FieldValue T} {key : Units} (hkey : field.keyText F = some key)
    {column : Column T} (h : field.column F dialect = .ok column) :
    ∃ bound, column.bind field.value = .ok bound := by
  cases field with
  | concept type primitive varcharLength =>
      obtain ⟨codec, hcodec, rfl⟩ := column_concept h
      obtain ⟨-, -, htoDriver, -⟩ := conceptCodec_eq_ok hcodec
      change ∃ bound, codec.toDriver (.concept type primitive.value) = .ok bound
      rw [htoDriver]
      cases primitive <;> exact ⟨_, rfl⟩
  | json field => cases hkey
  | _ =>
      cases h
      exact ⟨_, rfl⟩

/-- A column of Drizzle's own holds texts and numbers, which are no objects. -/
theorem custom_or_plain {field : FieldValue T} {key : Units} (hkey : field.keyText F = some key)
    {column : Column T} (h : field.column F dialect = .ok column) :
    DrizzleModelCodec.isCustom column.columnType = true ∨
      DrizzleModelCodec.plain F field.value = field.value := by
  have hcustom : DrizzleModelCodec.isCustom (customColumnType dialect) = true := by
    cases dialect <;> decide
  cases field with
  | string columnType text => exact .inr rfl
  | number columnType value => exact .inr rfl
  | concept type primitive varcharLength =>
      obtain ⟨codec, -, rfl⟩ := column_concept h
      exact .inl hcustom
  | json field => cases hkey
  | _ =>
      cases h
      exact .inl hcustom

/-- A field is set to the value that Drizzle has decoded for it. -/
theorem fieldValue_value (field : FieldValue T) (name : String) :
    DrizzleModelCodec.fieldValue F ⟨name, field.type⟩ field.value = .ok field.value := by
  cases field with
  | concept type primitive varcharLength =>
      have hinstance : (concept type primitive varcharLength).value.instanceOf (.concept type) =
          true := decide_eq_true rfl
      exact if_pos (by rw [Bool.or_eq_true]; exact .inr hinstance)
  | json field =>
      exact fieldValue_json field name
  | _ => rfl

end FieldValue

end Arc.Drizzle
