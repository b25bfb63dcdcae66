import Arc.Drizzle.KeyTexts

/-!
# Records in a store

A record is decoded from its columns, materialized from the row of what was decoded, and found by
the text of its key. It survives the store exactly when the dialect is SQLite or none of its
fields holds a text as a value of JSON.
-/

namespace Arc.Drizzle

variable {T : ValueTypes}

/-- An instance of a model with its declared fields, and what the constructor of the model
sets. -/
structure Record (T : ValueTypes) where
  typeName : String
  names : List String
  values : String → FieldValue T
  initial : String → ColumnValue T

namespace Record

def fields (record : Record T) : List WireField :=
  record.names.map fun name => ⟨name, (record.values name).type⟩

section Store

variable (F : Fundamentals T) (canonical : Units → Units) (dialect : DrizzleDialect)

def columns (record : Record T) (name : String) : Option (Column T) :=
  if record.names.contains name then ((record.values name).column F dialect).toOption else none

def codec (record : Record T) : Except CodecError (DrizzleModelCodec T) :=
  DrizzleModelCodec.create record.typeName record.fields (record.columns F dialect)

/-- A value as Drizzle decodes it, written into its column and read. -/
def decoded (record : Record T) (name : String) : Except CodecError (ColumnValue T) := do
  let column ← (record.values name).column F dialect
  column.roundTrip canonical dialect (record.values name).value

/-- The row of the decoded values. -/
def row (record : Record T) : List String → Except CodecError (String → ColumnValue T)
  | [] => .ok fun _ => .undefined
  | name :: names => do
      let value ← record.decoded F canonical dialect name
      let row ← record.row names
      .ok (Function.update row name value)

/-- The values of a record survive the store. -/
structure Survives (record : Record T) (codec : DrizzleModelCodec T) : Prop where
  decoded : ∀ name ∈ record.names,
    record.decoded F canonical dialect name = .ok (record.values name).value
  deserialized : ∃ row model, record.row F canonical dialect record.names = .ok row ∧
    codec.deserialize F record.initial row = .ok model ∧
      ∀ name ∈ record.names, model name = (record.values name).value
  keys : ∀ name ∈ record.names, ∀ key, (record.values name).keyText F = some key →
    ∃ column typed bound, codec.columns name = some column ∧
      codec.keyValue F name key = .ok typed ∧ column.bind typed = .ok bound ∧
        column.bind (record.values name).value = .ok bound

end Store

/-! ### What survives -/

variable {F : Fundamentals T} {canonical : Units → Units} {dialect : DrizzleDialect}
  {record : Record T} {codec : DrizzleModelCodec T}

/-- A codec has a column for each field. -/
theorem codec_eq_ok (h : record.codec F dialect = .ok codec) :
    codec = ⟨record.typeName, record.fields, record.columns F dialect⟩ ∧
      ∀ name ∈ record.names, ∃ column, (record.values name).column F dialect = .ok column ∧
        record.columns F dialect name = some column := by
  unfold Record.codec DrizzleModelCodec.create at h
  split_ifs at h
  split at h
  · cases h
  · rename_i hfind
    cases h
    refine ⟨rfl, fun name hname => ?_⟩
    have hfield : (⟨name, (record.values name).type⟩ : WireField) ∈ record.fields :=
      List.mem_map.2 ⟨name, hname, rfl⟩
    have hsome := List.find?_eq_none.1 hfind _ hfield
    have hcontains : record.names.contains name = true := List.contains_iff_mem.2 hname
    have hcolumns : record.columns F dialect name =
        ((record.values name).column F dialect).toOption := if_pos hcontains
    rw [hcolumns] at hsome ⊢
    cases hcolumn : (record.values name).column F dialect with
    | error error =>
        rw [hcolumn] at hsome
        exact absurd rfl hsome
    | ok column => exact ⟨column, rfl, rfl⟩

theorem decoded_iff (hinverse : F.Inverse)
    (hcanonical : ∀ value, canonical (F.guidText value) = F.guidText value) {name : String}
    {column : Column T} (hcolumn : (record.values name).column F dialect = .ok column) :
    record.decoded F canonical dialect name = .ok (record.values name).value ↔
      dialect = .sqlite ∨ (record.values name).isJsonString = false := by
  unfold decoded
  rw [hcolumn]
  exact FieldValue.roundTrip_iff hinverse hcanonical hcolumn

/-- The row of values that are all decoded. -/
theorem row_eq_ok {names : List String}
    (h : ∀ name ∈ names, record.decoded F canonical dialect name = .ok (record.values name).value) :
    ∃ row, record.row F canonical dialect names = .ok row ∧
      ∀ name ∈ names, row name = (record.values name).value := by
  induction names with
  | nil => exact ⟨_, rfl, nofun⟩
  | cons first names ih =>
      obtain ⟨row, hrow, hvalues⟩ := ih fun name hname => h name (List.mem_cons_of_mem _ hname)
      refine ⟨Function.update row first (record.values first).value, ?_, fun name hname => ?_⟩
      · unfold Record.row
        rw [h first List.mem_cons_self, hrow]
        rfl
      · by_cases hsame : name = first
        · rw [hsame, Function.update_self]
        · rw [Function.update_of_ne hsame]
          exact hvalues name ((List.mem_cons.1 hname).resolve_left hsame)

theorem value_isUndefined (field : FieldValue T) : field.value.isUndefined = false := by
  cases field <;> rfl

/-- The fields of a model are set to the values of the row. -/
theorem setFields_eq_ok {row : String → ColumnValue T} {names : List String}
    (hrow : ∀ name ∈ names, row name = (record.values name).value)
    (initial : String → ColumnValue T) :
    ∃ model, DrizzleModelCodec.setFields F row
        (names.map fun name => ⟨name, (record.values name).type⟩) initial = .ok model ∧
      (∀ name ∈ names, model name = (record.values name).value) ∧
      ∀ name, name ∉ names → model name = initial name := by
  induction names generalizing initial with
  | nil => exact ⟨initial, rfl, nofun, fun _ _ => rfl⟩
  | cons first names ih =>
      obtain ⟨model, hmodel, hset, hkept⟩ := ih
        (fun name hname => hrow name (List.mem_cons_of_mem _ hname))
        (Function.update initial first (record.values first).value)
      have hfirst := hrow first List.mem_cons_self
      refine ⟨model, ?_, fun name hname => ?_, fun name hname => ?_⟩
      · rw [List.map_cons, DrizzleModelCodec.setFields, hfirst, value_isUndefined,
          FieldValue.fieldValue_value]
        exact hmodel
      · by_cases hmem : name ∈ names
        · exact hset name hmem
        · rcases List.mem_cons.1 hname with rfl | hlater
          · rw [hkept name hmem, Function.update_self]
          · exact absurd hlater hmem
      · rw [List.mem_cons, not_or] at hname
        rw [hkept name hname.2, Function.update_of_ne hname.1]

theorem find_field {name : String} (hname : name ∈ record.names) :
    ∃ field, record.fields.find? (fun candidate => candidate.name = name) = some field ∧
      field = ⟨name, (record.values name).type⟩ := by
  cases hfind : record.fields.find? (fun candidate => candidate.name = name) with
  | none =>
      have hmem : (⟨name, (record.values name).type⟩ : WireField) ∈ record.fields :=
        List.mem_map.2 ⟨name, hname, rfl⟩
      exact absurd (decide_eq_true rfl) (List.find?_eq_none.1 hfind _ hmem)
  | some field =>
      refine ⟨field, rfl, ?_⟩
      have hsame : field.name = name := by simpa using List.find?_some hfind
      obtain ⟨other, -, rfl⟩ := List.mem_map.1 (List.mem_of_find?_eq_some hfind)
      obtain rfl : other = name := hsame
      rfl

/-- The text of a key is bound as the key. -/
theorem keyValue_bind (hinverse : F.Inverse) (hcodec : record.codec F dialect = .ok codec)
    {name : String} (hname : name ∈ record.names) {key : Units}
    (hkey : (record.values name).keyText F = some key) :
    ∃ column typed bound, codec.columns name = some column ∧
      codec.keyValue F name key = .ok typed ∧ column.bind typed = .ok bound ∧
        column.bind (record.values name).value = .ok bound := by
  obtain ⟨rfl, hcolumns⟩ := codec_eq_ok hcodec
  obtain ⟨column, hcolumn, hfound⟩ := hcolumns name hname
  obtain ⟨bound, hbound⟩ := FieldValue.bind_eq_ok hkey hcolumn
  refine ⟨column, (record.values name).value, bound, hfound, ?_, hbound, hbound⟩
  obtain ⟨field, hfield, rfl⟩ := find_field hname
  have htyped := DrizzleModelCodec.convert_keyPrimitive hinverse hkey hcolumn name
  unfold DrizzleModelCodec.keyValue
  dsimp only
  rw [hfield]
  dsimp only
  cases hprimitive : DrizzleModelCodec.keyPrimitive F
      (DrizzleModelCodec.keyType (record.values name).type) key with
  | error error =>
      rw [hprimitive] at htyped
      cases htyped
  | ok primitive =>
      rw [hprimitive] at htyped
      change DrizzleModelCodec.convert F _ primitive = _ at htyped
      change (DrizzleModelCodec.convert F _ primitive >>= fun typed => _) = _
      rw [htyped, hfound]
      change (if DrizzleModelCodec.isCustom column.columnType then _ else _) = _
      split_ifs with hcustom
      · rfl
      · rw [(FieldValue.custom_or_plain hkey hcolumn).resolve_left hcustom]

/-- The values of a record survive the store exactly when the dialect is SQLite or no field holds
a value of JSON that is a text. -/
theorem survives_iff (hinverse : F.Inverse)
    (hcanonical : ∀ value, canonical (F.guidText value) = F.guidText value)
    (hcodec : record.codec F dialect = .ok codec) :
    record.Survives F canonical dialect codec ↔
      dialect = .sqlite ∨ ∀ name ∈ record.names, (record.values name).isJsonString = false := by
  obtain ⟨hcodecEq, hcolumns⟩ := codec_eq_ok hcodec
  have hdecoded : (∀ name ∈ record.names,
      record.decoded F canonical dialect name = .ok (record.values name).value) ↔
        dialect = .sqlite ∨ ∀ name ∈ record.names, (record.values name).isJsonString = false := by
    have hone : ∀ name ∈ record.names,
        (record.decoded F canonical dialect name = .ok (record.values name).value ↔
          dialect = .sqlite ∨ (record.values name).isJsonString = false) := by
      intro name hname
      obtain ⟨column, hcolumn, -⟩ := hcolumns name hname
      exact decoded_iff hinverse hcanonical hcolumn
    constructor
    · intro h
      by_cases hdialect : dialect = .sqlite
      · exact .inl hdialect
      · exact .inr fun name hname => ((hone name hname).1 (h name hname)).resolve_left hdialect
    · exact fun h name hname => (hone name hname).2 (h.imp_right fun h => h name hname)
  refine ⟨fun h => hdecoded.1 h.decoded, fun h => ?_⟩
  have hall := hdecoded.2 h
  obtain ⟨row, hrow, hvalues⟩ := row_eq_ok hall
  obtain ⟨model, hmodel, hset, -⟩ := setFields_eq_ok (F := F) hvalues record.initial
  refine ⟨hall, ⟨row, model, hrow, ?_, hset⟩, fun name hname key hkey =>
    keyValue_bind hinverse hcodec hname hkey⟩
  rw [hcodecEq]
  exact hmodel

/-! ### Two records -/

/-- A text of a form, unit by unit. -/
def hasForm : List (UInt16 → Bool) → Units → Bool
  | [], [] => true
  | accepts :: form, unit :: text => accepts unit && hasForm form text
  | _, _ => false

/-- The texts of a form, as values. -/
abbrev FormText (form : List (UInt16 → Bool)) : Type := { text : Units // hasForm form text = true }

def readForm (form : List (UInt16 → Bool)) (text : Units) : Option (FormText form) :=
  if h : hasForm form text = true then some ⟨text, h⟩ else none

theorem readForm_val {form : List (UInt16 → Bool)} (value : FormText form) :
    readForm form value.val = some value := dif_pos value.property

/-- Hexadecimal digits in groups of the lengths of an identifier. -/
def guidForm : List (UInt16 → Bool) :=
  let hex := fun unit => (JsonText.hexDigit unit).isSome
  let groups := fun count => List.replicate count hex
  groups 8 ++ (· == 0x2D) :: groups 4 ++ (· == 0x2D) :: groups 4 ++ (· == 0x2D) :: groups 4 ++
    (· == 0x2D) :: groups 12

def pairsForm (separator : UInt16) : List (UInt16 → Bool) :=
  let digit := JsonText.isDigit
  [digit, digit, (· == separator), digit, digit, (· == separator), digit, digit]

def dateForm : List (UInt16 → Bool) := JsonText.isDigit :: JsonText.isDigit :: pairsForm 0x2D

/-- Values that are their texts. -/
def textTypes : ValueTypes where
  Guid := FormText guidForm
  DateOnly := FormText dateForm
  TimeOnly := FormText (pairsForm 0x3A)
  TimeSpan := FormText (pairsForm 0x3A)

def textFundamentals : Fundamentals textTypes where
  guidText := Subtype.val
  parseGuid := readForm guidForm
  isGuid := hasForm guidForm
  dateOnlyText := Subtype.val
  parseDateOnly := readForm dateForm
  timeOnlyText := Subtype.val
  parseTimeOnly := readForm (pairsForm 0x3A)
  timeSpanText := Subtype.val
  parseTimeSpan := readForm (pairsForm 0x3A)
  objectText _ := units "[object Object]"
  objectJson _ := units "\x7b\x7d"
  parseDate _ := none

theorem textFundamentals_inverse : textFundamentals.Inverse where
  guid := readForm_val
  isGuid value := value.property
  dateOnly := readForm_val
  timeOnly := readForm_val
  timeSpan := readForm_val

def taskId : FormText guidForm := ⟨units "00112233-4455-6677-8899-aabbccddeeff", by decide⟩

/-- A field that holds a value of JSON. -/
def detailsField (value : JsonValue) (h : value.IsJson) : JsonField textTypes where
  value := value
  type := .object
  accepts _ := true
  isJson := h
  fits := by cases value <;> rfl
  accepted := rfl

/-- A record with an identifier and with details. -/
def taskRecord (value : JsonValue) (h : value.IsJson) : Record textTypes where
  typeName := "TaskRecord"
  names := ["id", "details"]
  values name := if name = "id" then .guid taskId else .json (detailsField value h)
  initial _ := .undefined

/-- A record of PostgreSQL with an object of JSON. -/
theorem survives_object :
    ∃ codec, (taskRecord (.object [(units "label", .boolean true)])
        ⟨List.nodup_singleton _, trivial, trivial⟩).codec textFundamentals .postgreSQL = .ok codec ∧
      (taskRecord (.object [(units "label", .boolean true)])
        ⟨List.nodup_singleton _, trivial, trivial⟩).Survives textFundamentals id .postgreSQL
          codec := by
  refine ⟨_, rfl, (survives_iff textFundamentals_inverse (fun _ => rfl) rfl).2 (.inr ?_)⟩
  intro name hname
  rcases List.mem_cons.1 hname with rfl | hname
  · rfl
  · obtain rfl := List.mem_singleton.1 hname
    rfl

/-- A record of PostgreSQL with a text of JSON. -/
theorem not_survives_text :
    textFundamentals.Inverse ∧
      (∀ value, id (textFundamentals.guidText value) = textFundamentals.guidText value) ∧
      ∃ codec, (taskRecord (.string (units "label")) trivial).codec textFundamentals .postgreSQL =
          .ok codec ∧
        ¬ (taskRecord (.string (units "label")) trivial).Survives textFundamentals id .postgreSQL
          codec := by
  refine ⟨textFundamentals_inverse, fun _ => rfl, _, rfl, fun h => ?_⟩
  have hdecoded := h.decoded "details" (List.mem_cons_of_mem _ List.mem_cons_self)
  have hne : (customColumn .postgreSQL (jsonCodec textFundamentals .postgreSQL
      (FieldValue.validator (detailsField (.string (units "label")) trivial).accepts))).roundTrip
        id .postgreSQL (.json (.string (units "label"))) ≠ .ok (.json (.string (units "label"))) :=
    roundTrip_json_ne (detailsField (.string (units "label")) trivial) (by decide) rfl
  exact hne hdecoded

end Record

end Arc.Drizzle
