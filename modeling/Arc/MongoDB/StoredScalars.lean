import Arc.MongoDB.StoredFields

/-!
# Stored scalars

`encodeScalar` accepts more than `decodeScalar` gives back. `Fits` says of a value and the type of
its field when it is restored, by what the value is made of; `restores_scalar` shows that this is
exact for values under a type that is no concept and no class.
-/

namespace Arc.MongoDB

variable {ν : Type}

/-! ### Values that are restored -/

section Fits

variable (platform : DocumentPlatform ν) (metadata : ModelMetadata ν)

/-- The values that are stored in a form of their own. -/
def ModelValue.hasForm : ModelValue ν → Bool
  | .guid _ => true
  | .dateOnly _ _ _ => true
  | .timeOnly _ _ _ _ => true
  | .timeSpan _ => true
  | _ => false

/-- A value under a type that is no concept and no class: it is of the type where the type has a
form of its own, and it has no such form elsewhere. -/
def FitsScalar : ModelType → ModelValue ν → Prop
  | .guid, .guid _ => True
  | .dateOnly, .dateOnly year month day =>
      (platform.noonOf year month day).bind platform.dayOf = some (year, month, day)
  | .timeOnly, .timeOnly hour minute second millisecond =>
      (platform.dateOf hour minute second millisecond).bind platform.clockOf =
        some (hour, minute, second, millisecond)
  | .timeSpan, .timeSpan _ => True
  | .number, .number value => platform.isFinite value = true
  | .number, _ => False
  | .point, .point _ _ => True
  | .lineString, .lineString _ => True
  | .polygon, .polygon _ _ => True
  | type, value => type.isStored = true ∧ value.hasForm = false

/-- The class an object of `classId` is stored as in a field of a class. -/
def storedClass (type classId : ℕ) : ℕ :=
  if (metadata.derivedType classId).isSome then classId else type

/-- The discriminator of a stored class. -/
def identifier (type : ℕ) : ModelValue ν :=
  ((metadata.derivedType type).map ModelValue.string).getD .undefined

/-- A property with whether it is restored under a type. -/
structure Fitting (ν : Type) where
  value : ModelValue ν
  fits : ModelType → Option ModelType → Prop

/-- The fields of an object: each one that is set is restored, and the constructor sets no
other. -/
def FitsFields (classId : ℕ) (fittings : List (String × Fitting ν)) : Prop :=
  ∀ field ∈ metadata.fieldsFor classId,
    match (fittings.lookup field.name).filter fun fitting => !fitting.value.isUndefined with
    | some fitting => fitting.fits field.type field.element
    | none => ((metadata.initial classId).lookup field.name).getD .undefined = .undefined

mutual

/-- Whether a value is restored under a type. -/
def Fits : ModelValue ν → ModelType → Option ModelType → Prop
  | .null, _, _ => True
  | .undefined, _, _ => True
  | .array items, _, some element => FitsItems items element
  | _, _, some _ => False
  | .concept id value, .concept typeId valueType, none =>
      typeId = id ∧ value.isNullish = false ∧ Fits value valueType none
  | .concept _ _, _, none => False
  | .object classId properties, .class type, none =>
      actualType platform metadata type (identifier metadata (storedClass metadata type classId)) =
          .ok classId ∧
        FitsFields metadata classId (fittings properties)
  | value, type, none => FitsScalar platform type value

def FitsItems : List (ModelValue ν) → ModelType → Prop
  | [], _ => True
  | item :: items, element => Fits item element none ∧ FitsItems items element

def fittings : Properties ν → List (String × Fitting ν)
  | [] => []
  | (name, value) :: properties =>
      (name, ⟨value, fun type element => Fits value type element⟩) :: fittings properties

end

variable {platform metadata}

theorem lookup_fittings (properties : Properties ν) (name : String) :
    (fittings platform metadata properties).lookup name =
      (properties.lookup name).map fun value => ⟨value, Fits platform metadata value⟩ := by
  induction properties with
  | nil => rfl
  | cons property properties ih =>
      obtain ⟨other, value⟩ := property
      unfold fittings
      rw [List.lookup_cons, List.lookup_cons]
      cases name == other with
      | true => rfl
      | false => exact ih

end Fits

/-! ### Scalars -/

section Scalars

variable {platform : DocumentPlatform ν} {metadata : ModelMetadata ν}
  {store : ℕ → Except String (Properties ν)} {read : ℕ → Except String (ModelValue ν)}
  {value document : ModelValue ν}

/-- The form of a value that has one. -/
def ModelValue.form (platform : DocumentPlatform ν) : ModelValue ν → ModelValue ν
  | .guid id => .binary uuidSubType id.val
  | .dateOnly year month day => .date (platform.noonOf year month day)
  | .timeOnly hour minute second millisecond =>
      .date (platform.dateOf hour minute second millisecond)
  | .timeSpan ticks => .string (platform.timeSpanText ticks)
  | value => value

/-- The values that hold no other. -/
def ModelValue.isLeaf : ModelValue ν → Bool
  | .concept _ _ => false
  | .array _ => false
  | .object _ _ => false
  | _ => true

theorem declared_of_isLeaf (h : value.isLeaf = true) : declared metadata value = value := by
  cases value <;> first | rfl | cases h

/-- A value that is declared like a leaf is the leaf. -/
theorem eq_of_declared {leaf : ModelValue ν} (hleaf : leaf.isLeaf = true)
    (h : declared metadata leaf = declared metadata value) : value = leaf := by
  have hvalue : value.isLeaf = true := by
    rw [declared_of_isLeaf hleaf] at h
    have hdeclared : (declared metadata value).isLeaf = value.isLeaf := by cases value <;> rfl
    rw [← hdeclared, ← h]
    exact hleaf
  rw [declared_of_isLeaf hleaf, declared_of_isLeaf hvalue] at h
  exact h.symm

theorem encodeScalar_form {type : ModelType} (h : value.hasForm = true) :
    encodeScalar platform metadata value type store = .ok (value.form platform) := by
  cases value <;> first | cases h; done | cases type <;> rfl

/-- Values without a form, under a type that parses no texts. -/
theorem encodeScalar_plain {type : ModelType} (h : value.hasForm = false) (htype : type ≠ .guid) :
    encodeScalar platform metadata value type store =
      if type.isGeometry then
        if value.isGeometry type then encodeGeometry platform value
        else .error s!"Expected MongoDB {type.name metadata}"
      else if type.isStored then .ok value
      else
        match type with
        | .class id =>
            if (metadata.fieldsFor id).isEmpty then
              .error s!"Unsupported MongoDB model type: {type.name metadata}"
            else do
              let document ← store id
              .ok (.object plainClass document)
        | _ => .error s!"Unsupported MongoDB model type: {type.name metadata}" := by
  cases value <;> first | cases h; done | cases type <;> first | rfl | exact absurd rfl htype

theorem fitsScalar_stored {type : ModelType} (htype : type.isStored = true)
    (hnumber : type ≠ .number) : FitsScalar platform type value ↔ value.hasForm = false := by
  cases type <;> first | cases htype; done | exact absurd rfl hnumber | exact and_iff_right rfl

variable (platform metadata read) in
/-- What is read of a document has the declared fields of the value. -/
def RestoresScalar (type : ModelType) (document value : ModelValue ν) : Prop :=
  ∃ decoded, decodeScalar platform metadata document type read = .ok decoded ∧
    declared metadata decoded = declared metadata value

/-- Under most types, a value is restored unless it has a form. -/
theorem restores_stored {type : ModelType} (htype : type.isStored = true)
    (hnumber : type ≠ .number)
    (h : encodeScalar platform metadata value type store = .ok document) :
    RestoresScalar platform metadata read type document value ↔ FitsScalar platform type value := by
  unfold RestoresScalar
  have hread : decodeScalar platform metadata document type read = .ok document := by
    cases type <;> first | rfl | exact absurd rfl hnumber | cases htype
  rw [hread, fitsScalar_stored htype hnumber]
  cases hform : value.hasForm with
  | true =>
      rw [encodeScalar_form hform] at h
      cases h
      refine iff_of_false ?_ Bool.noConfusion
      rintro ⟨decoded, hdecoded, hdeclared⟩
      cases hdecoded
      cases value <;> first | cases hform; done | cases hdeclared
  | false =>
      have hguid : type ≠ .guid := by
        rintro rfl
        cases htype
      have hgeometry : type.isGeometry = false := by
        cases type <;> first | rfl | cases htype
      rw [encodeScalar_plain hform hguid, hgeometry, htype] at h
      cases h
      exact iff_of_true ⟨_, rfl, rfl⟩ rfl

/-- Under the other types, what is read is a leaf, and only it can have been stored. -/
theorem restores_leaf {type : ModelType}
    (hread : ∀ decoded, decodeScalar platform metadata document type read = .ok decoded →
      decoded.isLeaf = true) :
    RestoresScalar platform metadata read type document value ↔
      decodeScalar platform metadata document type read = .ok value := by
  constructor
  · rintro ⟨decoded, hdecoded, hdeclared⟩
    rw [eq_of_declared (hread decoded hdecoded) hdeclared]
    exact hdecoded
  · intro hvalue
    exact ⟨value, hvalue, rfl⟩

theorem decodeScalar_guid {decoded : ModelValue ν}
    (h : decodeScalar platform metadata document .guid read = .ok decoded) :
    ∃ id, decoded = .guid id := by
  cases document with
  | binary subType bytes =>
      unfold decodeScalar at h
      dsimp only at h
      split_ifs at h
      cases h
      exact ⟨_, rfl⟩
  | _ => cases h

theorem restores_guid (h : encodeScalar platform metadata value .guid store = .ok document) :
    RestoresScalar platform metadata read .guid document value ↔
      FitsScalar platform .guid value := by
  rw [restores_leaf fun decoded hdecoded => by
    obtain ⟨id, rfl⟩ := decodeScalar_guid hdecoded
    rfl]
  constructor
  · intro hdecoded
    obtain ⟨id, rfl⟩ := decodeScalar_guid hdecoded
    exact trivial
  · intro hfits
    cases value with
    | guid id =>
        cases h
        exact dif_pos ⟨rfl, id.2⟩
    | _ => cases hfits.1

theorem decodeScalar_dateOnly {decoded : ModelValue ν}
    (h : decodeScalar platform metadata document .dateOnly read = .ok decoded) :
    ∃ time year month day, document = .date time ∧
      time.bind platform.dayOf = some (year, month, day) ∧ decoded = .dateOnly year month day := by
  cases document with
  | date time =>
      cases hday : time.bind platform.dayOf with
      | none =>
          unfold decodeScalar at h
          dsimp only at h
          rw [hday] at h
          cases h
      | some day =>
          unfold decodeScalar at h
          dsimp only at h
          rw [hday] at h
          cases h
          exact ⟨time, _, _, _, rfl, hday, rfl⟩
  | _ => cases h

theorem restores_dateOnly
    (h : encodeScalar platform metadata value .dateOnly store = .ok document) :
    RestoresScalar platform metadata read .dateOnly document value ↔
      FitsScalar platform .dateOnly value := by
  rw [restores_leaf fun decoded hdecoded => by
    obtain ⟨_, _, _, _, -, -, rfl⟩ := decodeScalar_dateOnly hdecoded
    rfl]
  constructor
  · intro hdecoded
    obtain ⟨time, year, month, day, rfl, hday, rfl⟩ := decodeScalar_dateOnly hdecoded
    cases h
    exact hday
  · intro hfits
    cases value with
    | dateOnly year month day =>
        cases h
        have hday : (platform.noonOf year month day).bind platform.dayOf =
          some (year, month, day) := hfits
        unfold decodeScalar
        dsimp only
        rw [hday]
    | _ => cases hfits.1

theorem decodeScalar_timeOnly {decoded : ModelValue ν}
    (h : decodeScalar platform metadata document .timeOnly read = .ok decoded) :
    ∃ time hour minute second millisecond, document = .date time ∧
      time.bind platform.clockOf = some (hour, minute, second, millisecond) ∧
      decoded = .timeOnly hour minute second millisecond := by
  cases document with
  | date time =>
      cases hclock : time.bind platform.clockOf with
      | none =>
          unfold decodeScalar at h
          dsimp only at h
          rw [hclock] at h
          cases h
      | some clock =>
          unfold decodeScalar at h
          dsimp only at h
          rw [hclock] at h
          cases h
          exact ⟨time, _, _, _, _, rfl, hclock, rfl⟩
  | _ => cases h

theorem restores_timeOnly
    (h : encodeScalar platform metadata value .timeOnly store = .ok document) :
    RestoresScalar platform metadata read .timeOnly document value ↔
      FitsScalar platform .timeOnly value := by
  rw [restores_leaf fun decoded hdecoded => by
    obtain ⟨_, _, _, _, _, -, -, rfl⟩ := decodeScalar_timeOnly hdecoded
    rfl]
  constructor
  · intro hdecoded
    obtain ⟨time, hour, minute, second, millisecond, rfl, hclock, rfl⟩ :=
      decodeScalar_timeOnly hdecoded
    cases h
    exact hclock
  · intro hfits
    cases value with
    | timeOnly hour minute second millisecond =>
        cases h
        have hclock : (platform.dateOf hour minute second millisecond).bind platform.clockOf =
          some (hour, minute, second, millisecond) := hfits
        unfold decodeScalar
        dsimp only
        rw [hclock]
    | _ => cases hfits.1

theorem decodeScalar_timeSpan {decoded : ModelValue ν}
    (h : decodeScalar platform metadata document .timeSpan read = .ok decoded) :
    ∃ text ticks, document = .string text ∧ platform.parseTimeSpan text = some ticks ∧
      decoded = .timeSpan ticks := by
  cases document with
  | string text =>
      cases hticks : platform.parseTimeSpan text with
      | none =>
          unfold decodeScalar at h
          dsimp only at h
          rw [hticks] at h
          cases h
      | some ticks =>
          unfold decodeScalar at h
          dsimp only at h
          rw [hticks] at h
          cases h
          exact ⟨text, ticks, rfl, hticks, rfl⟩
  | _ => cases h

theorem restores_timeSpan
    (hspans : ∀ ticks, platform.parseTimeSpan (platform.timeSpanText ticks) = some ticks)
    (h : encodeScalar platform metadata value .timeSpan store = .ok document) :
    RestoresScalar platform metadata read .timeSpan document value ↔
      FitsScalar platform .timeSpan value := by
  rw [restores_leaf fun decoded hdecoded => by
    obtain ⟨_, _, -, -, rfl⟩ := decodeScalar_timeSpan hdecoded
    rfl]
  constructor
  · intro hdecoded
    obtain ⟨text, ticks, -, -, rfl⟩ := decodeScalar_timeSpan hdecoded
    exact trivial
  · intro hfits
    cases value with
    | timeSpan ticks =>
        cases h
        unfold decodeScalar
        dsimp only
        rw [hspans]
    | _ => cases hfits.1

theorem decodeScalar_number {decoded : ModelValue ν}
    (h : decodeScalar platform metadata document .number read = .ok decoded) :
    ∃ number, decoded = .number number ∧
      (document = .number number → platform.isFinite number = true) := by
  cases document with
  | number number =>
      unfold decodeScalar at h
      dsimp only at h
      split_ifs at h with hfinite
      cases h
      exact ⟨number, rfl, fun _ => hfinite⟩
  | decimal128 text =>
      unfold decodeScalar at h
      dsimp only at h
      cases hnumber : platform.decimalNumber text with
      | none =>
          rw [hnumber] at h
          cases h
      | some number =>
          rw [hnumber] at h
          cases h
          exact ⟨number, rfl, fun hdocument => by cases hdocument⟩
  | long long =>
      unfold decodeScalar at h
      dsimp only at h
      cases hnumber : platform.longNumber long with
      | none =>
          rw [hnumber] at h
          cases h
      | some number =>
          rw [hnumber] at h
          cases h
          exact ⟨number, rfl, fun hdocument => by cases hdocument⟩
  | _ => cases h

theorem restores_number (h : encodeScalar platform metadata value .number store = .ok document) :
    RestoresScalar platform metadata read .number document value ↔
      FitsScalar platform .number value := by
  rw [restores_leaf fun decoded hdecoded => by
    obtain ⟨_, rfl, -⟩ := decodeScalar_number hdecoded
    rfl]
  constructor
  · intro hdecoded
    obtain ⟨number, rfl, hfinite⟩ := decodeScalar_number hdecoded
    cases h
    exact hfinite rfl
  · intro hfits
    cases value with
    | number number =>
        cases h
        exact if_pos hfits
    | _ => cases hfits

/-! ### Geometry -/

theorem mapM_inverse {α β : Type} {encode : α → Except String β} {decode : β → Except String α}
    (h : ∀ a b, encode a = .ok b → decode b = .ok a) {items : List α} {encoded : List β}
    (hencoded : items.mapM encode = .ok encoded) : encoded.mapM decode = .ok items := by
  induction items generalizing encoded with
  | nil =>
      cases hencoded
      rfl
  | cons item items ih =>
      rw [List.mapM_cons] at hencoded
      obtain ⟨first, hfirst, hencoded⟩ := Except.bind_eq_ok.1 hencoded
      obtain ⟨rest, hrest, hencoded⟩ := Except.bind_eq_ok.1 hencoded
      cases hencoded
      rw [List.mapM_cons]
      exact Except.bind_eq_ok.2 ⟨item, h item first hfirst, Except.bind_eq_ok.2 ⟨_, ih hrest, rfl⟩⟩

theorem length_mapM {α β : Type} {encode : α → Except String β} {items : List α}
    {encoded : List β} (h : items.mapM encode = .ok encoded) : encoded.length = items.length := by
  induction items generalizing encoded with
  | nil =>
      cases h
      rfl
  | cons item items ih =>
      rw [List.mapM_cons] at h
      obtain ⟨first, -, h⟩ := Except.bind_eq_ok.1 h
      obtain ⟨rest, hrest, h⟩ := Except.bind_eq_ok.1 h
      cases h
      rw [List.length_cons, List.length_cons, ih hrest]

theorem readPoint_encodePoint (point : ν × ν) (encoded : ModelValue ν)
    (h : encodePoint platform point = .ok encoded) : readPoint platform encoded = .ok point := by
  unfold encodePoint at h
  split_ifs at h with hfinite
  cases h
  exact if_pos hfinite

theorem readRing_encodeRing (ring : List (ν × ν)) (encoded : ModelValue ν)
    (h : encodeRing platform ring = .ok encoded) : readRing platform encoded = .ok ring := by
  obtain ⟨coordinates, hcoordinates, h⟩ := Except.bind_eq_ok.1 h
  split_ifs at h with hclosed
  cases h
  have hlength : ¬ coordinates.length < 4 := by
    rw [length_mapM hcoordinates, Nat.not_lt]
    exact of_decide_eq_true (Bool.and_eq_true_iff.1 hclosed).1
  unfold readRing
  dsimp only
  rw [if_neg hlength]
  exact Except.bind_eq_ok.2 ⟨ring, mapM_inverse readPoint_encodePoint hcoordinates, if_pos hclosed⟩

theorem geometryOf_geometry (type : String) (coordinates : List (ModelValue ν)) :
    geometryOf (geometry type (.array coordinates)) = some (type, coordinates) := rfl

/-- Encoded geometry is read as what it was. -/
theorem decodeGeometry_encodeGeometry {type : ModelType} (hvalue : value.isGeometry type = true)
    (h : encodeGeometry platform value = .ok document) :
    decodeGeometry platform metadata type document = .ok value := by
  cases value with
  | point longitude latitude =>
      cases type with
      | point =>
          obtain ⟨coordinates, hcoordinates, h⟩ := Except.bind_eq_ok.1 h
          cases h
          have hread := readPoint_encodePoint _ _ hcoordinates
          unfold encodePoint at hcoordinates
          split_ifs at hcoordinates
          cases hcoordinates
          unfold decodeGeometry
          rw [geometryOf_geometry]
          exact Except.bind_eq_ok.2 ⟨_, hread, rfl⟩
      | _ => cases hvalue
  | lineString points =>
      cases type with
      | lineString =>
          unfold encodeGeometry at h
          dsimp only at h
          split_ifs at h with hlength
          obtain ⟨coordinates, hcoordinates, h⟩ := Except.bind_eq_ok.1 h
          cases h
          have hlength' : ¬ coordinates.length < 2 := by
            rw [length_mapM hcoordinates]
            exact hlength
          unfold decodeGeometry
          rw [geometryOf_geometry]
          dsimp only
          rw [if_neg (show ¬ "LineString" ≠ ModelType.name metadata .lineString from
            not_not_intro rfl), if_neg hlength']
          exact Except.bind_eq_ok.2
            ⟨points, mapM_inverse readPoint_encodePoint hcoordinates, rfl⟩
      | _ => cases hvalue
  | polygon shell holes =>
      cases type with
      | polygon =>
          obtain ⟨rings, hrings, h⟩ := Except.bind_eq_ok.1 h
          cases h
          have hread := mapM_inverse readRing_encodeRing hrings
          unfold decodeGeometry
          rw [geometryOf_geometry]
          dsimp only
          rw [if_neg (show ¬ "Polygon" ≠ ModelType.name metadata .polygon from not_not_intro rfl)]
          cases rings with
          | nil => cases hread
          | cons first rest =>
              rw [List.mapM_cons] at hread
              obtain ⟨shell', hshell, hread⟩ := Except.bind_eq_ok.1 hread
              obtain ⟨holes', hholes, hread⟩ := Except.bind_eq_ok.1 hread
              cases hread
              exact Except.bind_eq_ok.2 ⟨_, hshell, Except.bind_eq_ok.2 ⟨_, hholes, rfl⟩⟩
      | _ => cases hvalue
  | _ => cases hvalue

theorem isGeometry_decodeGeometry {type : ModelType} (htype : type.isGeometry = true)
    {decoded : ModelValue ν} (h : decodeGeometry platform metadata type document = .ok decoded) :
    decoded.isGeometry type = true := by
  unfold decodeGeometry at h
  cases hgeometry : geometryOf document with
  | none =>
      rw [hgeometry] at h
      dsimp only at h
      split_ifs at h
  | some parts =>
      obtain ⟨name, coordinates⟩ := parts
      rw [hgeometry] at h
      dsimp only at h
      by_cases hname : name ≠ type.name metadata
      · rw [if_pos hname] at h
        cases h
      rw [if_neg hname] at h
      cases type with
      | point =>
          obtain ⟨point, -, h⟩ := Except.bind_eq_ok.1 h
          cases h
          rfl
      | lineString =>
          dsimp only at h
          split_ifs at h
          obtain ⟨points, -, h⟩ := Except.bind_eq_ok.1 h
          cases h
          rfl
      | polygon =>
          cases coordinates with
          | nil => cases h
          | cons first rest =>
              obtain ⟨shell, -, h⟩ := Except.bind_eq_ok.1 h
              obtain ⟨holes, -, h⟩ := Except.bind_eq_ok.1 h
              cases h
              rfl
      | _ => cases htype

theorem isLeaf_of_isGeometry {type : ModelType} (h : value.isGeometry type = true) :
    value.isLeaf = true := by
  cases value <;> first | rfl | cases h

theorem fitsScalar_geometry {type : ModelType} (htype : type.isGeometry = true) :
    FitsScalar platform type value ↔ value.isGeometry type = true := by
  cases type with
  | point =>
      cases value with
      | point _ _ => exact iff_of_true trivial rfl
      | _ => exact iff_of_false (fun h => by cases h.1) Bool.noConfusion
  | lineString =>
      cases value with
      | lineString _ => exact iff_of_true trivial rfl
      | _ => exact iff_of_false (fun h => by cases h.1) Bool.noConfusion
  | polygon =>
      cases value with
      | polygon _ _ => exact iff_of_true trivial rfl
      | _ => exact iff_of_false (fun h => by cases h.1) Bool.noConfusion
  | _ => cases htype

theorem restores_geometry {type : ModelType} (htype : type.isGeometry = true)
    (h : encodeScalar platform metadata value type store = .ok document) :
    RestoresScalar platform metadata read type document value ↔ FitsScalar platform type value := by
  have hread : decodeScalar platform metadata document type read =
      decodeGeometry platform metadata type document := by
    cases type <;> first | rfl | cases htype
  rw [restores_leaf fun decoded hdecoded => isLeaf_of_isGeometry
      (isGeometry_decodeGeometry htype (hread.symm.trans hdecoded)), hread,
    fitsScalar_geometry htype]
  refine ⟨isGeometry_decodeGeometry htype, fun hvalue => ?_⟩
  have hform : value.hasForm = false := by
    cases value <;> first | rfl | cases hvalue
  have hguid : type ≠ .guid := by
    rintro rfl
    cases htype
  rw [encodeScalar_plain hform hguid, if_pos htype, if_pos hvalue] at h
  exact decodeGeometry_encodeGeometry hvalue h

/-- Under every type but the concepts and the classes. -/
theorem restores_scalar {type : ModelType} (hconcept : type.valueType? = none)
    (hclass : ∀ id, type ≠ .class id)
    (hspans : ∀ ticks, platform.parseTimeSpan (platform.timeSpanText ticks) = some ticks)
    (h : encodeScalar platform metadata value type store = .ok document) :
    RestoresScalar platform metadata read type document value ↔ FitsScalar platform type value := by
  cases type with
  | number => exact restores_number h
  | guid => exact restores_guid h
  | dateOnly => exact restores_dateOnly h
  | timeOnly => exact restores_timeOnly h
  | timeSpan => exact restores_timeSpan hspans h
  | point => exact restores_geometry rfl h
  | lineString => exact restores_geometry rfl h
  | polygon => exact restores_geometry rfl h
  | array =>
      refine iff_of_false ?_ fun hfits => by cases hfits.1
      rintro ⟨decoded, hdecoded, -⟩
      cases hdecoded
  | concept id valueType => cases hconcept
  | «class» id => exact absurd rfl (hclass id)
  | _ => exact restores_stored rfl (fun htype => by cases htype) h

theorem isNullish_encodeScalar {type : ModelType} (hvalue : value.isNullish = false)
    (h : encodeScalar platform metadata value type store = .ok document) :
    document.isNullish = false := by
  cases hform : value.hasForm with
  | true =>
      rw [encodeScalar_form hform] at h
      cases h
      cases value <;> first | rfl | cases hform
  | false =>
      by_cases hguid : type = .guid
      · subst hguid
        cases value with
        | string text =>
            unfold encodeScalar at h
            dsimp only at h
            cases hid : platform.parseGuid text with
            | none =>
                rw [hid] at h
                cases h
            | some id =>
                rw [hid] at h
                cases h
                rfl
        | _ => first | cases h; done | cases hform
      · rw [encodeScalar_plain hform hguid] at h
        split_ifs at h with hgeometry hvalue' hstored
        · cases value <;> first | cases hvalue'; done | skip
          · obtain ⟨coordinates, -, h⟩ := Except.bind_eq_ok.1 h
            cases h
            rfl
          · unfold encodeGeometry at h
            dsimp only at h
            split_ifs at h
            obtain ⟨coordinates, -, h⟩ := Except.bind_eq_ok.1 h
            cases h
            rfl
          · obtain ⟨rings, -, h⟩ := Except.bind_eq_ok.1 h
            cases h
            rfl
        · cases h
          exact hvalue
        · cases type <;> first | cases h; done | skip
          dsimp only at h
          split_ifs at h
          obtain ⟨stored, -, h⟩ := Except.bind_eq_ok.1 h
          cases h
          rfl

end Scalars

end Arc.MongoDB
