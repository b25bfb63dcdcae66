import Arc.MongoDB.StoredScalars

/-!
# Stored values

A stored value is restored exactly when it fits (`restoredByFits`): by induction on the value, of
which the items of an array and the properties of an object are the parts.
-/

namespace Arc.MongoDB

variable {ν : Type}

/-! ### Values -/

section Values

variable {platform : DocumentPlatform ν} {metadata : ModelMetadata ν}
  {propertyName : String → String}

variable (platform metadata propertyName) in
/-- `decodeObject` of a document. -/
def readObject : ModelValue ν → ℕ → Except String (ModelValue ν)
  | .object _ properties, type => decodeObject platform metadata propertyName type
      ((properties.lookup "_derivedTypeId").getD .undefined)
      (decodeProperties platform metadata propertyName properties)
  | _, type => decodeObject platform metadata propertyName type .undefined []

theorem decodeValue_eq {document : ModelValue ν} (h : document.isNullish = false)
    (type : ModelType) :
    decodeValue platform metadata propertyName document type none =
      decodeScalar platform metadata document type.scalar
          (readObject platform metadata propertyName document) >>= fun decoded =>
        .ok (type.construct decoded) := by
  cases document <;> first | rfl | cases h

variable (platform metadata propertyName) in
/-- What is read of a document has the declared fields of the value. -/
def Restores (type : ModelType) (element : Option ModelType) (document value : ModelValue ν) :
    Prop :=
  ∃ decoded, decodeValue platform metadata propertyName document type element = .ok decoded ∧
    declared metadata decoded = declared metadata value

theorem restores_eq {type : ModelType} {document value : ModelValue ν}
    (hconcept : type.valueType? = none) (h : document.isNullish = false) :
    Restores platform metadata propertyName type none document value ↔
      RestoresScalar platform metadata (readObject platform metadata propertyName document) type
        document value := by
  have hscalar : type.scalar = type := by
    cases type <;> first | rfl | cases hconcept
  have hconstruct : ∀ decoded : ModelValue ν, type.construct decoded = decoded := by
    intro decoded
    cases type <;> first | rfl | cases hconcept
  unfold Restores RestoresScalar
  rw [decodeValue_eq h, hscalar]
  refine exists_congr fun decoded => and_congr_left fun _ => ?_
  rw [Except.bind_eq_ok]
  constructor
  · rintro ⟨inner, hinner, hdecoded⟩
    cases hdecoded
    rw [hconstruct]
    exact hinner
  · intro hdecoded
    exact ⟨decoded, hdecoded, by rw [hconstruct]⟩

/-- Under a concept, what is read is of the concept. -/
theorem restores_concept {id : ℕ} {valueType : ModelType} {document value : ModelValue ν}
    (h : document.isNullish = false) :
    Restores platform metadata propertyName (.concept id valueType) none document value ↔
      ∃ inner, value = .concept id inner ∧
        Restores platform metadata propertyName valueType none document inner := by
  unfold Restores
  rw [decodeValue_eq h, decodeValue_eq h]
  constructor
  · rintro ⟨decoded, hdecoded, hdeclared⟩
    obtain ⟨scalar, hscalar, hdecoded⟩ := Except.bind_eq_ok.1 hdecoded
    cases hdecoded
    cases value with
    | concept other inner =>
        obtain ⟨rfl, hinner⟩ := ModelValue.concept.inj hdeclared
        exact ⟨inner, rfl, _, Except.bind_eq_ok.2 ⟨scalar, hscalar, rfl⟩, hinner⟩
    | _ => cases hdeclared
  · rintro ⟨inner, rfl, decoded, hdecoded, hdeclared⟩
    obtain ⟨scalar, hscalar, hdecoded⟩ := Except.bind_eq_ok.1 hdecoded
    cases hdecoded
    exact ⟨_, Except.bind_eq_ok.2 ⟨scalar, hscalar, rfl⟩, congrArg (ModelValue.concept id) hdeclared⟩

theorem isObject_readObject {document decoded : ModelValue ν} {type : ℕ}
    (h : readObject platform metadata propertyName document type = .ok decoded) :
    ∃ classId properties, decoded = .object classId properties := by
  have hdecode : ∀ identifier readings,
      decodeObject platform metadata propertyName type identifier readings = .ok decoded →
      ∃ classId properties, decoded = .object classId properties := by
    intro identifier readings hdecoded
    obtain ⟨actual, -, hdecoded⟩ := Except.bind_eq_ok.1 hdecoded
    obtain ⟨result, -, hdecoded⟩ := Except.bind_eq_ok.1 hdecoded
    cases hdecoded
    exact ⟨_, _, rfl⟩
  cases document <;> exact hdecode _ _ h

/-- A value that is no concept, and no object under a class. -/
theorem restores_plain {type : ModelType} {value document : ModelValue ν}
    {store : ℕ → Except String (Properties ν)}
    (hspans : ∀ ticks, platform.parseTimeSpan (platform.timeSpanText ticks) = some ticks)
    (hvalue : value.isNullish = false) (hconcept : ∀ id inner, value ≠ .concept id inner)
    (hclass : ∀ id, type = .class id → ∀ classId properties, value ≠ .object classId properties)
    (h : encodeScalar platform metadata value type.scalar store = .ok document) :
    Restores platform metadata propertyName type none document value ↔
      FitsScalar platform type value := by
  have hdocument := isNullish_encodeScalar hvalue h
  cases type with
  | concept id valueType =>
      rw [restores_concept hdocument]
      refine iff_of_false ?_ fun hfits => by cases hfits.1
      rintro ⟨inner, hinner, -⟩
      exact hconcept id inner hinner
  | «class» id =>
      rw [restores_eq rfl hdocument]
      refine iff_of_false ?_ fun hfits => by cases hfits.1
      rintro ⟨decoded, hdecoded, hdeclared⟩
      unfold decodeScalar at hdecoded
      dsimp only at hdecoded
      split_ifs at hdecoded
      obtain ⟨classId, properties, rfl⟩ := isObject_readObject hdecoded
      cases value with
      | object other properties => exact hclass id rfl _ _ rfl
      | _ => cases hdeclared
  | _ =>
      rw [restores_eq rfl hdocument]
      exact restores_scalar rfl (fun _ hid => by cases hid) hspans h

/-! ### Objects -/

/-- A property that is set. -/
def setOf (properties : Properties ν) (name : String) : Option (ModelValue ν) :=
  (properties.lookup name).filter fun value => !value.isUndefined

theorem present_encodeProperties (properties : Properties ν) (name : String) :
    present (encodeProperties platform metadata propertyName properties) name =
      (setOf properties name).map fun value =>
        ⟨value, encodeValue platform metadata propertyName value⟩ := by
  unfold present setOf
  rw [lookup_encodeProperties]
  cases properties.lookup name with
  | none => rfl
  | some value => cases value <;> rfl

theorem filter_fittings (properties : Properties ν) (name : String) :
    ((fittings platform metadata properties).lookup name).filter
        (fun fitting => !fitting.value.isUndefined) =
      (setOf properties name).map fun value => ⟨value, Fits platform metadata value⟩ := by
  unfold setOf
  rw [lookup_fittings]
  cases properties.lookup name with
  | none => rfl
  | some value => cases value <;> rfl

/-- What is declared of a property, set or not. -/
theorem declared_setOf (properties : Properties ν) (name : String) :
    ((declaredProperties metadata properties).lookup name).getD .undefined =
      ((setOf properties name).map (declared metadata)).getD .undefined := by
  unfold setOf
  rw [lookup_declaredProperties]
  cases properties.lookup name with
  | none => rfl
  | some value => cases value <;> rfl

/-- The values under each of the types, with what is restored of them. -/
def RestoredByFits (platform : DocumentPlatform ν) (metadata : ModelMetadata ν)
    (propertyName : String → String) (value : ModelValue ν) : Prop :=
  ∀ type element document,
    encodeValue platform metadata propertyName value type element = .ok document →
    (Restores platform metadata propertyName type element document value ↔
      Fits platform metadata value type element)

/-- A field is what it was when its value fits, and when the constructor leaves it if it has
none. -/
theorem field_restored {properties document result initial : Properties ν} {field : ModelField}
    {nameOf : String → String}
    (hproperties : ∀ value, properties.lookup field.name = some value →
      RestoredByFits platform metadata propertyName value)
    (hstored : StoredField (encodeProperties platform metadata propertyName properties) document
      nameOf field)
    (hread : ReadField (decodeProperties platform metadata propertyName document) result nameOf
      field) :
    ((declaredProperties metadata (result ++ initial)).lookup field.name).getD .undefined =
        ((declaredProperties metadata properties).lookup field.name).getD .undefined ↔
      match setOf properties field.name with
      | some value => Fits platform metadata value field.type field.element
      | none => (initial.lookup field.name).getD .undefined = .undefined := by
  unfold StoredField at hstored
  unfold ReadField at hread
  rw [present_encodeProperties] at hstored
  rw [lookup_decodeProperties] at hread
  rw [declared_setOf properties, lookup_declaredProperties]
  cases hset : setOf properties field.name with
  | none =>
      rw [hset] at hstored
      have hdocument : document.lookup (nameOf field.name) = none := hstored
      rw [hdocument] at hread
      rw [lookup_append_eq_some hread]
      cases initial.lookup field.name with
      | none => exact Iff.rfl
      | some value =>
          refine ⟨declared_eq_undefined, fun hvalue => ?_⟩
          rw [show value = .undefined from hvalue]
          rfl
  | some value =>
      rw [hset] at hstored
      obtain ⟨encoded, hencoded, hdocument⟩ := hstored
      rw [hdocument] at hread
      obtain ⟨decoded, hdecoded, hresult⟩ := hread
      have hlookup : properties.lookup field.name = some value :=
        (Option.filter_eq_some_iff.1 hset).1
      rw [List.lookup_append, hresult]
      refine Iff.trans ?_ (hproperties value hlookup field.type field.element encoded hencoded)
      constructor
      · intro hdeclared
        exact ⟨decoded, hdecoded, hdeclared⟩
      · rintro ⟨other, hother, hdeclared⟩
        obtain rfl := Except.ok.inj (hdecoded.symm.trans hother)
        exact hdeclared

theorem storedField_of_encodeObject {nameOf : String → String} {written : ℕ}
    {contents : List (String × Content ν)} {document : Properties ν}
    (hdistinct : Distinct nameOf (metadata.fieldsFor written))
    (h : encodeObject metadata nameOf written contents = .ok document) :
    ((document.lookup "_derivedTypeId").getD .undefined = identifier metadata written) ∧
      ∀ field ∈ metadata.fieldsFor written, StoredField contents document nameOf field := by
  obtain ⟨result, hresult, h⟩ := Except.bind_eq_ok.1 h
  have hfields := storedField_of_encodeFields hresult hdistinct.nodup
  have hnone := lookup_encodeFields_of_not_mem hresult hdistinct.ne_derivedTypeId
  unfold identifier
  cases hderived : metadata.derivedType written with
  | none =>
      rw [hderived] at h
      cases h
      rw [hnone]
      exact ⟨rfl, hfields⟩
  | some derived =>
      rw [hderived] at h
      cases h
      refine ⟨rfl, fun field hfield => ?_⟩
      have hne : (nameOf field.name == "_derivedTypeId") = false := by
        refine beq_false_of_ne fun heq => hdistinct.ne_derivedTypeId ?_
        rw [← heq]
        exact List.mem_map_of_mem hfield
      have hstored := hfields field hfield
      unfold StoredField at hstored ⊢
      rw [List.lookup_cons, hne]
      exact hstored

theorem Distinct.names {nameOf : String → String} {fields : List ModelField}
    (h : Distinct nameOf fields) : (fields.map ModelField.name).Nodup := by
  have hnodup := h.nodup
  rw [show (fields.map fun field => nameOf field.name) =
    (fields.map ModelField.name).map nameOf by rw [List.map_map]; rfl] at hnodup
  exact hnodup.of_map

/-- The declared fields of two objects of a class agree when each of them does. -/
theorem declared_object_eq_iff {actual classId : ℕ} {result properties : Properties ν} :
    declared metadata (.object actual result) = declared metadata (.object classId properties) ↔
      actual = classId ∧ ∀ field ∈ metadata.fieldsFor classId,
        ((declaredProperties metadata result).lookup field.name).getD .undefined =
          ((declaredProperties metadata properties).lookup field.name).getD .undefined := by
  constructor
  · intro h
    obtain ⟨rfl, hfields⟩ := ModelValue.object.inj h
    refine ⟨rfl, fun field hfield => ?_⟩
    exact (Prod.mk.inj (List.map_inj_left.1 hfields field hfield)).2
  · rintro ⟨rfl, hfields⟩
    refine congrArg (ModelValue.object actual) (List.map_inj_left.2 fun field hfield => ?_)
    rw [hfields field hfield]

/-- A stored object is restored as an object of its class when it is read as one and its fields
fit. -/
theorem restores_object {nameOf : String → String} {type written classId : ℕ}
    {properties document : Properties ν}
    (hdistinct : Distinct nameOf (metadata.fieldsFor written))
    (hwritten : actualType platform metadata type (identifier metadata written) = .ok classId →
      written = classId ∨ metadata.fieldsFor classId = [])
    (hproperties : ∀ name value, properties.lookup name = some value →
      RestoredByFits platform metadata propertyName value)
    (h : encodeObject metadata nameOf written
      (encodeProperties platform metadata propertyName properties) = .ok document) :
    (∃ decoded, decodeObject platform metadata nameOf type
        ((document.lookup "_derivedTypeId").getD .undefined)
        (decodeProperties platform metadata propertyName document) = .ok decoded ∧
      declared metadata decoded = declared metadata (.object classId properties)) ↔
    actualType platform metadata type (identifier metadata written) = .ok classId ∧
      FitsFields metadata classId (fittings platform metadata properties) := by
  obtain ⟨hidentifier, hstored⟩ := storedField_of_encodeObject hdistinct h
  rw [hidentifier]
  unfold decodeObject
  -- the fields of the class are those that were stored
  have hfields : actualType platform metadata type (identifier metadata written) = .ok classId →
      (∀ field ∈ metadata.fieldsFor classId, StoredField
        (encodeProperties platform metadata propertyName properties) document nameOf field) ∧
      ((metadata.fieldsFor classId).map ModelField.name).Nodup := by
    intro hactual
    rcases hwritten hactual with rfl | hempty
    · exact ⟨hstored, hdistinct.names⟩
    · rw [hempty]
      exact ⟨fun field hfield => absurd hfield List.not_mem_nil, List.nodup_nil⟩
  constructor
  · rintro ⟨decoded, hdecoded, hdeclared⟩
    obtain ⟨actual, hactual, hdecoded⟩ := Except.bind_eq_ok.1 hdecoded
    obtain ⟨result, hresult, hdecoded⟩ := Except.bind_eq_ok.1 hdecoded
    cases hdecoded
    obtain ⟨rfl, hagree⟩ := declared_object_eq_iff.1 hdeclared
    obtain ⟨hfieldsStored, hnames⟩ := hfields hactual
    refine ⟨hactual, fun field hfield => ?_⟩
    have hread := readField_of_decodeFields hresult hnames field hfield
    have hrestored := (field_restored (hproperties field.name) (hfieldsStored field hfield)
      hread).1 (hagree field hfield)
    rw [filter_fittings]
    cases hset : setOf properties field.name with
    | none =>
        rw [hset] at hrestored
        exact hrestored
    | some value =>
        rw [hset] at hrestored
        exact hrestored
  · rintro ⟨hactual, hfits⟩
    obtain ⟨hfieldsStored, hnames⟩ := hfields hactual
    have hfitting : ∀ field ∈ metadata.fieldsFor classId,
        match setOf properties field.name with
        | some value => Fits platform metadata value field.type field.element
        | none =>
            ((metadata.initial classId).lookup field.name).getD .undefined = .undefined := by
      intro field hfield
      have hfit := hfits field hfield
      rw [filter_fittings] at hfit
      cases hset : setOf properties field.name with
      | none =>
          rw [hset] at hfit
          exact hfit
      | some value =>
          rw [hset] at hfit
          exact hfit
    obtain ⟨result, hresult⟩ : ∃ result, decodeFields nameOf
        (decodeProperties platform metadata propertyName document) (metadata.fieldsFor classId) =
          .ok result := by
      refine decodeFields_isOk fun field hfield decode hdecode => ?_
      have hstoredField := hfieldsStored field hfield
      have hfit := hfitting field hfield
      unfold StoredField at hstoredField
      rw [present_encodeProperties] at hstoredField
      rw [lookup_decodeProperties] at hdecode
      cases hset : setOf properties field.name with
      | none =>
          rw [hset] at hstoredField
          have hdocument : document.lookup (nameOf field.name) = none := hstoredField
          rw [hdocument] at hdecode
          cases hdecode
      | some value =>
          rw [hset] at hstoredField hfit
          obtain ⟨encoded, hencoded, hdocument⟩ := hstoredField
          rw [hdocument] at hdecode
          cases hdecode
          have hlookup : properties.lookup field.name = some value :=
            (Option.filter_eq_some_iff.1 hset).1
          obtain ⟨decoded, hdecoded, -⟩ := (hproperties field.name value hlookup field.type
            field.element encoded hencoded).2 hfit
          exact ⟨decoded, hdecoded⟩
    refine ⟨_, Except.bind_eq_ok.2 ⟨classId, hactual, Except.bind_eq_ok.2 ⟨result, hresult, rfl⟩⟩,
      declared_object_eq_iff.2 ⟨rfl, fun field hfield => ?_⟩⟩
    have hread := readField_of_decodeFields hresult hnames field hfield
    exact (field_restored (hproperties field.name) (hfieldsStored field hfield) hread).2
      (hfitting field hfield)

/-- A class without a discriminator is read of its own documents only. -/
theorem eq_of_actualType {type classId : ℕ} {discriminator : ModelValue ν}
    (hderived : metadata.derivedType classId = none)
    (h : actualType platform metadata type discriminator = .ok classId) : classId = type := by
  unfold actualType at h
  split_ifs at h
  · cases h
    rfl
  · cases hfind : (metadata.derivedTypesFor type).find?
        (isDerivedType platform metadata discriminator) with
    | none =>
        rw [hfind] at h
        cases h
    | some actual =>
        rw [hfind] at h
        cases h
        have hmatch := List.find?_some hfind
        unfold isDerivedType at hmatch
        rw [hderived] at hmatch
        cases hmatch

theorem storedClass_of_actualType {type classId : ℕ}
    (h : actualType platform metadata type
      (identifier metadata (storedClass metadata type classId)) = .ok classId) :
    storedClass metadata type classId = classId := by
  unfold storedClass at h ⊢
  cases hderived : metadata.derivedType classId with
  | some derived => rfl
  | none =>
      rw [hderived] at h
      exact (eq_of_actualType hderived h).symm

/-! ### Every depth -/

section Depth

variable
  (hspans : ∀ ticks, platform.parseTimeSpan (platform.timeSpanText ticks) = some ticks)
  (hdistinct : ∀ classId, Distinct propertyName (metadata.fieldsFor classId))

include hspans in
theorem restoredByFits_leaf {value : ModelValue ν} (hleaf : value.isLeaf = true) :
    RestoredByFits platform metadata propertyName value := by
  intro type element document h
  cases hnullish : value.isNullish with
  | true =>
      cases value with
      | null =>
          cases h
          exact iff_of_true ⟨_, rfl, rfl⟩ trivial
      | undefined =>
          cases h
          exact iff_of_true ⟨_, rfl, rfl⟩ trivial
      | _ => cases hnullish
  | false =>
      have hconcept : ∀ id inner, value ≠ .concept id inner := by
        rintro id inner rfl
        cases hleaf
      have hobject : ∀ classId properties, value ≠ .object classId properties := by
        rintro classId properties rfl
        cases hleaf
      cases element with
      | some element =>
          cases value <;> first | cases h; done | cases hleaf; done | cases hnullish
      | none =>
          have hencode : ∃ store, encodeScalar platform metadata value type.scalar store =
              .ok document := by
            cases value <;> first | exact ⟨_, h⟩ | cases hleaf; done | cases hnullish
          have hfits : Fits platform metadata value type none =
              FitsScalar platform type value := by
            cases value <;> first | rfl | cases hleaf; done | cases hnullish
          obtain ⟨store, hstore⟩ := hencode
          rw [hfits]
          exact restores_plain hspans hnullish hconcept (fun _ _ => hobject) hstore

include hspans hdistinct in
theorem restoredByFits_object {classId : ℕ} {properties : Properties ν}
    (hproperties : ∀ name value, properties.lookup name = some value →
      RestoredByFits platform metadata propertyName value) :
    RestoredByFits platform metadata propertyName (.object classId properties) := by
  intro type element document h
  cases element with
  | some element => cases h
  | none =>
      cases type with
      | «class» type =>
          change encodeScalar platform metadata (.object classId properties) (.class type) _ = _ at h
          have hdocument := isNullish_encodeScalar rfl h
          rw [encodeScalar_plain rfl (fun htype => by cases htype)] at h
          rw [if_neg (show ¬ (ModelType.class type).isGeometry = true from Bool.false_ne_true),
            if_neg (show ¬ (ModelType.class type).isStored = true from Bool.false_ne_true)] at h
          dsimp only at h
          by_cases hempty : (metadata.fieldsFor type).isEmpty = true
          · rw [if_pos hempty] at h
            cases h
          · rw [if_neg hempty] at h
            obtain ⟨stored, hstored, h⟩ := Except.bind_eq_ok.1 h
            cases h
            rw [restores_eq rfl hdocument]
            unfold RestoresScalar
            dsimp only [decodeScalar]
            rw [if_neg hempty]
            exact restores_object (hdistinct _) (fun hactual => .inl
              (storedClass_of_actualType hactual)) hproperties hstored
      | _ => exact restores_plain hspans rfl (fun _ _ hconcept => by cases hconcept)
              (fun _ hclass => by cases hclass) h

/-- Nothing that is missing is read as a concept. -/
theorem not_restores_nullish {type : ModelType} {document value : ModelValue ν}
    (hdocument : document.isNullish = true) (hvalue : value.isNullish = false) :
    ¬ Restores platform metadata propertyName type none document value := by
  rintro ⟨decoded, hdecoded, hdeclared⟩
  have hread : decodeValue platform metadata propertyName document type none = .ok document := by
    cases document <;> first | rfl | cases hdocument
  obtain rfl := Except.ok.inj (hread.symm.trans hdecoded)
  have hnullish := congrArg ModelValue.isNullish hdeclared
  rw [isNullish_declared, isNullish_declared, hdocument, hvalue] at hnullish
  cases hnullish

theorem restoredByFits_concept {id : ℕ} {value : ModelValue ν}
    (hvalue : RestoredByFits platform metadata propertyName value) :
    RestoredByFits platform metadata propertyName (.concept id value) := by
  intro type element document h
  cases element with
  | some element => cases h
  | none =>
      cases type with
      | concept typeId valueType =>
          have hencoded : encodeValue platform metadata propertyName value valueType none =
              .ok document := h
          have hinner := hvalue valueType none document hencoded
          change _ ↔ typeId = id ∧ value.isNullish = false ∧
            Fits platform metadata value valueType none
          cases hdocument : document.isNullish with
          | true =>
              refine iff_of_false (not_restores_nullish hdocument rfl) ?_
              rintro ⟨-, hset, hfits⟩
              exact not_restores_nullish hdocument hset (hinner.2 hfits)
          | false =>
              rw [restores_concept hdocument]
              constructor
              · rintro ⟨inner, hconcept, hrestores⟩
                cases hconcept
                refine ⟨rfl, ?_, hinner.1 hrestores⟩
                cases hset : value.isNullish with
                | false => rfl
                | true =>
                    have hsame : encodeValue platform metadata propertyName value valueType none =
                        .ok value := by
                      cases value <;> first | rfl | cases hset
                    obtain rfl := Except.ok.inj (hsame.symm.trans hencoded)
                    rw [hset] at hdocument
                    cases hdocument
              · rintro ⟨rfl, -, hfits⟩
                exact ⟨value, rfl, hinner.2 hfits⟩
      | _ =>
          refine iff_of_false ?_ fun hfits => hfits
          change (if value.isNullish then _ else _) = _ at h
          split_ifs at h with hset
          cases h
          exact not_restores_nullish hset rfl

variable (platform metadata propertyName) in
/-- The items under each type of elements. -/
def ItemsRestored (items : List (ModelValue ν)) : Prop :=
  ∀ element documents, encodeItems platform metadata propertyName items element = .ok documents →
    ((∃ decoded, decodeItems platform metadata propertyName documents element = .ok decoded ∧
        declaredItems metadata decoded = declaredItems metadata items) ↔
      FitsItems platform metadata items element)

theorem itemsRestored_cons {item : ModelValue ν} {items : List (ModelValue ν)}
    (hitem : RestoredByFits platform metadata propertyName item)
    (hitems : ItemsRestored platform metadata propertyName items) :
    ItemsRestored platform metadata propertyName (item :: items) := by
  intro element documents h
  obtain ⟨document, hdocument, h⟩ := Except.bind_eq_ok.1 h
  obtain ⟨rest, hrest, h⟩ := Except.bind_eq_ok.1 h
  cases h
  refine Iff.trans ?_ (and_congr (hitem element none document hdocument) (hitems element rest hrest))
  constructor
  · rintro ⟨decoded, hdecoded, hdeclared⟩
    obtain ⟨first, hfirst, hdecoded⟩ := Except.bind_eq_ok.1 hdecoded
    obtain ⟨others, hothers, hdecoded⟩ := Except.bind_eq_ok.1 hdecoded
    cases hdecoded
    obtain ⟨hhead, htail⟩ := List.cons.inj hdeclared
    exact ⟨⟨first, hfirst, hhead⟩, others, hothers, htail⟩
  · rintro ⟨⟨first, hfirst, hhead⟩, others, hothers, htail⟩
    exact ⟨first :: others,
      Except.bind_eq_ok.2 ⟨first, hfirst, Except.bind_eq_ok.2 ⟨others, hothers, rfl⟩⟩,
      congrArg₂ List.cons hhead htail⟩

include hspans in
theorem restoredByFits_array {items : List (ModelValue ν)}
    (hitems : ItemsRestored platform metadata propertyName items) :
    RestoredByFits platform metadata propertyName (.array items) := by
  intro type element document h
  cases element with
  | none =>
      exact restores_plain hspans rfl (fun _ _ hconcept => by cases hconcept)
        (fun _ _ _ _ hobject => by cases hobject) h
  | some element =>
      obtain ⟨documents, hdocuments, h⟩ := Except.bind_eq_ok.1 h
      cases h
      refine Iff.trans ?_ (hitems element documents hdocuments)
      constructor
      · rintro ⟨decoded, hdecoded, hdeclared⟩
        obtain ⟨others, hothers, hdecoded⟩ := Except.bind_eq_ok.1 hdecoded
        cases hdecoded
        exact ⟨others, hothers, ModelValue.array.inj hdeclared⟩
      · rintro ⟨others, hothers, hdeclared⟩
        exact ⟨_, Except.bind_eq_ok.2 ⟨others, hothers, rfl⟩,
          congrArg ModelValue.array hdeclared⟩

include hspans hdistinct

mutual

/-- A value of any depth is restored when it fits. -/
theorem restoredByFits : ∀ value : ModelValue ν,
    RestoredByFits platform metadata propertyName value
  | .concept _ value => restoredByFits_concept (restoredByFits value)
  | .array items => restoredByFits_array hspans (itemsRestored items)
  | .object _ properties =>
      restoredByFits_object hspans hdistinct (propertiesRestored properties)
  | .null => restoredByFits_leaf hspans rfl
  | .undefined => restoredByFits_leaf hspans rfl
  | .boolean _ => restoredByFits_leaf hspans rfl
  | .number _ => restoredByFits_leaf hspans rfl
  | .bigint _ => restoredByFits_leaf hspans rfl
  | .string _ => restoredByFits_leaf hspans rfl
  | .guid _ => restoredByFits_leaf hspans rfl
  | .date _ => restoredByFits_leaf hspans rfl
  | .dateOnly _ _ _ => restoredByFits_leaf hspans rfl
  | .timeOnly _ _ _ _ => restoredByFits_leaf hspans rfl
  | .timeSpan _ => restoredByFits_leaf hspans rfl
  | .objectId _ => restoredByFits_leaf hspans rfl
  | .binary _ _ => restoredByFits_leaf hspans rfl
  | .decimal128 _ => restoredByFits_leaf hspans rfl
  | .long _ => restoredByFits_leaf hspans rfl
  | .point _ _ => restoredByFits_leaf hspans rfl
  | .lineString _ => restoredByFits_leaf hspans rfl
  | .polygon _ _ => restoredByFits_leaf hspans rfl

theorem itemsRestored : ∀ items : List (ModelValue ν),
    ItemsRestored platform metadata propertyName items
  | [] => fun element documents h => by
      cases h
      exact iff_of_true ⟨[], rfl, rfl⟩ trivial
  | item :: items => itemsRestored_cons (restoredByFits item) (itemsRestored items)

theorem propertiesRestored : ∀ (properties : Properties ν) (name : String) (value : ModelValue ν),
    properties.lookup name = some value → RestoredByFits platform metadata propertyName value
  | [], _, _, h => by cases h
  | (other, first) :: properties, name, value, h => by
      rw [List.lookup_cons] at h
      cases hname : name == other with
      | true =>
          rw [hname] at h
          cases h
          exact restoredByFits first
      | false =>
          rw [hname] at h
          exact propertiesRestored properties name value h

end

end Depth

end Values

end Arc.MongoDB
