import Arc.Foundation.Checks
import Arc.MongoDB.MongoDocumentCodec
import Mathlib.Data.List.Nodup

/-!
# The fields of a stored object

What the loops of `encodeObject` and `decodeObject` leave of each field, for a class whose fields
have names of their own, and what is `declared` of a value. `lookup` finds the property of a
name.
-/

namespace Arc.MongoDB

variable {ν : Type}

/-- The fields are stored under different names, and none as the discriminator. -/
def Distinct (nameOf : String → String) (fields : List ModelField) : Prop :=
  ((fields.map fun field => nameOf field.name) ++ ["_derivedTypeId"]).Nodup

theorem Distinct.nodup {nameOf : String → String} {fields : List ModelField}
    (h : Distinct nameOf fields) : (fields.map fun field => nameOf field.name).Nodup :=
  (List.nodup_append.1 h).1

theorem Distinct.ne_derivedTypeId {nameOf : String → String} {fields : List ModelField}
    (h : Distinct nameOf fields) : "_derivedTypeId" ∉ fields.map fun field => nameOf field.name := by
  intro hmem
  exact (List.nodup_append.1 h).2.2 _ hmem _ (List.mem_singleton_self _) rfl

theorem lookup_append_eq_some {α : Type*} {front back : List (String × α)} {name : String}
    (h : front.lookup name = none) : (front ++ back).lookup name = back.lookup name := by
  rw [List.lookup_append, h]
  rfl

theorem lookup_append_singleton {α : Type*} {front : List (String × α)} {name other : String}
    {value : α} (h : name ≠ other) :
    (front ++ [(other, value)]).lookup name = front.lookup name := by
  have hne : (name == other) = false := beq_false_of_ne h
  rw [List.lookup_append, List.lookup_cons, hne]
  exact Option.or_none

/-! ### Encoded fields -/

section Encoded

variable {nameOf : String → String} {contents : List (String × Content ν)}

/-- A property that the loop stores. -/
def present (contents : List (String × Content ν)) (name : String) : Option (Content ν) :=
  (contents.lookup name).filter fun content => !content.value.isUndefined

theorem encodeFields_cons {field : ModelField} {fields : List ModelField} :
    encodeFields nameOf contents (field :: fields) =
      match present contents field.name with
      | none => encodeFields nameOf contents fields
      | some content => (do
          let encoded ← content.encode field.type field.element
          let rest ← encodeFields nameOf contents fields
          .ok (rest ++ [(nameOf field.name, encoded)])) := by
  unfold present
  cases hlookup : contents.lookup field.name with
  | none =>
      change (match contents.lookup field.name with | none => _ | some content => _) = _
      rw [hlookup]
      rfl
  | some content =>
      change (match contents.lookup field.name with | none => _ | some content => _) = _
      rw [hlookup]
      cases hundefined : content.value.isUndefined with
      | true =>
          have hfilter : (some content).filter (fun content => !content.value.isUndefined) = none := by
            rw [Option.filter_some, if_neg (by rw [hundefined]; decide)]
          rw [hfilter]
          exact if_pos hundefined
      | false =>
          have hfilter : (some content).filter (fun content => !content.value.isUndefined) =
              some content := by
            rw [Option.filter_some, if_pos (by rw [hundefined]; decide)]
          rw [hfilter]
          exact if_neg (by rw [hundefined]; decide)

/-- What is stored of a field: the encoded content, or nothing for a property that is not set. -/
def StoredField (contents : List (String × Content ν)) (document : Properties ν)
    (nameOf : String → String) (field : ModelField) : Prop :=
  match present contents field.name with
  | none => document.lookup (nameOf field.name) = none
  | some content => ∃ encoded, content.encode field.type field.element = .ok encoded ∧
      document.lookup (nameOf field.name) = some encoded

theorem lookup_encodeFields_of_not_mem {fields : List ModelField} {document : Properties ν}
    (h : encodeFields nameOf contents fields = .ok document) {name : String}
    (hname : name ∉ fields.map fun field => nameOf field.name) : document.lookup name = none := by
  induction fields generalizing document with
  | nil =>
      cases h
      rfl
  | cons field fields ih =>
      rw [List.map_cons, List.mem_cons, not_or] at hname
      rw [encodeFields_cons] at h
      cases hpresent : present contents field.name with
      | none =>
          rw [hpresent] at h
          exact ih h hname.2
      | some content =>
          rw [hpresent] at h
          obtain ⟨encoded, -, h⟩ := Except.bind_eq_ok.1 h
          obtain ⟨rest, hrest, h⟩ := Except.bind_eq_ok.1 h
          cases h
          rw [lookup_append_singleton hname.1]
          exact ih hrest hname.2

theorem storedField_of_encodeFields {fields : List ModelField} {document : Properties ν}
    (h : encodeFields nameOf contents fields = .ok document)
    (hnames : (fields.map fun field => nameOf field.name).Nodup) :
    ∀ field ∈ fields, StoredField contents document nameOf field := by
  induction fields generalizing document with
  | nil =>
      intro field hfield
      cases hfield
  | cons field fields ih =>
      rw [List.map_cons, List.nodup_cons] at hnames
      rw [encodeFields_cons] at h
      cases hpresent : present contents field.name with
      | none =>
          rw [hpresent] at h
          refine List.forall_mem_cons.2 ⟨?_, ih h hnames.2⟩
          unfold StoredField
          rw [hpresent]
          exact lookup_encodeFields_of_not_mem h hnames.1
      | some content =>
          rw [hpresent] at h
          obtain ⟨encoded, hencoded, h⟩ := Except.bind_eq_ok.1 h
          obtain ⟨rest, hrest, h⟩ := Except.bind_eq_ok.1 h
          cases h
          refine List.forall_mem_cons.2 ⟨?_, fun other hother => ?_⟩
          · unfold StoredField
            rw [hpresent]
            refine ⟨encoded, hencoded, ?_⟩
            rw [lookup_append_eq_some (lookup_encodeFields_of_not_mem hrest hnames.1)]
            exact List.lookup_cons_self
          · have hne : nameOf other.name ≠ nameOf field.name := by
              intro heq
              exact hnames.1 (heq ▸ List.mem_map_of_mem hother)
            have hstored := ih hrest hnames.2 other hother
            unfold StoredField at hstored ⊢
            rw [lookup_append_singleton hne]
            exact hstored

end Encoded

/-! ### Decoded fields -/

section Decoded

variable {nameOf : String → String} {readings : List (String × Reading ν)}

/-- What is read of a field. -/
def ReadField (readings : List (String × Reading ν)) (result : Properties ν)
    (nameOf : String → String) (field : ModelField) : Prop :=
  match readings.lookup (nameOf field.name) with
  | none => result.lookup field.name = none
  | some decode => ∃ decoded, decode field.type field.element = .ok decoded ∧
      result.lookup field.name = some decoded

theorem decodeFields_cons {field : ModelField} {fields : List ModelField} :
    decodeFields nameOf readings (field :: fields) =
      match readings.lookup (nameOf field.name) with
      | none => decodeFields nameOf readings fields
      | some decode => (do
          let decoded ← decode field.type field.element
          let rest ← decodeFields nameOf readings fields
          .ok (rest ++ [(field.name, decoded)])) := rfl

theorem lookup_decodeFields_of_not_mem {fields : List ModelField} {result : Properties ν}
    (h : decodeFields nameOf readings fields = .ok result) {name : String}
    (hname : name ∉ fields.map ModelField.name) : result.lookup name = none := by
  induction fields generalizing result with
  | nil =>
      cases h
      rfl
  | cons field fields ih =>
      rw [List.map_cons, List.mem_cons, not_or] at hname
      rw [decodeFields_cons] at h
      cases hreading : readings.lookup (nameOf field.name) with
      | none =>
          rw [hreading] at h
          exact ih h hname.2
      | some decode =>
          rw [hreading] at h
          obtain ⟨decoded, -, h⟩ := Except.bind_eq_ok.1 h
          obtain ⟨rest, hrest, h⟩ := Except.bind_eq_ok.1 h
          cases h
          rw [lookup_append_singleton hname.1]
          exact ih hrest hname.2

theorem readField_of_decodeFields {fields : List ModelField} {result : Properties ν}
    (h : decodeFields nameOf readings fields = .ok result)
    (hnames : (fields.map ModelField.name).Nodup) :
    ∀ field ∈ fields, ReadField readings result nameOf field := by
  induction fields generalizing result with
  | nil =>
      intro field hfield
      cases hfield
  | cons field fields ih =>
      rw [List.map_cons, List.nodup_cons] at hnames
      rw [decodeFields_cons] at h
      cases hreading : readings.lookup (nameOf field.name) with
      | none =>
          rw [hreading] at h
          refine List.forall_mem_cons.2 ⟨?_, ih h hnames.2⟩
          unfold ReadField
          rw [hreading]
          exact lookup_decodeFields_of_not_mem h hnames.1
      | some decode =>
          rw [hreading] at h
          obtain ⟨decoded, hdecoded, h⟩ := Except.bind_eq_ok.1 h
          obtain ⟨rest, hrest, h⟩ := Except.bind_eq_ok.1 h
          cases h
          refine List.forall_mem_cons.2 ⟨?_, fun other hother => ?_⟩
          · unfold ReadField
            rw [hreading]
            refine ⟨decoded, hdecoded, ?_⟩
            rw [lookup_append_eq_some (lookup_decodeFields_of_not_mem hrest hnames.1)]
            exact List.lookup_cons_self
          · have hne : other.name ≠ field.name := by
              intro heq
              exact hnames.1 (heq ▸ List.mem_map_of_mem hother)
            have hread := ih hrest hnames.2 other hother
            unfold ReadField at hread ⊢
            rw [lookup_append_singleton hne]
            exact hread

/-- The loop ends when each field that is stored can be read. -/
theorem decodeFields_isOk {fields : List ModelField}
    (h : ∀ field ∈ fields, ∀ decode, readings.lookup (nameOf field.name) = some decode →
      ∃ decoded, decode field.type field.element = .ok decoded) :
    ∃ result, decodeFields nameOf readings fields = .ok result := by
  induction fields with
  | nil => exact ⟨[], rfl⟩
  | cons field fields ih =>
      obtain ⟨hfield, hfields⟩ := List.forall_mem_cons.1 h
      obtain ⟨rest, hrest⟩ := ih hfields
      rw [decodeFields_cons]
      cases hreading : readings.lookup (nameOf field.name) with
      | none => exact ⟨rest, hrest⟩
      | some decode =>
          obtain ⟨decoded, hdecoded⟩ := hfield decode hreading
          exact ⟨_, Except.bind_eq_ok.2 ⟨decoded, hdecoded, Except.bind_eq_ok.2 ⟨rest, hrest, rfl⟩⟩⟩

end Decoded

/-! ### What is declared -/

section Declared

variable (metadata : ModelMetadata ν)

/-- The declared fields of a class among some properties. -/
def fieldsOf (classId : ℕ) (properties : Properties ν) : Properties ν :=
  (metadata.fieldsFor classId).map fun field =>
    (field.name, (properties.lookup field.name).getD .undefined)

mutual

/-- A value, with the declared fields of its objects. -/
def declared : ModelValue ν → ModelValue ν
  | .concept id value => .concept id (declared value)
  | .array items => .array (declaredItems items)
  | .object classId properties =>
      .object classId (fieldsOf metadata classId (declaredProperties properties))
  | value => value

def declaredItems : List (ModelValue ν) → List (ModelValue ν)
  | [] => []
  | item :: items => declared item :: declaredItems items

def declaredProperties : Properties ν → Properties ν
  | [] => []
  | (name, value) :: properties => (name, declared value) :: declaredProperties properties

end

variable {metadata}

theorem lookup_declaredProperties (properties : Properties ν) (name : String) :
    (declaredProperties metadata properties).lookup name =
      (properties.lookup name).map (declared metadata) := by
  induction properties with
  | nil => rfl
  | cons property properties ih =>
      obtain ⟨other, value⟩ := property
      unfold declaredProperties
      rw [List.lookup_cons, List.lookup_cons]
      cases name == other with
      | true => rfl
      | false => exact ih

/-- What is declared of a value is of its kind. -/
theorem isNullish_declared (value : ModelValue ν) :
    (declared metadata value).isNullish = value.isNullish := by
  cases value <;> rfl

theorem declared_eq_undefined {value : ModelValue ν} (h : declared metadata value = .undefined) :
    value = .undefined := by
  cases value with
  | undefined => rfl
  | _ => cases h

end Declared

/-! ### Looking up properties -/

section Lookup

variable {platform : DocumentPlatform ν} {metadata : ModelMetadata ν}
  {propertyName : String → String}

theorem lookup_encodeProperties (properties : Properties ν) (name : String) :
    (encodeProperties platform metadata propertyName properties).lookup name =
      (properties.lookup name).map fun value =>
        ⟨value, encodeValue platform metadata propertyName value⟩ := by
  induction properties with
  | nil => rfl
  | cons property properties ih =>
      obtain ⟨other, value⟩ := property
      unfold encodeProperties
      rw [List.lookup_cons, List.lookup_cons]
      cases name == other with
      | true => rfl
      | false => exact ih

theorem lookup_decodeProperties (properties : Properties ν) (name : String) :
    (decodeProperties platform metadata propertyName properties).lookup name =
      (properties.lookup name).map (decodeValue platform metadata propertyName) := by
  induction properties with
  | nil => rfl
  | cons property properties ih =>
      obtain ⟨other, value⟩ := property
      unfold decodeProperties
      rw [List.lookup_cons, List.lookup_cons]
      cases name == other with
      | true => rfl
      | false => exact ih

end Lookup

end Arc.MongoDB
