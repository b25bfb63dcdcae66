import Arc.MongoDB.StoredValues

/-!
# Stored models

`serialize` stores more models than `deserialize` gives back: `stored_models` says which are
restored, for a codec under which the classes store each field under a name of its own.
-/

namespace Arc.MongoDB

variable {ν : Type}

/-! ### Models -/

namespace MongoDocumentCodec

section Models

variable (platform : DocumentPlatform ν) (metadata : ModelMetadata ν) (codec : MongoDocumentCodec)
  (classId : ℕ)

/-- The class a model is stored as. -/
def rootClass : ℕ := if (metadata.fieldsFor classId).isEmpty then codec.type else classId

/-- No class stores two fields under one name, or one as the discriminator. -/
structure DistinctNames : Prop where
  nested : ∀ classId, Distinct codec.propertyName (metadata.fieldsFor classId)
  root : Distinct codec.rootName (metadata.fieldsFor (rootClass metadata codec classId))

/-- The document of a model is read as an instance of its class, and its fields are restored. -/
def Restorable (value : Properties ν) : Prop :=
  if codec.ignoreConventions then
    codec.type = classId ∧ ∀ field ∈ metadata.fieldsFor classId, value.lookup field.name = none →
      ((metadata.initial classId).lookup field.name).getD .undefined = .undefined
  else actualType platform metadata codec.type
        (identifier metadata (rootClass metadata codec classId)) = .ok classId ∧
      FitsFields metadata classId (fittings platform metadata value)

variable {platform metadata codec classId} {value document : Properties ν}

theorem serialize_eq_ok (hconventions : codec.ignoreConventions = false)
    (h : codec.serialize platform metadata classId value = .ok document) :
    encodeObject metadata codec.rootName (rootClass metadata codec classId)
        (encodeProperties platform metadata codec.propertyName value) = .ok document ∧
      (document.lookup "_id").isNone = false := by
  unfold serialize at h
  rw [hconventions, if_neg Bool.false_ne_true] at h
  cases hkey : isMissing value codec.key with
  | true =>
      rw [hkey, if_pos rfl] at h
      cases h
  | false =>
      rw [hkey, if_neg Bool.false_ne_true] at h
      obtain ⟨stored, hstored, h⟩ := Except.bind_eq_ok.1 h
      cases hid : isMissing stored "_id" with
      | true =>
          rw [hid, if_pos rfl] at h
          cases h
      | false =>
          rw [hid, if_neg Bool.false_ne_true] at h
          cases h
          refine ⟨hstored, ?_⟩
          cases hlookup : document.lookup "_id" with
          | none =>
              unfold isMissing at hid
              rw [hlookup] at hid
              cases hid
          | some id => rfl

/-- Copies keep every property they have, and take the others of the constructor. -/
theorem restores_copy (hconventions : codec.ignoreConventions = true)
    (h : codec.serialize platform metadata classId value = .ok document) :
    (∃ restored, codec.deserialize platform metadata document = .ok restored ∧
      declared metadata restored = declared metadata (.object classId value)) ↔
    Restorable platform metadata codec classId value := by
  unfold serialize at h
  rw [hconventions, if_pos rfl] at h
  cases h
  have hread : codec.deserialize platform metadata value =
      .ok (.object codec.type (value ++ metadata.initial codec.type)) := if_pos hconventions
  rw [hread, show Restorable platform metadata codec classId value ↔ _ from
    iff_of_eq (if_pos hconventions)]
  have hdeclared : (∃ restored, Except.ok (.object codec.type
        (value ++ metadata.initial codec.type)) = (.ok restored : Except String _) ∧
      declared metadata restored = declared metadata (.object classId value)) ↔
      declared metadata (.object codec.type (value ++ metadata.initial codec.type)) =
        declared metadata (.object classId value) := by
    constructor
    · rintro ⟨restored, hrestored, hdeclared⟩
      cases hrestored
      exact hdeclared
    · intro hdeclared
      exact ⟨_, rfl, hdeclared⟩
  rw [hdeclared, declared_object_eq_iff]
  refine and_congr_right fun htype => forall₂_congr fun field _ => ?_
  rw [lookup_declaredProperties, lookup_declaredProperties, List.lookup_append, htype]
  cases hlookup : value.lookup field.name with
  | some content => exact iff_of_true rfl fun hnone => by cases hnone
  | none =>
      rw [Option.none_or]
      cases (metadata.initial classId).lookup field.name with
      | none => exact iff_of_true rfl fun _ => rfl
      | some content =>
          refine ⟨fun hcontent _ => declared_eq_undefined hcontent, fun hcontent => ?_⟩
          rw [show content = .undefined from hcontent rfl]
          rfl

end Models

/-! ### A base class with a discriminator -/

/-- A span of ticks as a text of as many characters. -/
def ticksText : ℤ → String
  | .ofNat ticks => String.ofList (List.replicate ticks '1')
  | .negSucc ticks => String.ofList ('-' :: List.replicate ticks '1')

def parseTicks (text : String) : Option ℤ :=
  match text.toList with
  | '-' :: rest => some (.negSucc rest.length)
  | rest => some (.ofNat rest.length)

theorem parseTicks_ticksText (ticks : ℤ) : parseTicks (ticksText ticks) = some ticks := by
  cases ticks with
  | negSucc ticks =>
      unfold ticksText parseTicks
      rw [String.toList_ofList]
      exact congrArg (fun length => some (Int.negSucc length)) List.length_replicate
  | ofNat ticks =>
      unfold ticksText parseTicks
      rw [String.toList_ofList]
      cases ticks with
      | zero => rfl
      | succ ticks =>
          rw [List.replicate_succ]
          exact congrArg (fun length => some (Int.ofNat (length + 1))) List.length_replicate

/-- A platform for whole numbers and texts that are no identifiers. -/
def wholeNumbers : DocumentPlatform ℤ where
  isFinite := fun _ => true
  sameNumber := fun left right => left = right
  decimalNumber := fun _ => none
  longNumber := some
  noonOf := fun _ _ _ => none
  dayOf := fun _ => none
  dateOf := fun _ _ _ _ => none
  clockOf := fun _ => none
  timeSpanText := ticksText
  parseTimeSpan := parseTicks
  parseGuid := fun _ => none
  toLowerCase := String.toLower
  text := fun _ => ""

/-- Shapes and circles, which are shapes with a radius; both have a discriminator. -/
def shapes : ModelMetadata ℤ where
  name := fun type => if type = 3 then "Circle" else "Shape"
  fieldsFor := fun type =>
    if type = 2 then [⟨"id", .string, none, false⟩]
    else if type = 3 then [⟨"id", .string, none, false⟩, ⟨"radius", .number, none, false⟩]
    else []
  derivedTypesFor := fun type => if type = 2 then [3] else []
  derivedType := fun type =>
    if type = 2 then some "shape" else if type = 3 then some "circle" else none
  initial := fun _ => []

def shapeCodec : MongoDocumentCodec := ⟨2, "id", false, id⟩

theorem shapes_distinct : DistinctNames shapes shapeCodec 3 where
  nested := by
    intro classId
    unfold Distinct shapes
    dsimp only
    split_ifs
    · decide
    · decide
    · decide
  root := by
    unfold Distinct
    decide

end MongoDocumentCodec

end Arc.MongoDB
