import Arc.Foundation.Checks
import Arc.Validation.ValidationResult

/-!
# Fragments of filters

A filter answers with a fragment of a result, and nothing is taken for granted about it:
every field is read as an own property, and a value of another shape than the field has is
an invalid fragment. `readFragment` is that reading, `WellFormedFragment` says of which
values it succeeds, and `mergeFilterFragment` adds what it has read to a verdict.
-/

namespace Arc.Execution

open Arc.Validation

/-! ### Untrusted values -/

/-- What is found under a name: nothing, a property of a prototype, or an own property. -/
inductive Field (β : Type)
  | absent
  | inherited
  | own (value : β)

/-- A value of unknown shape; `severity` is a number of the enumeration, and a hole of an
array is a field that is not its own. -/
inductive Untrusted
  | text (text : String)
  | boolean (flag : Bool)
  | severity (severity : Severity)
  | array (items : List (Field Untrusted))
  | object (field : String → Field Untrusted)
  | other (description : String)

/-- The text of `new TypeError('Invalid filter result fragment')` -/
def invalid : String := "TypeError: Invalid filter result fragment"

variable {β : Type}

/-- An own property that has to be there. -/
def Field.required (convert : Untrusted → Except String β) : Field Untrusted → Except String β
  | own value => convert value
  | _ => .error invalid

/-- An own property, or none. -/
def Field.optional (convert : Untrusted → Except String β) :
    Field Untrusted → Except String (Option β)
  | absent => .ok none
  | inherited => .error invalid
  | own value => (convert value).map some

def dense (convert : Untrusted → Except String β) : Untrusted → Except String (List β)
  | .array items => items.mapM (Field.required convert)
  | _ => .error invalid

def string : Untrusted → Except String String
  | .text text => .ok text
  | _ => .error invalid

def boolean : Untrusted → Except String Bool
  | .boolean flag => .ok flag
  | _ => .error invalid

def severity : Untrusted → Except String Severity
  | .severity severity => .ok severity
  | _ => .error invalid

def validation : Untrusted → Except String (ValidationResult Untrusted)
  | .object field => do
      let severity ← (field "severity").required severity
      let message ← (field "message").required string
      let members ← (field "members").required (dense string)
      let reason ← (field "reason").required string
      let reasonDetail ← (field "reasonDetail").optional string
      let state ← (field "state").optional .ok
      .ok { severity, message, members, reason, reasonDetail, state }
  | _ => .error invalid

/-! ### Fragments -/

/-- A fragment with the types of its fields checked; the flags it derives are not kept. -/
structure Fragment where
  isAuthorized : Option Bool
  isReady : Option Bool
  authorizationFailureReason : Option String
  validationResults : Option (List (ValidationResult Untrusted))
  exceptionMessages : Option (List String)
  exceptionStackTrace : Option String

/-- A derived flag: its type is checked, its value is not kept. -/
def checkFlag (flag : Field Untrusted) : Except String Unit :=
  (flag.optional boolean).map fun _ => ()

def readFragment : Untrusted → Except String Fragment
  | .object field => do
      let isAuthorized ← (field "isAuthorized").optional boolean
      let isReady ← (field "isReady").optional boolean
      let authorizationFailureReason ← (field "authorizationFailureReason").optional string
      let validationResults ← (field "validationResults").optional (dense validation)
      let exceptionMessages ← (field "exceptionMessages").optional (dense string)
      let exceptionStackTrace ← (field "exceptionStackTrace").optional string
      ["isValid", "hasExceptions", "isSuccess"].forM fun name => checkFlag (field name)
      .ok { isAuthorized, isReady, authorizationFailureReason, validationResults,
            exceptionMessages, exceptionStackTrace }
  | _ => .error invalid

/-- What a result says, as far as filters are concerned; a command is always ready. -/
structure Verdict where
  isAuthorized : Bool := true
  isReady : Bool := true
  authorizationFailureReason : String := ""
  validationResults : List (ValidationResult Untrusted) := []
  exceptionMessages : List String := []
  exceptionStackTrace : String := ""

/-- `[current, stack].filter(Boolean).join('\n')` -/
def joinStacks (current : String) (stack : Option String) : String :=
  "\n".intercalate ([current, stack.getD ""].filter (· ≠ ""))

/-- Add a fragment to a verdict; denial never exposes validation details. -/
def Verdict.merge (current : Verdict) (fragment : Fragment) : Verdict :=
  let isAuthorized := current.isAuthorized && fragment.isAuthorized != some false
  { isAuthorized
    isReady := current.isReady && fragment.isReady != some false
    authorizationFailureReason :=
      if current.authorizationFailureReason = "" then
        fragment.authorizationFailureReason.getD current.authorizationFailureReason
      else current.authorizationFailureReason
    validationResults :=
      if isAuthorized then current.validationResults ++ fragment.validationResults.getD [] else []
    exceptionMessages := current.exceptionMessages ++ fragment.exceptionMessages.getD []
    exceptionStackTrace := joinStacks current.exceptionStackTrace fragment.exceptionStackTrace }

/-- Normalize a filter fragment without trusting its runtime shape. -/
def mergeFilterFragment (current : Verdict) (fragment : Untrusted) : Except String Verdict :=
  (readFragment fragment).map current.merge

/-- The success flag of a result with these contents. -/
def Verdict.succeeds (verdict : Verdict) : Bool :=
  verdict.isReady && verdict.isAuthorized && verdict.validationResults.isEmpty &&
    verdict.exceptionMessages.isEmpty

/-! ### Well-formed fragments -/

/-- An own property of the shape. -/
def Field.Has (shape : Untrusted → Prop) : Field Untrusted → Prop
  | own value => shape value
  | _ => False

/-- No property, or an own one of the shape. -/
def Field.Allows (shape : Untrusted → Prop) : Field Untrusted → Prop
  | absent => True
  | inherited => False
  | own value => shape value

namespace Untrusted

def IsText : Untrusted → Prop
  | text _ => True
  | _ => False

def IsBoolean : Untrusted → Prop
  | boolean _ => True
  | _ => False

def IsSeverity : Untrusted → Prop
  | severity _ => True
  | _ => False

/-- An array without holes whose items have the shape. -/
def IsDense (shape : Untrusted → Prop) : Untrusted → Prop
  | array items => ∀ item ∈ items, item.Has shape
  | _ => False

end Untrusted

/-- A validation result with everything it needs. -/
structure WellFormedValidation (field : String → Field Untrusted) : Prop where
  severity : (field "severity").Has Untrusted.IsSeverity
  message : (field "message").Has Untrusted.IsText
  members : (field "members").Has (Untrusted.IsDense Untrusted.IsText)
  reason : (field "reason").Has Untrusted.IsText
  reasonDetail : (field "reasonDetail").Allows Untrusted.IsText
  state : (field "state").Allows fun _ => True

/-- An object that is a validation result. -/
def Untrusted.IsValidation : Untrusted → Prop
  | object field => WellFormedValidation field
  | _ => False

/-- The fields of a fragment are own properties of their types, as far as they are there. -/
structure WellFormedFields (field : String → Field Untrusted) : Prop where
  isAuthorized : (field "isAuthorized").Allows Untrusted.IsBoolean
  isReady : (field "isReady").Allows Untrusted.IsBoolean
  authorizationFailureReason : (field "authorizationFailureReason").Allows Untrusted.IsText
  validationResults :
    (field "validationResults").Allows (Untrusted.IsDense Untrusted.IsValidation)
  exceptionMessages : (field "exceptionMessages").Allows (Untrusted.IsDense Untrusted.IsText)
  exceptionStackTrace : (field "exceptionStackTrace").Allows Untrusted.IsText
  flags : ∀ name ∈ ["isValid", "hasExceptions", "isSuccess"],
    (field name).Allows Untrusted.IsBoolean

/-- An object whose fields are well formed. -/
def WellFormedFragment : Untrusted → Prop
  | .object field => WellFormedFields field
  | _ => False

/-! ### What is read -/

/-- The values `convert` accepts are those of the shape. -/
def Reads (convert : Untrusted → Except String β) (shape : Untrusted → Prop) : Prop :=
  ∀ value, (∃ result, convert value = .ok result) ↔ shape value

section Reads

variable {convert : Untrusted → Except String β} {shape : Untrusted → Prop}

theorem Reads.required (h : Reads convert shape) (field : Field Untrusted) :
    (∃ result, field.required convert = .ok result) ↔ field.Has shape := by
  cases field with
  | absent => simp [Field.required, Field.Has]
  | inherited => simp [Field.required, Field.Has]
  | own value => exact h value

theorem Reads.optional (h : Reads convert shape) (field : Field Untrusted) :
    (∃ result, field.optional convert = .ok result) ↔ field.Allows shape := by
  cases field with
  | absent => simp [Field.optional, Field.Allows]
  | inherited => simp [Field.optional, Field.Allows]
  | own value =>
      have hshape : (∃ result, convert value = .ok result) ↔ shape value := h value
      rw [Field.Allows, ← hshape, Field.optional]
      cases convert value with
      | error error => simp [Except.map]
      | ok result => simp [Except.map]

theorem reads_dense (h : Reads convert shape) : Reads (dense convert) (Untrusted.IsDense shape) := by
  intro value
  cases value with
  | array items =>
      rw [dense, Except.exists_mapM_eq_ok, Untrusted.IsDense]
      exact forall₂_congr fun item _ => h.required item
  | _ => simp [dense, Untrusted.IsDense]

theorem reads_string : Reads string Untrusted.IsText := by
  intro value
  cases value <;> simp [string, Untrusted.IsText]

theorem reads_boolean : Reads boolean Untrusted.IsBoolean := by
  intro value
  cases value <;> simp [boolean, Untrusted.IsBoolean]

theorem reads_severity : Reads severity Untrusted.IsSeverity := by
  intro value
  cases value <;> simp [severity, Untrusted.IsSeverity]

theorem reads_any : Reads Except.ok fun _ => True := by
  intro value
  simp

theorem checkFlag_eq_ok (flag : Field Untrusted) :
    checkFlag flag = .ok () ↔ flag.Allows Untrusted.IsBoolean := by
  rw [← reads_boolean.optional flag, checkFlag]
  cases flag.optional boolean with
  | error error => simp [Except.map]
  | ok result => simp [Except.map]

end Reads

theorem reads_validation : Reads validation Untrusted.IsValidation := by
  intro value
  cases value with
  | object field =>
      refine (Except.exists_bind_eq_ok fun _ => Except.exists_bind_eq_ok fun _ =>
        Except.exists_bind_eq_ok fun _ => Except.exists_bind_eq_ok fun _ =>
        Except.exists_bind_eq_ok fun _ => Except.exists_bind_eq_ok fun _ =>
        Except.exists_ok).trans ?_
      rw [reads_severity.required, reads_string.required, (reads_dense reads_string).required,
        reads_string.required, reads_string.optional, reads_any.optional, and_true]
      constructor
      · rintro ⟨hseverity, hmessage, hmembers, hreason, hdetail, hstate⟩
        exact ⟨hseverity, hmessage, hmembers, hreason, hdetail, hstate⟩
      · rintro ⟨hseverity, hmessage, hmembers, hreason, hdetail, hstate⟩
        exact ⟨hseverity, hmessage, hmembers, hreason, hdetail, hstate⟩
  | _ => simp [validation, Untrusted.IsValidation]

/-- A fragment is read exactly when it is well formed. -/
theorem exists_readFragment_iff (value : Untrusted) :
    (∃ fragment, readFragment value = .ok fragment) ↔ WellFormedFragment value := by
  cases value with
  | object field =>
      refine (Except.exists_bind_eq_ok fun _ => Except.exists_bind_eq_ok fun _ =>
        Except.exists_bind_eq_ok fun _ => Except.exists_bind_eq_ok fun _ =>
        Except.exists_bind_eq_ok fun _ => Except.exists_bind_eq_ok fun _ =>
        Except.exists_bind_eq_ok fun _ => Except.exists_ok).trans ?_
      have hflags : (∃ done, ["isValid", "hasExceptions", "isSuccess"].forM
          (fun name => checkFlag (field name)) = .ok done) ↔
          ∀ name ∈ ["isValid", "hasExceptions", "isSuccess"],
            (field name).Allows Untrusted.IsBoolean := by
        rw [← forall₂_congr fun name _ => checkFlag_eq_ok (field name), ← Except.forM_eq_ok]
        constructor
        · rintro ⟨⟨⟩, hdone⟩
          exact hdone
        · intro hdone
          exact ⟨(), hdone⟩
      rw [reads_boolean.optional, reads_boolean.optional, reads_string.optional,
        (reads_dense reads_validation).optional, (reads_dense reads_string).optional,
        reads_string.optional, hflags, and_true]
      constructor
      · rintro ⟨hauthorized, hready, hreason, hresults, hmessages, hstack, hflag⟩
        exact ⟨hauthorized, hready, hreason, hresults, hmessages, hstack, hflag⟩
      · rintro ⟨hauthorized, hready, hreason, hresults, hmessages, hstack, hflag⟩
        exact ⟨hauthorized, hready, hreason, hresults, hmessages, hstack, hflag⟩
  | _ => simp [readFragment, WellFormedFragment]

theorem mergeFilterFragment_eq_ok {current merged : Verdict} {value : Untrusted} :
    mergeFilterFragment current value = .ok merged ↔
      ∃ fragment, readFragment value = .ok fragment ∧ merged = current.merge fragment := by
  unfold mergeFilterFragment
  cases readFragment value with
  | error error => simp [Except.map]
  | ok fragment => simp [Except.map, eq_comm]

/-! ### Merging never weakens -/

/-- What the flag of a verdict stands for. -/
theorem Verdict.succeeds_iff {verdict : Verdict} :
    verdict.succeeds = true ↔ verdict.isReady = true ∧ verdict.isAuthorized = true ∧
      verdict.validationResults = [] ∧ verdict.exceptionMessages = [] := by
  simp only [Verdict.succeeds, Bool.and_eq_true, List.isEmpty_iff, and_assoc]

/-- A denied verdict has no validation results after a merge. -/
theorem Verdict.merge_validationResults_of_denied {current : Verdict} {fragment : Fragment}
    (h : (current.merge fragment).isAuthorized = false) :
    (current.merge fragment).validationResults = [] := by
  have hdenied : (current.isAuthorized && fragment.isAuthorized != some false) = false := h
  simp only [Verdict.merge, hdenied, Bool.false_eq_true, if_false]

/-- A merged verdict succeeds only if the verdict and everything merged into it do. -/
theorem Verdict.merge_succeeds_iff {current : Verdict} {fragment : Fragment} :
    (current.merge fragment).succeeds = true ↔ current.succeeds = true ∧
      fragment.isReady ≠ some false ∧ fragment.isAuthorized ≠ some false ∧
      fragment.validationResults.getD [] = [] ∧ fragment.exceptionMessages.getD [] = [] := by
  rw [Verdict.succeeds_iff, Verdict.succeeds_iff]
  simp only [Verdict.merge, Bool.and_eq_true, bne_iff_ne, List.append_eq_nil_iff]
  constructor
  · rintro ⟨⟨hready, hready'⟩, ⟨hauthorized, hauthorized'⟩, hresults, hmessages, hmessages'⟩
    rw [if_pos ⟨hauthorized, hauthorized'⟩, List.append_eq_nil_iff] at hresults
    exact ⟨⟨hready, hauthorized, hresults.1, hmessages⟩, hready', hauthorized', hresults.2,
      hmessages'⟩
  · rintro ⟨⟨hready, hauthorized, hresults, hmessages⟩, hready', hauthorized', hresults',
      hmessages'⟩
    refine ⟨⟨hready, hready'⟩, ⟨hauthorized, hauthorized'⟩, ?_, hmessages, hmessages'⟩
    rw [hresults, hresults', List.append_nil, ite_self]

end Arc.Execution
