import Arc.Http.QueryTexts
import Arc.Foundation.Checks

/-!
# The two forms of a query

A record of a schema and the options of a query are written as a query string, each value by its
text and an array as a repeated key, or as the members of a body.
-/

namespace Arc.Http.QueryBinding

open Arc.Number

/-! ### Records -/

inductive Scalar
  | string (text : Text)
  | number (value : Double)
  | boolean (value : Bool)

/-- The text of a value in the language. -/
def Scalar.text : Scalar → Text
  | .string text => text
  | .number value => value.text
  | .boolean true => "true".toList
  | .boolean false => "false".toList

def Scalar.wire : Scalar → WireValue
  | .string text => .string text
  | .number value => .number (.finite value.value)
  | .boolean value => .boolean value

def Scalar.Fits : Scalar → ZodType → Prop
  | .string text, .string accepts => accepts text = true
  | .number _, .number => True
  | .boolean _, .boolean => True
  | _, _ => False

/-- A value, or an array that is not empty. -/
inductive FieldValue
  | scalar (value : Scalar)
  | array (first : Scalar) (rest : List Scalar)

def FieldValue.scalars : FieldValue → List Scalar
  | .scalar value => [value]
  | .array first rest => first :: rest

def FieldValue.wire : FieldValue → WireValue
  | .scalar value => value.wire
  | .array first rest => .array ((first :: rest).map Scalar.wire)

/-- A value has an unwrapped type. -/
def FieldValue.FitsType : FieldValue → ZodType → Prop
  | .scalar value, declared => value.Fits declared
  | .array first rest, .array element => ∀ item ∈ first :: rest, item.Fits (unwrap element)
  | .array _ _, _ => False

def FieldValue.Fits (value : FieldValue) (declared : ZodType) : Prop :=
  value.FitsType (unwrap declared)

/-- The reserved arguments of a query. -/
def reservedNames (isObservable : Bool) : List String :=
  ["page", "pageSize", "sortBy", "sortDirection"] ++
    if isObservable then ["waitForFirstResult", "waitForFirstResultTimeout"] else []

/-- An object schema whose names do not collide. -/
structure QuerySchema (lower : LowerCase) (isObservable : Bool) where
  shape : List (Text × ZodType)
  distinct : (shape.map fun field => lower.toLowerCase field.1).Nodup
  free : ∀ field ∈ shape, ∀ name ∈ reservedNames isObservable,
    lower.toLowerCase field.1 ≠ lower.toLowerCase name.toList

/-- A record of values of the schema, absent members left out. -/
structure Record {lower : LowerCase} {isObservable : Bool}
    (schema : QuerySchema lower isObservable) where
  fields : List (Text × FieldValue)
  nodup : (fields.map Prod.fst).Nodup
  fits : ∀ field ∈ fields, ∃ declared, lookup schema.shape field.1 = some declared ∧
    field.2.Fits declared

/-- The numbers of a record. -/
def numbers (fields : List (Text × FieldValue)) : List Double :=
  fields.flatMap fun field => field.2.scalars.filterMap fun
    | .number value => some value
    | _ => none

/-- A 32-bit page and a positive 32-bit size. -/
structure PagingForm where
  pageNumber : ℤ
  sizeNumber : ℤ
  pageNumber_ge : -2147483648 ≤ pageNumber
  pageNumber_le : pageNumber ≤ 2147483647
  sizeNumber_pos : 0 < sizeNumber
  sizeNumber_le : sizeNumber ≤ 2147483647

namespace PagingForm

variable (paging : PagingForm)

def page : Double :=
  .ofInt paging.pageNumber (by
    have := paging.pageNumber_ge
    have := paging.pageNumber_le
    exact abs_lt.2 ⟨by omega, by omega⟩)

def pageSize : Double :=
  .ofInt paging.sizeNumber (by
    have := paging.sizeNumber_pos
    have := paging.sizeNumber_le
    exact abs_lt.2 ⟨by omega, by omega⟩)

theorem page_isInt32 : isInt32 (.finite paging.page.value) = true := by
  have hlow : (-2147483648 : ℚ) ≤ paging.pageNumber := by exact_mod_cast paging.pageNumber_ge
  have hhigh : (paging.pageNumber : ℚ) ≤ 2147483647 := by exact_mod_cast paging.pageNumber_le
  simp [isInt32, page, Double.ofInt, hlow, hhigh]

theorem pageSize_isInt32 : isInt32 (.finite paging.pageSize.value) = true := by
  have hpos := paging.sizeNumber_pos
  have hlow : (-2147483648 : ℚ) ≤ paging.sizeNumber := by
    exact_mod_cast (by omega : (-2147483648 : ℤ) ≤ paging.sizeNumber)
  have hhigh : (paging.sizeNumber : ℚ) ≤ 2147483647 := by exact_mod_cast paging.sizeNumber_le
  simp [isInt32, pageSize, Double.ofInt, hlow, hhigh]

theorem pageSize_pos : 0 < paging.pageSize.value := by
  have hpos := paging.sizeNumber_pos
  change (0 : ℚ) < paging.sizeNumber
  exact_mod_cast hpos

end PagingForm

structure SortingForm where
  field : Text
  direction : Text

structure OptionsForm where
  paging : Option PagingForm
  sorting : Option SortingForm

/-! ### Encodings -/

/-- The parameters of the options in a query string, a name and a text each. -/
def optionParams (options : OptionsForm) : List (Text × Text) :=
  options.paging.elim [] (fun paging =>
    [("page".toList, paging.page.text), ("pageSize".toList, paging.pageSize.text)]) ++
  options.sorting.elim [] fun sorting =>
    [("sortBy".toList, sorting.field), ("sortDirection".toList, sorting.direction)]

/-- The parameters of a query string. -/
def encode (fields : List (Text × FieldValue)) (options : OptionsForm) : List (Text × Text) :=
  (fields.flatMap fun field => field.2.scalars.map fun value => (field.1, value.text)) ++
    optionParams options

/-- The members of the body. -/
def bodyEnvelope (fields : List (Text × FieldValue)) (options : OptionsForm) :
    List (Text × WireValue) :=
  ("arguments".toList, .object (fields.map fun field => (field.1, field.2.wire))) ::
    (options.paging.elim [] fun paging => [("paging".toList, .object
      [("page".toList, .number (.finite paging.page.value)),
        ("pageSize".toList, .number (.finite paging.pageSize.value))])]) ++
    options.sorting.elim [] fun sorting => [("sorting".toList, .object
      [("field".toList, .string sorting.field),
        ("direction".toList, .string sorting.direction)])]

/-- `{ arguments, paging, sorting }` -/
def structuredBody (fields : List (Text × FieldValue)) (options : OptionsForm) : WireValue :=
  .object (bodyEnvelope fields options)

end Arc.Http.QueryBinding
