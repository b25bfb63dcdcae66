import Arc.Foundation.NumberText
import Arc.Validation.ValidationResult

/-!
# Query bindings

A query gets its arguments from a query string with `getQuery`, which collects the repeated keys,
takes the reserved ones out and coerces the texts to what the schema declares, or from a body with
`structuredQuery`, which takes the values as they are. Both bind the names to the declared ones
with `bind`. A text here is one that a query string can carry.
-/

namespace Arc.Http.QueryBinding

open Arc.Number (digitsValue)
open Arc.Validation

abbrev Text := List Char

/-- `toLowerCase`, of which the letters of ASCII are known. -/
structure LowerCase where
  toLowerCase : Text → Text
  ascii : ∀ text, (∀ c ∈ text, c.toNat < 128) → toLowerCase text = text.map Char.toLower

inductive WireValue
  | null
  | boolean (value : Bool)
  | number (value : Number)
  | string (text : Text)
  | array (items : List WireValue)
  | object (fields : List (Text × WireValue))

/-- The types of a schema. `accepts` is what the checks of a string type say. -/
inductive ZodType
  | string (accepts : Text → Bool)
  | number
  | boolean
  | array (element : ZodType)
  | optional (inner : ZodType)
  | nullable (inner : ZodType)
  | default (inner : ZodType)

def unwrap : ZodType → ZodType
  | .optional inner => unwrap inner
  | .nullable inner => unwrap inner
  | .default inner => unwrap inner
  | schema => schema

inductive Rejection
  | badRequest
  | unreadableQueryBody
  | queryValidation (results : List (ValidationResult Unit))

inductive SortDirection
  | ascending
  | descending

structure SortRequest where
  field : Text
  direction : SortDirection

structure PageRequest where
  page : Number
  pageSize : Number

structure QueryOptions where
  paging : Option PageRequest
  sorting : Option SortRequest

structure Binding where
  input : List (Text × WireValue)
  options : QueryOptions

/-- The member of an object. -/
def lookup {α : Type} : List (Text × α) → Text → Option α
  | [], _ => none
  | (name, value) :: fields, key => if name = key then some value else lookup fields key

/-! ### Integers -/

def isInt32 : Number → Bool
  | .finite value =>
      value.den = 1 && decide (-2147483648 ≤ value) && decide (value ≤ 2147483647)
  | _ => false

/-- `[\t\n\v\f\r ]` -/
def isSpace (c : Char) : Bool :=
  c = '\t' || c = '\n' || c = '\x0b' || c = '\x0c' || c = '\r' || c = ' '

/-- A sign at the beginning of a text, and what follows it. -/
def readSign : Text → Bool × Text
  | '-' :: rest => (true, rest)
  | '+' :: rest => (false, rest)
  | rest => (false, rest)

/-- The number of a text of digits and white space after them. -/
def readInteger (negative : Bool) (text : Text) : Option Number :=
  let digits := text.takeWhile Char.isDigit
  if digits.isEmpty || !(text.dropWhile Char.isDigit).all isSpace then none
  else
    let magnitude : ℚ := digitsValue digits
    some (.ofRat (if negative then -magnitude else magnitude))

/-- `/^[\t\n\v\f\r ]*[+-]?\d+[\t\n\v\f\r ]*$/` on a text, and the number of the text. -/
def integerText (text : Text) : Option Number :=
  let (negative, rest) := readSign (text.dropWhile isSpace)
  readInteger negative rest

def getInteger : Option WireValue → Option Number
  | some (.string text) => (integerText text).filter isInt32
  | _ => none

def bodyInteger (value : Option WireValue) (fallback : Number) : Except Rejection Number :=
  match value with
  | none => .ok fallback
  | some .null => .ok fallback
  | some (.number value) => if isInt32 value then .ok value else .error .unreadableQueryBody
  | some _ => .error .unreadableQueryBody

/-! ### Paging and sorting -/

def pageRule : ValidationResult Unit :=
  { severity := .error, message := "Page number must be greater than or equal to 0",
    members := ["Page"], reason := "rule" }

def sizeRule : ValidationResult Unit :=
  { severity := .error, message := "Page size must be greater than 0",
    members := ["Size"], reason := "rule" }

def directionRule (member : String) : ValidationResult Unit :=
  { severity := .error, message := "The sort direction is not a recognized value.",
    members := [member], reason := "malformedRequest" }

/-- A value is a text, or null, or missing. -/
def isTextOrNull : Option WireValue → Bool
  | none => true
  | some .null => true
  | some (.string _) => true
  | some _ => false

def textOf : Option WireValue → Option Text
  | some (.string text) => some text
  | _ => none

/-- `/^[a-zA-Z][a-zA-Z0-9_]*$/` -/
def isFieldName : Text → Bool
  | [] => false
  | first :: rest => first.isAlpha && rest.all fun c => c.isAlphanum || c = '_'

def asc : Text := ['a', 's', 'c']

def desc : Text := ['d', 'e', 's', 'c']

/-- The direction of a normalized text. -/
def directionOf (normalized : Text) : Option SortDirection :=
  if normalized = asc ∨ normalized = asc ++ "ending".toList ∨ normalized = desc ∨
      normalized = desc ++ "ending".toList then
    some (if desc.isPrefixOf normalized then .descending else .ascending)
  else none

def sort (lower : LowerCase) (field direction : Option WireValue) (member : String) :
    Except Rejection (Option SortRequest) :=
  if !isTextOrNull field || !isTextOrNull direction then .error .unreadableQueryBody
  else
    let name := (textOf field).getD []
    if name = [] then .ok none
    else if !isFieldName name then .error .badRequest
    else
      match directionOf ((textOf direction).elim asc lower.toLowerCase) with
      | none => .error (.queryValidation [directionRule member])
      | some direction => .ok (some ⟨name, direction⟩)

/-! ### Arguments -/

/-- The first name that is the key, in lower case. An empty one counts as none. -/
def findName (lower : LowerCase) (names : List Text) (key : Text) : Option Text :=
  (names.find? fun name => lower.toLowerCase name = lower.toLowerCase key).filter fun name =>
    !name.isEmpty

def declaredType (lower : LowerCase) (shape : List (Text × ZodType)) (key : Text) :
    Option ZodType :=
  (findName lower (shape.map Prod.fst) key).bind (lookup shape)

/-- A key is the name of an array. -/
def declaresArray (lower : LowerCase) (shape : List (Text × ZodType)) (key : Text) : Bool :=
  match (declaredType lower shape key).map unwrap with
  | some (.array _) => true
  | _ => false

/-- `/^-?(0|[1-9][0-9]*)(\.[0-9]+)?$/`: the digits before the point, and what follows them. -/
def readWhole : Text → Option (Text × Text)
  | '0' :: rest => some (['0'], rest)
  | text =>
      if (text.takeWhile Char.isDigit).isEmpty then none
      else some (text.takeWhile Char.isDigit, text.dropWhile Char.isDigit)

/-- The digits after the point. -/
def readFraction : Text → Option Text
  | [] => some []
  | '.' :: rest => if rest.isEmpty || !rest.all Char.isDigit then none else some rest
  | _ => none

def readUnsigned (text : Text) : Option ℚ := do
  let (whole, rest) ← readWhole text
  let fraction ← readFraction rest
  some (digitsValue (whole ++ fraction) / 10 ^ fraction.length)

/-- `Number(value)` for the texts of the pattern. -/
def decimalNumber : Text → Option Number
  | '-' :: rest => (readUnsigned rest).map fun value => .ofRat (-value)
  | text => (readUnsigned text).map .ofRat

def coerce (value : Text) (schema : ZodType) : Except Rejection WireValue :=
  match unwrap schema with
  | .number =>
      match (decimalNumber value).filter Number.isFinite with
      | none => .error .badRequest
      | some number => .ok (.number number)
  | .boolean =>
      if value = "true".toList then .ok (.boolean true)
      else if value = "false".toList then .ok (.boolean false)
      else .error .badRequest
  | _ => .ok (.string value)

/-- An entry of an array; those of a query string are texts. -/
def coerceEntry (element : ZodType) : WireValue → Except Rejection WireValue
  | .string text => coerce text element
  | entry => .ok entry

/-- An empty text is left out where the type is optional and does not take it. -/
def leavesOut (value : WireValue) (declared : ZodType) : Bool :=
  match value, declared with
  | .string [], .optional inner =>
      match unwrap inner with
      | .string accepts => !accepts []
      | _ => true
  | _, _ => false

/-- The value that is bound, `none` when it is left out. -/
def boundValue (isGet : Bool) (declared : ZodType) (value : WireValue) :
    Except Rejection (Option WireValue) :=
  if !isGet then .ok (some value)
  else if leavesOut value declared then .ok none
  else
    match value, unwrap declared with
    | .array items, .array element =>
        (items.mapM (coerceEntry element)).map fun items => some (.array items)
    | .string text, _ => (coerce text declared).map some
    | value, _ => .ok (some value)

def isNull : WireValue → Bool
  | .null => true
  | _ => false

def bind (lower : LowerCase) (shape : List (Text × ZodType)) (isGet : Bool) :
    List (Text × WireValue) → List Text → List (Text × WireValue) →
      Except Rejection (List (Text × WireValue))
  | [], _, result => .ok result
  | (key, value) :: values, seen, result =>
      match findName lower (shape.map Prod.fst) key with
      | none => .error .badRequest
      | some target =>
          if seen.contains target || (isNull value && isGet) then .error .badRequest
          else
            match (lookup shape target).map fun declared => boundValue isGet declared value with
            | none => .error .badRequest
            | some (.error error) => .error error
            | some (.ok none) => bind lower shape isGet values (target :: seen) result
            | some (.ok (some value)) =>
                bind lower shape isGet values (target :: seen) (result ++ [(target, value)])

/-! ### The query string -/

def setArgument : List (Text × WireValue) → Text → WireValue → List (Text × WireValue)
  | [], key, value => [(key, value)]
  | (name, old) :: args, key, value =>
      if name = key then (key, value) :: args else (name, old) :: setArgument args key value

/-- `Array.isArray(previous) ? [...previous, value] : [previous, value]` -/
def extend (previous : WireValue) (value : Text) : WireValue :=
  match previous with
  | .array items => .array (items ++ [.string value])
  | previous => .array [previous, .string value]

def collect (lower : LowerCase) (shape : List (Text × ZodType)) :
    List (Text × Text) → List (Text × WireValue) → Except Rejection (List (Text × WireValue))
  | [], args => .ok args
  | (key, value) :: params, args =>
      match findName lower (args.map Prod.fst) key with
      | none => collect lower shape params (setArgument args key (.string value))
      | some existing =>
          if existing = key ∧ declaresArray lower shape key = true then
            collect lower shape params
              (setArgument args key (extend ((lookup args key).getD .null) value))
          else .error .badRequest

/-- A single value of an array is an array of it. -/
def wrapArray (lower : LowerCase) (shape : List (Text × ZodType)) :
    Text × WireValue → Text × WireValue
  | (key, .array items) => (key, .array items)
  | (key, value) => (key, if declaresArray lower shape key then .array [value] else value)

/-- Take a reserved argument out of the others. -/
def reserved (lower : LowerCase) (name : String) (args : List (Text × WireValue)) :
    Option WireValue × List (Text × WireValue) :=
  match findName lower (args.map Prod.fst) name.toList with
  | none => (none, args)
  | some key => (lookup args key, args.filter fun arg => arg.1 ≠ key)

/-- The reserved arguments and the others. -/
structure TakenArguments where
  page : Option WireValue
  pageSize : Option WireValue
  field : Option WireValue
  direction : Option WireValue
  args : List (Text × WireValue)

def takeReserved (lower : LowerCase) (isObservable : Bool) (args : List (Text × WireValue)) :
    TakenArguments :=
  let (page, args) := reserved lower "page" args
  let (pageSize, args) := reserved lower "pageSize" args
  let (field, args) := reserved lower "sortBy" args
  let (direction, args) := reserved lower "sortDirection" args
  let args :=
    if isObservable then
      (reserved lower "waitForFirstResultTimeout" (reserved lower "waitForFirstResult" args).2).2
    else args
  ⟨page, pageSize, field, direction, args⟩

def pagingErrors (paging : PageRequest) : List (ValidationResult Unit) :=
  (if paging.page.less (.finite 0) then [pageRule] else []) ++
    if paging.pageSize.lessEqual (.finite 0) then [sizeRule] else []

def bindTaken (lower : LowerCase) (shape : List (Text × ZodType)) (taken : TakenArguments) :
    Except Rejection Binding :=
  let paging := (getInteger taken.pageSize).map fun size =>
    PageRequest.mk ((getInteger taken.page).getD (.finite 0)) size
  let errors := paging.elim [] pagingErrors
  if !errors.isEmpty then .error (.queryValidation errors)
  else if taken.direction.isSome && taken.field.isNone then .error .badRequest
  else do
    let input ← bind lower shape true taken.args [] []
    let sorting ← sort lower taken.field taken.direction "sortDirection"
    .ok ⟨input, paging.filter fun paging => paging.pageSize ≠ .finite 0, sorting⟩

def getQuery (lower : LowerCase) (searchParams : List (Text × Text))
    (shape : List (Text × ZodType)) (isObservable : Bool) : Except Rejection Binding := do
  let args ← collect lower shape searchParams []
  bindTaken lower shape (takeReserved lower isObservable (args.map (wrapArray lower shape)))

/-! ### The body -/

/-- The members of an object, none when it is null or missing. -/
def objectOrEmpty : Option WireValue → Except Rejection (List (Text × WireValue))
  | none => .ok []
  | some .null => .ok []
  | some (.object fields) => .ok fields
  | some _ => .error .unreadableQueryBody

/-- What is done with the parts of a body. -/
def bindBody (lower : LowerCase) (shape : List (Text × ZodType)) (size page : Number)
    (sortingObject : List (Text × WireValue)) (arguments : Option WireValue) :
    Except Rejection Binding :=
  let paging := if (Number.finite 0).less size then some (PageRequest.mk page size) else none
  if paging.isSome && page.less (.finite 0) then .error (.queryValidation [pageRule])
  else do
    let args ← objectOrEmpty arguments
    let input ← bind lower shape false args [] []
    let sorting ← sort lower (lookup sortingObject "field".toList)
      (lookup sortingObject "direction".toList) "sorting.direction"
    .ok ⟨input, paging, sorting⟩

def structuredQuery (lower : LowerCase) (value : Option WireValue)
    (shape : List (Text × ZodType)) : Except Rejection Binding := do
  let envelope ← objectOrEmpty value
  let pagingObject ← objectOrEmpty (lookup envelope "paging".toList)
  let sortingObject ← objectOrEmpty (lookup envelope "sorting".toList)
  let size ← bodyInteger (lookup pagingObject "pageSize".toList) (.finite 0)
  let page ← bodyInteger (lookup pagingObject "page".toList) (.finite 0)
  bindBody lower shape size page sortingObject (lookup envelope "arguments".toList)

end Arc.Http.QueryBinding
