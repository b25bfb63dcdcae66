import Arc.Queries.QueryResult
import Mathlib.Data.List.Sort

/-!
# Rendering the data of a query

`renderQueryData` shapes what a query has returned: a page a provider has already cut is
checked, an array is sorted and cut here, and anything else is passed on. What an item is,
which fields it has and how two field values compare are parameters.
-/

namespace Arc.Queries

inductive SortDirection
  | ascending
  | descending
  deriving DecidableEq, Repr

structure SortRequest where
  field : String
  direction : SortDirection
  deriving DecidableEq, Repr

structure PageRequest where
  page : ℕ
  pageSize : ℕ
  deriving DecidableEq, Repr

structure QueryOptions where
  paging : Option PageRequest := none
  sorting : Option SortRequest := none
  deriving DecidableEq, Repr

/-- What a provider has cut from `totalItems` matches; `sorting` is the sort it has applied. -/
structure QueryPage (α : Type*) where
  items : List α
  totalItems : ℕ
  sorting : Option SortRequest
  length_le : items.length ≤ totalItems

/-- What a query returns. -/
inductive QueryData (α : Type*)
  | page (page : QueryPage α)
  | array (items : List α)
  | single (value : α)

/-- How the values of fields compare: what `hasOwn` and `Reflect.get` find of an item,
which values can be sorted by, and the sign of `compareValues`. -/
structure Fields (α β : Type*) where
  get : α → String → Option β
  isScalarSortValue : β → Bool
  compareValues : β → β → Ordering

variable {α β ν : Type*}

def maxInt32 : ℕ := 2147483647

/-- The offset of a page; past the largest 32-bit integer it is that integer. -/
def safeOffset (page size : ℕ) : Option ℕ :=
  if maxInt32 < page ∨ maxInt32 < size then none
  else if 0 < size ∧ maxInt32 / size < page then some maxInt32
  else some (page * size)

namespace Fields

/-- `sortBy` for one direction; the sort of an array is stable. -/
def before (fields : Fields α β) (sorting : SortRequest) (left right : α) : Bool :=
  match fields.get left sorting.field, fields.get right sorting.field with
  | some first, some second =>
      match sorting.direction with
      | .ascending => (fields.compareValues first second).isLE
      | .descending => (fields.compareValues first second).isGE
  | _, _ => true

def sortable (fields : Fields α β) (field : String) (item : α) : Bool :=
  (fields.get item field).any fields.isScalarSortValue

/-- The items in the order asked for, unless one of them cannot be sorted by the field. -/
def sort (fields : Fields α β) : Option SortRequest → List α → Option (List α)
  | none, items => some items
  | some sorting, items =>
      if items.all (fields.sortable sorting.field) then some (items.mergeSort (fields.before sorting))
      else none

end Fields

/-- The data of a rendered result. -/
inductive Rendered (α : Type*)
  | items (items : List α)
  | single (value : α)
  deriving DecidableEq, Repr

def Rendered.map {γ : Type*} (f : α → γ) : Rendered α → Rendered γ
  | .items list => .items (list.map f)
  | .single value => .single (f value)

def pagingOf (page size totalItems : ℕ) : Paging :=
  if size = 0 then emptyPaging
  else ⟨page, size, totalItems, (totalItems + size - 1) / size⟩

/-- The answer to a request that asks for what the data cannot give. -/
def refused (correlationId : String) (malformed : List ν) : QueryResult (Rendered α) ν :=
  queryResult correlationId { validationResults := malformed }

/-- What `assertClientOutput` makes of a value: its wire form, or `none` when it throws. -/
structure ClientOutput (α : Type*) where
  item : α → Option α
  value : α → Option α

def ClientOutput.items (clientOutput : Option (ClientOutput α)) (items : List α) :
    Option (List α) :=
  match clientOutput with
  | none => some items
  | some output => items.mapM output.item

/-- Shape a query result; `malformed` is the issue of a malformed request, and `none` is the
error of a declared output that does not match. -/
def renderQueryData (fields : Fields α β) (clientOutput : Option (ClientOutput α))
    (malformed : List ν) (data : QueryData α) (correlationId : String) (options : QueryOptions) :
    Option (QueryResult (Rendered α) ν) :=
  let page := (options.paging.map PageRequest.page).getD 0
  let size := (options.paging.map PageRequest.pageSize).getD 0
  match data with
  | .page data =>
      (ClientOutput.items clientOutput data.items).map fun items =>
        match safeOffset page size with
        | none => refused correlationId malformed
        | some offset =>
            if (options.sorting.isSome ∧ data.sorting ≠ options.sorting) ∨
                (size = 0 ∧ items.length ≠ data.totalItems) ∨
                (size ≠ 0 ∧ items.length ≠ min size (data.totalItems - offset)) then
              refused correlationId malformed
            else queryResult correlationId
              { data := some (.items items), paging := pagingOf page size data.totalItems }
  | .array data =>
      (ClientOutput.items clientOutput data).map fun wire =>
        match fields.sort options.sorting wire, safeOffset page size with
        | some sorted, some offset => queryResult correlationId
            { data := some (.items (if size = 0 then sorted else (sorted.drop offset).take size))
              paging := pagingOf page size sorted.length }
        | _, _ => refused correlationId malformed
  | .single value =>
      if options.paging.isSome ∨ options.sorting.isSome then
        some (refused correlationId malformed)
      else
        match clientOutput with
        | none => some (queryResult correlationId { data := some (.single value) })
        | some output => (output.value value).map fun value =>
            queryResult correlationId { data := some (.single value) }

/-! ### What is shaped -/

theorem refused_isSuccess (correlationId : String) {malformed : List ν} (h : malformed ≠ []) :
    (refused correlationId malformed : QueryResult (Rendered α) ν).isSuccess = false := by
  have hempty : malformed.isEmpty = false := by simpa using h
  simp [refused, queryResult, QueryResultValues.succeeds, hempty]

theorem length_items {clientOutput : Option (ClientOutput α)} {items items' : List α}
    (h : ClientOutput.items clientOutput items = some items') : items'.length = items.length := by
  cases clientOutput with
  | none =>
      cases h
      rfl
  | some output =>
      have hmap : items.mapM output.item = some items' := h
      induction items generalizing items' with
      | nil =>
          cases hmap
          rfl
      | cons item items ih =>
          rw [List.mapM_cons] at hmap
          obtain ⟨first, -, hmap⟩ := Option.bind_eq_some_iff.1 hmap
          obtain ⟨rest, hrest, hmap⟩ := Option.bind_eq_some_iff.1 hmap
          cases hmap
          rw [List.length_cons, List.length_cons, ih hrest hrest]

theorem safeOffset_eq {page size : ℕ} (hpage : page ≤ maxInt32) (hsize : size ≤ maxInt32) :
    safeOffset page size = some (min (page * size) maxInt32) := by
  rw [safeOffset, if_neg (by omega)]
  rcases Nat.eq_zero_or_pos size with rfl | hpos
  · simp
  · have hlarge : maxInt32 / size < page ↔ maxInt32 < page * size := Nat.div_lt_iff_lt_mul hpos
    split_ifs with h
    · rw [Nat.min_eq_right (Nat.le_of_lt (hlarge.1 h.2))]
    · rw [Nat.min_eq_left (Nat.le_of_not_lt fun hlt => h ⟨hpos, hlarge.2 hlt⟩)]

end Arc.Queries
