import Arc.Queries.RenderingPaths
import Arc.Queries.SortValues
import Mathlib.Algebra.Order.Floor.Div

/-!
# Sorted pages

An array is sorted and cut into pages on every request. Whatever its values, the pages of one
size are those of one permutation of it; if the values are of one kind, that permutation is
the stable sort by an order (`renderQueryData_sortsAndPages`).
-/

namespace Arc.Queries

variable {α ν : Type}

/-! ### Pages -/

theorem flatMap_pages_take (items : List α) (size count : ℕ) :
    ((List.range count).flatMap fun page => (items.drop (page * size)).take size) =
      items.take (count * size) := by
  induction count with
  | zero => simp
  | succ count ih =>
      rw [List.range_succ, List.flatMap_append, ih, List.flatMap_singleton, Nat.succ_mul,
        List.take_add]

theorem length_le_pages (length : ℕ) {size : ℕ} (h : 0 < size) :
    length ≤ (length ⌈/⌉ size) * size := by
  rw [mul_comm]
  exact le_smul_ceilDiv h

/-- One page after the other is the whole list. -/
theorem flatMap_pages (items : List α) {size : ℕ} (h : 0 < size) :
    ((List.range (items.length ⌈/⌉ size)).flatMap fun page =>
      (items.drop (page * size)).take size) = items := by
  rw [flatMap_pages_take]
  exact List.take_of_length_le (length_le_pages items.length h)

/-- A page starts before the end of the list. -/
theorem page_mul_lt {length size page : ℕ} (hsize : 0 < size) (h : page < length ⌈/⌉ size) :
    page * size < length := by
  refine lt_of_not_ge fun hle => ?_
  rw [mul_comm] at hle
  exact absurd ((ceilDiv_le_iff_le_smul hsize).2 hle) (Nat.not_le.2 h)

/-! ### Sorted arrays -/

def sortFields (get : α → String → Option SortValue) (platform : TextPlatform) :
    Fields α SortValue where
  get := get
  isScalarSortValue := SortValue.isScalarSortValue
  compareValues := SortValue.compareValues platform

/-- The values an array is sorted by. -/
def sortValues (get : α → String → Option SortValue) (field : String) (items : List α) :
    List SortValue :=
  items.filterMap fun item => get item field

def itemsOf : Option (QueryResult (Rendered α) ν) → List α
  | some result =>
      match result.data with
      | some (.items items) => items
      | _ => []
  | none => []

/-- What the pages of an array are: `render page size` is the answer to a request. -/
structure SortsAndPages (fields : Fields α SortValue) (sorting : SortRequest) (wire sorted : List α)
    (values : List SortValue) (render : ℕ → ℕ → Option (QueryResult (Rendered α) ν)) : Prop where
  perm : sorted.Perm wire
  order : SortValue.OfOneKind values → OrderedOn fields.compareValues values
  ordered : SortValue.OfOneKind values →
    sorted.Pairwise fun left right => fields.before sorting left right = true
  stable : SortValue.OfOneKind values → ∀ left right, fields.before sorting left right = true →
    [left, right].Sublist wire → [left, right].Sublist sorted
  totals : ∀ page ≤ maxInt32, ∀ size ≤ maxInt32, 0 < size → ∃ result,
    render page size = some result ∧ result.isSuccess = true ∧
      result.paging.totalItems = wire.length ∧
      result.paging.totalPages = wire.length ⌈/⌉ size
  whole : ∀ page ≤ maxInt32, itemsOf (render page 0) = sorted
  pages : wire.length ≤ maxInt32 → ∀ size ≤ maxInt32, 0 < size →
    ((List.range (wire.length ⌈/⌉ size)).flatMap fun page => itemsOf (render page size)) = sorted

section Order

variable {fields : Fields α SortValue} {wire : List α}

/-- The comparison of items in a direction. -/
def directed (fields : Fields α SortValue) (sorting : SortRequest) (left right : α) : Ordering :=
  match sorting.direction with
  | .ascending => fields.compareBy sorting.field left right
  | .descending => fields.compareBy sorting.field right left

theorem orderedOn_directed {sorting : SortRequest}
    (h : OrderedOn (fields.compareBy sorting.field) wire) :
    OrderedOn (directed fields sorting) wire := by
  unfold directed
  cases sorting.direction with
  | ascending => exact h
  | descending => exact h.flip

theorem before_eq_directed {sorting : SortRequest}
    (haccepted : ∀ item ∈ wire, fields.sortable sorting.field item = true)
    (h : OrderedOn (fields.compareBy sorting.field) wire) {left right : α} (hleft : left ∈ wire)
    (hright : right ∈ wire) :
    fields.before sorting left right = (directed fields sorting left right).isLE := by
  have hbefore : fields.before sorting left right = _ :=
    Fields.before_eq (haccepted left hleft) (haccepted right hright)
  rw [hbefore]
  unfold directed
  cases sorting.direction with
  | ascending => rfl
  | descending => exact h.isGE_eq hleft hright

/-- An order on the values of a field is one on the items. -/
theorem orderedOn_compareBy {get : α → String → Option SortValue} {platform : TextPlatform}
    {field : String} (haccepted : ∀ item ∈ wire, (sortFields get platform).sortable field item = true)
    (h : OrderedOn (SortValue.compareValues platform) (sortValues get field wire)) :
    OrderedOn ((sortFields get platform).compareBy field) wire := by
  have hvalue : ∀ item ∈ wire, ∃ value ∈ sortValues get field wire, get item field = some value := by
    intro item hmem
    have hsortable := haccepted item hmem
    cases hget : get item field with
    | none => simp [Fields.sortable, sortFields, hget] at hsortable
    | some value => exact ⟨value, List.mem_filterMap.2 ⟨item, hmem, hget⟩, rfl⟩
  unfold Fields.compareBy
  constructor
  · intro a ha b hb
    obtain ⟨first, hfirst, hgetFirst⟩ := hvalue a ha
    obtain ⟨second, hsecond, hgetSecond⟩ := hvalue b hb
    simp only [sortFields, hgetFirst, hgetSecond]
    exact h.swap first hfirst second hsecond
  · intro a ha b hb c hc
    obtain ⟨first, hfirst, hgetFirst⟩ := hvalue a ha
    obtain ⟨second, hsecond, hgetSecond⟩ := hvalue b hb
    obtain ⟨third, hthird, hgetThird⟩ := hvalue c hc
    simp only [sortFields, hgetFirst, hgetSecond, hgetThird]
    exact h.trans first hfirst second hsecond third hthird

theorem sort_eq_directed {sorting : SortRequest}
    (haccepted : ∀ item ∈ wire, fields.sortable sorting.field item = true)
    (h : OrderedOn (fields.compareBy sorting.field) wire) :
    wire.mergeSort (fields.before sorting) =
      wire.mergeSort fun left right => (directed fields sorting left right).isLE :=
  mergeSort_congr fun _ hleft _ hright => before_eq_directed haccepted h hleft hright

end Order

/-! ### Rendered pages -/

/-- The answer to a request for a page of a sorted array. -/
def renderPage (fields : Fields α SortValue) (clientOutput : Option (ClientOutput α))
    (malformed : List ν) (data : List α) (correlationId : String) (sorting : SortRequest)
    (page size : ℕ) : Option (QueryResult (Rendered α) ν) :=
  renderQueryData fields clientOutput malformed (.array data) correlationId
    { paging := some ⟨page, size⟩, sorting := some sorting }

section Render

variable {fields : Fields α SortValue} {clientOutput : Option (ClientOutput α)}
  {malformed : List ν} {data wire : List α} {correlationId : String} {sorting : SortRequest}

theorem renderPage_eq (hwire : ClientOutput.items clientOutput data = some wire)
    (haccepted : wire.all (fields.sortable sorting.field) = true) {page size : ℕ}
    (hpage : page ≤ maxInt32) (hsize : size ≤ maxInt32) :
    renderPage fields clientOutput malformed data correlationId sorting page size =
      some (queryResult correlationId
        { data := some (.items (if size = 0 then wire.mergeSort (fields.before sorting)
            else ((wire.mergeSort (fields.before sorting)).drop
              (min (page * size) maxInt32)).take size))
          paging := pagingOf page size wire.length }) := by
  have hsort : fields.sort (some sorting) wire = some (wire.mergeSort (fields.before sorting)) :=
    if_pos haccepted
  have hoffset : safeOffset (pageOf ⟨some ⟨page, size⟩, some sorting⟩)
      (sizeOf ⟨some ⟨page, size⟩, some sorting⟩) = some (min (page * size) maxInt32) :=
    safeOffset_eq hpage hsize
  unfold renderPage
  rw [renderQueryData_array hwire, hsort, arrayPage_some hoffset, List.length_mergeSort]
  rfl

/-- The items of a page are those behind its offset. -/
theorem itemsOf_renderPage (hwire : ClientOutput.items clientOutput data = some wire)
    (haccepted : wire.all (fields.sortable sorting.field) = true) {page size : ℕ}
    (hpage : page ≤ maxInt32) (hsize : size ≤ maxInt32) :
    itemsOf (renderPage fields clientOutput malformed data correlationId sorting page size) =
      if size = 0 then wire.mergeSort (fields.before sorting)
      else ((wire.mergeSort (fields.before sorting)).drop
        (min (page * size) maxInt32)).take size := by
  rw [renderPage_eq hwire haccepted hpage hsize]
  rfl

end Render

/-- The sorted array is a permutation of the items as they are sent, and its pages are it; with
values of one kind it is sorted by an order, and what compares equal keeps its place. -/
theorem renderQueryData_sortsAndPages (get : α → String → Option SortValue)
    (platform : TextPlatform) [Std.TransCmp platform.localeCompare]
    (clientOutput : Option (ClientOutput α)) (malformed : List ν) (correlationId : String)
    (sorting : SortRequest) {data wire : List α}
    (hwire : ClientOutput.items clientOutput data = some wire)
    (haccepted : wire.all ((sortFields get platform).sortable sorting.field) = true) :
    ∃ sorted, SortsAndPages (sortFields get platform) sorting wire sorted
      (sortValues get sorting.field wire)
      (renderPage (sortFields get platform) clientOutput malformed data correlationId sorting) := by
  have hall := List.all_eq_true.1 haccepted
  have horder : SortValue.OfOneKind (sortValues get sorting.field wire) →
      OrderedOn ((sortFields get platform).compareBy sorting.field) wire := fun hkind =>
    orderedOn_compareBy hall (SortValue.orderedOn_of_ofOneKind hkind)
  refine ⟨wire.mergeSort ((sortFields get platform).before sorting), {
    perm := List.mergeSort_perm wire _
    order := fun hkind => SortValue.orderedOn_of_ofOneKind hkind
    ordered := fun hkind => ?_
    stable := fun hkind left right hbefore hsub => ?_
    totals := fun page hpage size hsize hpos => ?_
    whole := fun page hpage => ?_
    pages := fun hlength size hsize hpos => ?_ }⟩
  · have hordered := horder hkind
    rw [sort_eq_directed hall hordered]
    refine (pairwise_mergeSort_of_mem (orderedOn_directed hordered)).imp_of_mem ?_
    intro left right hleft hright hle
    rw [before_eq_directed hall hordered (List.mem_mergeSort.1 hleft) (List.mem_mergeSort.1 hright)]
    exact hle
  · have hordered := horder hkind
    have hmem := hsub.subset
    rw [before_eq_directed hall hordered (hmem List.mem_cons_self)
      (hmem (List.mem_cons_of_mem _ List.mem_cons_self))] at hbefore
    rw [sort_eq_directed hall hordered]
    exact pair_sublist_mergeSort_of_mem (orderedOn_directed hordered) hbefore hsub
  · refine ⟨_, renderPage_eq hwire haccepted hpage hsize, rfl, ?_, ?_⟩
    · simp [queryResult, pagingOf, Nat.ne_of_gt hpos]
    · simp [queryResult, pagingOf, Nat.ne_of_gt hpos, Nat.ceilDiv_eq_add_pred_div]
  · rw [itemsOf_renderPage hwire haccepted hpage (Nat.zero_le _)]
    rfl
  · have hpages : ∀ page ∈ List.range (wire.length ⌈/⌉ size),
        itemsOf (renderPage (sortFields get platform) clientOutput malformed data correlationId
          sorting page size) =
        ((wire.mergeSort ((sortFields get platform).before sorting)).drop (page * size)).take
          size := by
      intro page hmem
      have hoffset := page_mul_lt hpos (List.mem_range.1 hmem)
      have hle := Nat.le_mul_of_pos_right page hpos
      rw [itemsOf_renderPage hwire haccepted (by omega) hsize, if_neg (Nat.ne_of_gt hpos),
        Nat.min_eq_left (by omega)]
    rw [List.flatMap_congr hpages]
    have hflat := flatMap_pages (wire.mergeSort ((sortFields get platform).before sorting)) hpos
    rwa [List.length_mergeSort] at hflat

/-! ### Values of two kinds, and a long array -/

/-- Whole numbers in decimal; no other value is compared as a text below. -/
def decimalPlatform : TextPlatform where
  toText := fun value => match value with
    | .number (.finite value) => toString value.num
    | _ => ""
  localeCompare := compare

/-- Items that are their value. -/
def itself (value : SortValue) (_ : String) : Option SortValue := some value

def byValue : SortRequest := ⟨"value", .ascending⟩

theorem renderQueryData_sortsAndPages_numbers :
    ∃ sorted, SortsAndPages (sortFields itself decimalPlatform) byValue
      [.number (.finite 10), .null, .number (.finite 9)] sorted
      (sortValues itself "value" [.number (.finite 10), .null, .number (.finite 9)])
      (renderPage (sortFields itself decimalPlatform) none ([] : List Unit)
        [.number (.finite 10), .null, .number (.finite 9)] "" byValue) := by
  have : Std.TransCmp decimalPlatform.localeCompare := inferInstanceAs (Std.TransOrd String)
  exact renderQueryData_sortsAndPages itself decimalPlatform none [] "" byValue rfl (by decide)

/-- 9 is before 10 as a number, 10 before "5" as a text and so is not 9. And past the largest
32-bit offset, an item is on two pages. -/
theorem sorted_pages_fail :
    ¬ OrderedOn (SortValue.compareValues decimalPlatform)
        [.number (.finite 9), .number (.finite 10), .string "5"] ∧
      2147483647 ∈ itemsOf (renderPage (sortFields (fun _ _ => some .null) decimalPlatform) none
        ([] : List Unit) (List.range (maxInt32 + 2)) "" byValue 1073741823 2) ∧
      2147483647 ∈ itemsOf (renderPage (sortFields (fun _ _ => some .null) decimalPlatform) none
        ([] : List Unit) (List.range (maxInt32 + 2)) "" byValue 1073741824 2) := by
  have haccepted : (List.range (maxInt32 + 2)).all
      ((sortFields (fun _ _ => some .null) decimalPlatform).sortable byValue.field) = true :=
    List.all_eq_true.2 fun _ _ => rfl
  have hsorted : (List.range (maxInt32 + 2)).mergeSort
      ((sortFields (fun _ _ => some .null) decimalPlatform).before byValue) =
        List.range (maxInt32 + 2) :=
    List.mergeSort_of_pairwise (List.pairwise_of_forall fun _ _ => rfl)
  refine ⟨fun h => ?_, ?_, ?_⟩
  · have hle := h.trans (.number (.finite 9)) (by simp) (.number (.finite 10)) (by simp)
      (.string "5") (by simp) (by decide) (by decide)
    revert hle
    decide
  · rw [itemsOf_renderPage rfl haccepted (by decide) (by decide), hsorted]
    rw [if_neg (by decide), List.mem_take_iff_getElem]
    exact ⟨1, by simp [maxInt32], by simp [maxInt32]⟩
  · rw [itemsOf_renderPage rfl haccepted (by decide) (by decide), hsorted]
    rw [if_neg (by decide), List.mem_take_iff_getElem]
    exact ⟨0, by simp [maxInt32], by simp [maxInt32]⟩

end Arc.Queries
