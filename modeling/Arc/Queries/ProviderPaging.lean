import Arc.Queries.QueryRendering

/-!
# Paging by a provider

The MongoDB and Drizzle read models count the matches of a query, cut one page in the
database and hand it to `renderQueryData`, which computes for itself how long that page has
to be. A snapshot is the list of its matches in the order of the query. The offset of the
core stops at the largest 32-bit integer; that of the providers does not.
-/

namespace Arc.Queries

/-- A number of a request in the range of a 32-bit integer. -/
abbrev Int32Value := { value : ℤ // -2147483648 ≤ value ∧ value ≤ 2147483647 }

/-- The paging of a GET request, from what `getInteger` finds; `none` when the request is
refused. -/
def getPaging (page pageSize : Option Int32Value) : Option (Option PageRequest) :=
  match pageSize with
  | none => some none
  | some size =>
      let page := (page.map Subtype.val).getD 0
      if page < 0 ∨ size.val ≤ 0 then none else some (some ⟨page.toNat, size.val.toNat⟩)

/-- The paging of a request with a body. -/
def structuredPaging (page pageSize : Option Int32Value) : Option (Option PageRequest) :=
  let size := (pageSize.map Subtype.val).getD 0
  let page := (page.map Subtype.val).getD 0
  if 0 < size then
    if page < 0 then none else some (some ⟨page.toNat, size.toNat⟩)
  else some none

/-- The query binding admits the paging. -/
def Binds (paging : Option PageRequest) : Prop :=
  ∃ page pageSize, getPaging page pageSize = some paging ∨
    structuredPaging page pageSize = some paging

/-! ### The providers -/

inductive ProviderError
  | invalidPage
  | queryPagingRequired (maxPageSize : ℕ) (unpaged : Bool)
  | invalidSort (field : String)
  deriving DecidableEq, Repr

def maxSafeInteger : ℕ := 9007199254740991

variable {α β ν : Type}

/-- The requested page, or a first one. -/
def validatePage (maxPageSize : ℕ) (paging : Option PageRequest) :
    Except ProviderError PageRequest :=
  let request := paging.getD ⟨0, maxPageSize⟩
  if maxSafeInteger < request.page ∨ maxSafeInteger < request.pageSize ∨ request.pageSize = 0 ∨
      maxSafeInteger < request.page * request.pageSize then .error .invalidPage
  else if maxPageSize < request.pageSize then .error (.queryPagingRequired maxPageSize false)
  else .ok request

/-- Count the matches and cut the page. -/
def readPage (maxPageSize : ℕ) (request : PageRequest) (rejectUnpaged : Bool)
    (sorting : Option SortRequest) (snapshot : List α) : Except ProviderError (QueryPage α) :=
  let totalItems := snapshot.length
  if rejectUnpaged ∧ maxPageSize < totalItems then
    .error (.queryPagingRequired maxPageSize true)
  else .ok ⟨(snapshot.drop (request.page * request.pageSize)).take request.pageSize, totalItems,
    sorting, by
      rw [List.length_take, List.length_drop]
      omega⟩

def checkSort (sortable : String → Bool) : Option SortRequest → Except ProviderError Unit
  | none => .ok ()
  | some sorting =>
      if sortable sorting.field then .ok () else .error (.invalidSort sorting.field)

/-- The Drizzle read models of a table. -/
structure DrizzleReadModels where
  maxPageSize : ℕ
  sortable : String → Bool
  pos : 0 < maxPageSize
  le : maxPageSize ≤ 10000

/-- A MongoDB collection of decorated models; every declared field can be sorted by. -/
structure MongoCollection where
  maxPageSize : ℕ
  declared : String → Bool
  pos : 0 < maxPageSize
  le : maxPageSize ≤ 10000

/-- The read models of a MongoDB collection the application owns. -/
structure MongoReadModels where
  maxPageSize : ℕ
  sortableFields : List String
  pos : 0 < maxPageSize
  le : maxPageSize ≤ maxSafeInteger

def DrizzleReadModels.queryPage (models : DrizzleReadModels) (snapshot : List α)
    (options : QueryOptions) : Except ProviderError (QueryPage α) := do
  let request ← validatePage models.maxPageSize options.paging
  checkSort models.sortable options.sorting
  readPage models.maxPageSize request options.paging.isNone options.sorting snapshot

def MongoCollection.queryPage (collection : MongoCollection) (snapshot : List α)
    (options : QueryOptions) : Except ProviderError (QueryPage α) := do
  let request ← validatePage collection.maxPageSize options.paging
  checkSort collection.declared options.sorting
  readPage collection.maxPageSize request options.paging.isNone options.sorting snapshot

def MongoReadModels.queryPage (models : MongoReadModels) (snapshot : List α)
    (options : QueryOptions) : Except ProviderError (QueryPage α) := do
  checkSort models.sortableFields.contains options.sorting
  let request ← validatePage models.maxPageSize options.paging
  readPage models.maxPageSize request options.paging.isNone options.sorting snapshot

/-! ### The page agrees with the core -/

/-- The offset of the core is that of the provider, or makes no difference. -/
def OffsetAgrees (totalItems : ℕ) : Option PageRequest → Prop
  | none => True
  | some request => request.page * request.pageSize ≤ maxInt32 ∨ totalItems ≤ maxInt32 ∨
      request.page * request.pageSize + request.pageSize ≤ totalItems

theorem Binds.bounds {request : PageRequest} (h : Binds (some request)) :
    request.page ≤ maxInt32 ∧ 0 < request.pageSize ∧ request.pageSize ≤ maxInt32 := by
  obtain ⟨page, pageSize, h⟩ := h
  have hvalue : (page.map Subtype.val).getD 0 ≤ 2147483647 := by
    cases page with
    | none => decide
    | some page => exact page.2.2
  rcases h with h | h
  · unfold getPaging at h
    split at h
    · cases h
    · next size =>
        have hsize := size.2.2
        dsimp only at h
        split_ifs at h with hinvalid
        cases h
        simp only [maxInt32]
        omega
  · have hsize : (pageSize.map Subtype.val).getD 0 ≤ 2147483647 := by
      cases pageSize with
      | none => decide
      | some size => exact size.2.2
    unfold structuredPaging at h
    dsimp only at h
    split_ifs at h with hpos hinvalid
    · cases h
      simp only [maxInt32]
      omega
    · cases h

theorem validatePage_eq {maxPageSize : ℕ} {paging : Option PageRequest} {request : PageRequest}
    (h : validatePage maxPageSize paging = .ok request) :
    request = paging.getD ⟨0, maxPageSize⟩ ∧ 0 < request.pageSize := by
  unfold validatePage at h
  dsimp only at h
  split_ifs at h with hinvalid hlarge
  cases h
  exact ⟨rfl, by omega⟩

theorem readPage_eq {maxPageSize : ℕ} {request : PageRequest} {rejectUnpaged : Bool}
    {sorting : Option SortRequest} {snapshot : List α} {page : QueryPage α}
    (h : readPage maxPageSize request rejectUnpaged sorting snapshot = .ok page) :
    page.items = (snapshot.drop (request.page * request.pageSize)).take request.pageSize ∧
      page.totalItems = snapshot.length ∧ page.sorting = sorting ∧
      (rejectUnpaged = true → snapshot.length ≤ maxPageSize) := by
  unfold readPage at h
  dsimp only at h
  split_ifs at h with hrejected
  cases h
  exact ⟨rfl, rfl, rfl, fun hunpaged => Nat.le_of_not_lt fun hlt => hrejected ⟨hunpaged, hlt⟩⟩

/-- What each provider hands to the core. -/
structure Cut (maxPageSize : ℕ) (snapshot : List α) (options : QueryOptions)
    (page : QueryPage α) : Prop where
  items : page.items = (snapshot.drop ((options.paging.getD ⟨0, maxPageSize⟩).page *
    (options.paging.getD ⟨0, maxPageSize⟩).pageSize)).take
      (options.paging.getD ⟨0, maxPageSize⟩).pageSize
  totalItems : page.totalItems = snapshot.length
  sorting : page.sorting = options.sorting
  unpaged : options.paging = none → snapshot.length ≤ maxPageSize

theorem cut_of_read {maxPageSize : ℕ} {request : PageRequest} {snapshot : List α}
    {options : QueryOptions} {page : QueryPage α}
    (hrequest : validatePage maxPageSize options.paging = .ok request)
    (hread : readPage maxPageSize request options.paging.isNone options.sorting snapshot = .ok page) :
    Cut maxPageSize snapshot options page := by
  obtain ⟨rfl, -⟩ := validatePage_eq hrequest
  obtain ⟨hitems, htotal, hsorting, hunpaged⟩ := readPage_eq hread
  exact ⟨hitems, htotal, hsorting, fun hnone => hunpaged (by rw [hnone]; rfl)⟩

theorem DrizzleReadModels.cut {models : DrizzleReadModels} {snapshot : List α}
    {options : QueryOptions} {page : QueryPage α}
    (h : models.queryPage snapshot options = .ok page) :
    Cut models.maxPageSize snapshot options page := by
  unfold DrizzleReadModels.queryPage at h
  cases hrequest : validatePage models.maxPageSize options.paging with
  | error error => simp [hrequest, bind, Except.bind] at h
  | ok request =>
      cases hsort : checkSort models.sortable options.sorting with
      | error error => simp [hrequest, hsort, bind, Except.bind] at h
      | ok _ => exact cut_of_read hrequest (by simpa [hrequest, hsort, bind, Except.bind] using h)

theorem MongoCollection.cut {collection : MongoCollection} {snapshot : List α}
    {options : QueryOptions} {page : QueryPage α}
    (h : collection.queryPage snapshot options = .ok page) :
    Cut collection.maxPageSize snapshot options page := by
  unfold MongoCollection.queryPage at h
  cases hrequest : validatePage collection.maxPageSize options.paging with
  | error error => simp [hrequest, bind, Except.bind] at h
  | ok request =>
      cases hsort : checkSort collection.declared options.sorting with
      | error error => simp [hrequest, hsort, bind, Except.bind] at h
      | ok _ => exact cut_of_read hrequest (by simpa [hrequest, hsort, bind, Except.bind] using h)

theorem MongoReadModels.cut {models : MongoReadModels} {snapshot : List α}
    {options : QueryOptions} {page : QueryPage α}
    (h : models.queryPage snapshot options = .ok page) :
    Cut models.maxPageSize snapshot options page := by
  unfold MongoReadModels.queryPage at h
  cases hsort : checkSort models.sortableFields.contains options.sorting with
  | error error => simp only [hsort, bind, Except.bind] at h; cases h
  | ok _ =>
      cases hrequest : validatePage models.maxPageSize options.paging with
      | error error => simp only [hsort, hrequest, bind, Except.bind] at h; cases h
      | ok request =>
          exact cut_of_read hrequest (by simpa only [hsort, hrequest, bind, Except.bind] using h)

/-- A cut page passes the length check of the core exactly when the offsets agree. -/
theorem Cut.isSuccess_iff {maxPageSize : ℕ} {snapshot : List α} {options : QueryOptions}
    {page : QueryPage α} (h : Cut maxPageSize snapshot options page) (hbinds : Binds options.paging)
    {fields : Fields α β} {clientOutput : Option (ClientOutput α)} {malformed : List ν}
    (hmalformed : malformed ≠ []) {correlationId : String} {result : QueryResult (Rendered α) ν}
    (hresult : renderQueryData fields clientOutput malformed (.page page) correlationId options =
      some result) :
    result.isSuccess = true ↔ OffsetAgrees snapshot.length options.paging := by
  obtain ⟨items, hitems, rfl⟩ := Option.map_eq_some_iff.1 hresult
  have hlength : items.length = page.items.length := length_items hitems
  rw [h.items, List.length_take, List.length_drop] at hlength
  have hsorted : ¬ (options.sorting.isSome = true ∧ page.sorting ≠ options.sorting) :=
    fun hnot => hnot.2 h.sorting
  have hshaped : ∀ {cut : Prop} [Decidable cut],
      (if cut then (refused correlationId malformed : QueryResult (Rendered α) ν)
        else queryResult correlationId { data := some (.items items)
                                         paging := pagingOf ((options.paging.map PageRequest.page).getD 0)
                                           ((options.paging.map PageRequest.pageSize).getD 0)
                                           page.totalItems }).isSuccess = true ↔ ¬ cut := by
    intro cut _
    split_ifs with hcut
    · simp [refused_isSuccess correlationId hmalformed, hcut]
    · simp [queryResult, QueryResultValues.succeeds, hcut]
  cases hpaging : options.paging with
  | none =>
      have hunpaged := h.unpaged hpaging
      rw [hpaging] at hlength
      have hoffset : safeOffset 0 0 = some 0 := rfl
      simp only [hpaging, Option.map_none, Option.getD_none] at hshaped ⊢
      rw [hoffset]
      dsimp only
      rw [hshaped, h.totalItems]
      simp only [OffsetAgrees, iff_true, not_or, hsorted, not_false_eq_true, true_and]
      simp only [Option.getD_none, Nat.zero_mul, Nat.sub_zero] at hlength
      omega
  | some request =>
      rw [hpaging] at hbinds hlength
      obtain ⟨hpage, hpos, hsize⟩ := hbinds.bounds
      simp only [hpaging, Option.map_some, Option.getD_some] at hshaped hlength ⊢
      rw [safeOffset_eq hpage hsize]
      dsimp only
      rw [hshaped, h.totalItems]
      simp only [OffsetAgrees, not_or, hsorted, not_false_eq_true, true_and]
      omega

/-- The page a provider builds from one snapshot passes the length check of the core exactly
when the offsets agree. -/
theorem provider_paging {options : QueryOptions} (hbinds : Binds options.paging)
    (snapshot : List α) {fields : Fields α β} {clientOutput : Option (ClientOutput α)}
    {malformed : List ν} (hmalformed : malformed ≠ []) {correlationId : String}
    {page : QueryPage α} {result : QueryResult (Rendered α) ν}
    (hresult : renderQueryData fields clientOutput malformed (.page page) correlationId options =
      some result)
    (hpage : (∃ models : DrizzleReadModels, models.queryPage snapshot options = .ok page) ∨
      (∃ collection : MongoCollection, collection.queryPage snapshot options = .ok page) ∨
      ∃ models : MongoReadModels, models.queryPage snapshot options = .ok page) :
    result.isSuccess = true ↔ OffsetAgrees snapshot.length options.paging := by
  rcases hpage with ⟨models, h⟩ | ⟨collection, h⟩ | ⟨models, h⟩
  · exact (DrizzleReadModels.cut h).isSuccess_iff hbinds hmalformed hresult
  · exact (MongoCollection.cut h).isSuccess_iff hbinds hmalformed hresult
  · exact (MongoReadModels.cut h).isSuccess_iff hbinds hmalformed hresult

/-! ### Where they differ -/

/-- The read models of a table that serve two rows a page. -/
def DrizzleReadModels.pairs : DrizzleReadModels := ⟨2, fun _ => false, by decide, by decide⟩

/-- Rows without a field to sort by. -/
def Fields.unsorted : Fields Unit Unit := ⟨fun _ _ => none, fun _ => true, fun _ _ => .eq⟩

theorem provider_paging_last_page :
    ∃ page result, DrizzleReadModels.pairs.queryPage [(), (), ()] ⟨some ⟨1, 2⟩, none⟩ = .ok page ∧
      renderQueryData Fields.unsorted none [()] (.page page) "" ⟨some ⟨1, 2⟩, none⟩ = some result ∧
      (result.isSuccess = true ↔ OffsetAgrees 3 (some ⟨1, 2⟩)) := by
  obtain ⟨page, hpage⟩ : ∃ page, DrizzleReadModels.pairs.queryPage [(), (), ()]
      ⟨some ⟨1, 2⟩, none⟩ = .ok page := ⟨_, rfl⟩
  obtain ⟨result, hresult⟩ : ∃ result, renderQueryData Fields.unsorted none [()] (.page page) ""
      ⟨some ⟨1, 2⟩, none⟩ = some result := ⟨_, rfl⟩
  have hbinds : Binds (some ⟨1, 2⟩) := ⟨some ⟨1, by decide⟩, some ⟨2, by decide⟩, .inl rfl⟩
  exact ⟨page, result, hpage, hresult, provider_paging hbinds [(), (), ()]
    (List.cons_ne_nil () []) hresult (.inl ⟨DrizzleReadModels.pairs, hpage⟩)⟩

/-- The page past the last of 2147483648 rows: the provider returns no row, the core waits
for one. -/
theorem page_past_int32 :
    ∃ page result, DrizzleReadModels.pairs.queryPage (List.replicate 2147483648 ())
        ⟨some ⟨1073741824, 2⟩, none⟩ = .ok page ∧
      renderQueryData Fields.unsorted none [()] (.page page) "" ⟨some ⟨1073741824, 2⟩, none⟩ =
        some result ∧
      Binds (some ⟨1073741824, 2⟩) ∧ result.isSuccess = false := by
  have hlength : (List.replicate 2147483648 ()).length = 2147483648 := List.length_replicate
  generalize List.replicate 2147483648 () = snapshot at hlength
  obtain ⟨page, hpage⟩ : ∃ page, DrizzleReadModels.pairs.queryPage snapshot
      ⟨some ⟨1073741824, 2⟩, none⟩ = .ok page := ⟨_, rfl⟩
  obtain ⟨result, hresult⟩ : ∃ result, renderQueryData Fields.unsorted none [()] (.page page) ""
      ⟨some ⟨1073741824, 2⟩, none⟩ = some result := ⟨_, rfl⟩
  have hbinds : Binds (some ⟨1073741824, 2⟩) :=
    ⟨some ⟨1073741824, by decide⟩, some ⟨2, by decide⟩, .inl rfl⟩
  have hiff := (DrizzleReadModels.cut hpage).isSuccess_iff hbinds (List.cons_ne_nil () []) hresult
  refine ⟨page, result, hpage, hresult, hbinds, ?_⟩
  rw [Bool.eq_false_iff, ne_eq, hiff, hlength]
  simp [OffsetAgrees, maxInt32]

end Arc.Queries
