import Arc.Http.BoundArguments

/-!
# Agreement of the query bindings

A record and options in a query string and in a body are bound to one input with one set of
options, or refused for one reason, unless a number of the record is written with an exponent: then
the query string is a bad request, and the body is not.
-/

namespace Arc.Http.QueryBinding

open Arc.Number
open Arc.Validation

variable {lower : LowerCase} {isObservable : Bool}

/-! ### What is left to do after binding -/

/-- A page before the first. -/
def NegativePage (options : OptionsForm) : Prop :=
  ∃ paging, options.paging = some paging ∧ paging.page.value < 0

/-- A field to sort by that is no name of a field. -/
def MalformedSort (options : OptionsForm) : Prop :=
  ∃ sorting, options.sorting = some sorting ∧ sorting.field ≠ [] ∧
    isFieldName sorting.field = false

def sortField (options : OptionsForm) : Option WireValue :=
  options.sorting.map fun sorting => .string sorting.field

def sortDirection (options : OptionsForm) : Option WireValue :=
  options.sorting.map fun sorting => .string sorting.direction

def pageRequest (options : OptionsForm) : Option PageRequest :=
  options.paging.map fun paging => ⟨.finite paging.page.value, .finite paging.pageSize.value⟩

/-- The sorting after the input, with the member that a wrong direction is reported for. -/
def finish (lower : LowerCase) (options : OptionsForm) (member : String)
    (input : Except Rejection (List (Text × WireValue))) : Except Rejection Binding := do
  let input ← input
  let sorting ← sort lower (sortField options) (sortDirection options) member
  .ok ⟨input, pageRequest options, sorting⟩

/-- The reserved arguments of a query string. -/
def taken (options : OptionsForm) (args : List (Text × WireValue)) : TakenArguments :=
  ⟨options.paging.map fun paging => .string paging.page.text,
    options.paging.map fun paging => .string paging.pageSize.text,
    sortField options, sortDirection options, args⟩

theorem bindTaken_taken (shape : List (Text × ZodType)) (options : OptionsForm)
    (args : List (Text × WireValue)) :
    (NegativePage options →
      bindTaken lower shape (taken options args) = .error (.queryValidation [pageRule])) ∧
    (¬ NegativePage options →
      bindTaken lower shape (taken options args) =
        finish lower options "sortDirection" (bind lower shape true args [] [])) := by
  obtain ⟨paging, sorting⟩ := options
  cases paging with
  | none =>
      constructor
      · rintro ⟨paging, hpaging, -⟩
        cases hpaging
      · intro
        cases sorting <;>
          simp [bindTaken, taken, finish, sortField, sortDirection, pageRequest, getInteger]
  | some paging =>
      have hpage := getInteger_text paging.page_isInt32
      have hsize := getInteger_text paging.pageSize_isInt32
      have hpositive : (Number.finite paging.pageSize.value).lessEqual (.finite 0) = false := by
        have := paging.pageSize_pos
        simp [Number.lessEqual, Number.less, this.le, this.ne']
      have hnonzero : paging.pageSize.value ≠ 0 := paging.pageSize_pos.ne'
      have herrors : pagingErrors ⟨.finite paging.page.value, .finite paging.pageSize.value⟩ =
          if paging.page.value < 0 then [pageRule] else [] := by
        simp [pagingErrors, hpositive, Number.less]
      constructor
      · rintro ⟨paging', hpaging, hnegative⟩
        obtain rfl : paging = paging' := Option.some.inj hpaging
        simp [bindTaken, taken, hsize, hpage, herrors, hnegative]
      · intro hnegative
        have hnonneg : ¬ paging.page.value < 0 := fun h => hnegative ⟨paging, rfl, h⟩
        cases sorting <;>
          simp [bindTaken, taken, finish, sortField, sortDirection, pageRequest, hsize, hpage,
            herrors, hnonneg, hnonzero, Option.filter]

theorem ok_bind {ε α β : Type} (value : α) (next : α → Except ε β) :
    (Except.ok value >>= next) = next value := rfl

/-- A body whose parts are objects and integers. -/
theorem structuredQuery_of_parts (shape : List (Text × ZodType)) {value : WireValue}
    (envelope pagingObject sortingObject : List (Text × WireValue)) (size page : Number)
    (henvelope : objectOrEmpty (some value) = .ok envelope)
    (hpaging : objectOrEmpty (lookup envelope "paging".toList) = .ok pagingObject)
    (hsorting : objectOrEmpty (lookup envelope "sorting".toList) = .ok sortingObject)
    (hsize : bodyInteger (lookup pagingObject "pageSize".toList) (.finite 0) = .ok size)
    (hpage : bodyInteger (lookup pagingObject "page".toList) (.finite 0) = .ok page) :
    structuredQuery lower (some value) shape =
      bindBody lower shape size page sortingObject (lookup envelope "arguments".toList) := by
  unfold structuredQuery
  rw [henvelope, ok_bind, hpaging, ok_bind, hsorting, ok_bind, hsize, ok_bind, hpage, ok_bind]

/-- The object of the sorting of a body. -/
def sortingObject (options : OptionsForm) : List (Text × WireValue) :=
  options.sorting.elim [] fun sorting =>
    [("field".toList, .string sorting.field), ("direction".toList, .string sorting.direction)]

theorem sort_sortingObject (options : OptionsForm) (member : String) :
    sort lower (lookup (sortingObject options) "field".toList)
      (lookup (sortingObject options) "direction".toList) member =
        sort lower (sortField options) (sortDirection options) member := by
  obtain ⟨paging, sorting⟩ := options
  cases sorting <;> rfl

theorem structuredQuery_structuredBody (shape : List (Text × ZodType)) (options : OptionsForm)
    (fields : List (Text × FieldValue)) :
    (NegativePage options →
      structuredQuery lower (some (structuredBody fields options)) shape =
        .error (.queryValidation [pageRule])) ∧
    (¬ NegativePage options →
      structuredQuery lower (some (structuredBody fields options)) shape =
        finish lower options "sorting.direction" (bind lower shape false
          (fields.map fun field => (field.1, field.2.wire)) [] [])) := by
  obtain ⟨paging, sorting⟩ := options
  cases paging with
  | none =>
      rw [structuredQuery_of_parts shape (bodyEnvelope fields ⟨none, sorting⟩) []
        (sortingObject ⟨none, sorting⟩) (.finite 0) (.finite 0) rfl
        (by cases sorting <;> rfl) (by cases sorting <;> rfl) rfl rfl]
      constructor
      · rintro ⟨paging, hsome, -⟩
        cases hsome
      · intro
        unfold bindBody
        rw [sort_sortingObject]
        rfl
  | some paging =>
      have hpositive : (Number.finite 0).less (.finite paging.pageSize.value) = true := by
        simpa [Number.less] using paging.pageSize_pos
      rw [structuredQuery_of_parts shape (bodyEnvelope fields ⟨some paging, sorting⟩)
        [("page".toList, .number (.finite paging.page.value)),
          ("pageSize".toList, .number (.finite paging.pageSize.value))]
        (sortingObject ⟨some paging, sorting⟩) (.finite paging.pageSize.value)
        (.finite paging.page.value) rfl (by cases sorting <;> rfl) (by cases sorting <;> rfl)
        (if_pos paging.pageSize_isInt32) (if_pos paging.page_isInt32)]
      unfold bindBody
      rw [hpositive, sort_sortingObject]
      constructor
      · rintro ⟨paging', hsome, hnegative⟩
        obtain rfl : paging = paging' := Option.some.inj hsome
        simp [Number.less, hnegative]
      · intro hnegative
        have hnonneg : ¬ paging.page.value < 0 := fun h => hnegative ⟨paging, rfl, h⟩
        simp only [Number.less, hnonneg, decide_false, Bool.and_false]
        rfl

/-! ### The query string of a record -/

theorem nodup_names {schema : QuerySchema lower isObservable} (record : Record schema) :
    Distinct lower (record.fields.map Prod.fst) := by
  have hshape : ((schema.shape.map Prod.fst).map lower.toLowerCase).Nodup := by
    rw [List.map_map]
    exact schema.distinct
  have hmem : ∀ name ∈ record.fields.map Prod.fst, name ∈ schema.shape.map Prod.fst := by
    intro name hname
    obtain ⟨field, hfield, rfl⟩ := List.mem_map.1 hname
    obtain ⟨declared, hlookup, -⟩ := record.fits field hfield
    exact mem_of_lookup hlookup
  exact record.nodup.map_on fun name hname other hother heq =>
    List.inj_on_of_nodup_map hshape (hmem name hname) (hmem other hother) heq

theorem mem_optionParams {options : OptionsForm} {param : Text × Text}
    (h : param ∈ optionParams options) :
    ∃ name ∈ reservedNames isObservable, param.1 = name.toList := by
  obtain ⟨paging, sorting⟩ := options
  have hmem : ∀ name ∈ ["page", "pageSize", "sortBy", "sortDirection"],
      name ∈ reservedNames isObservable := fun name hname => List.mem_append_left _ hname
  rcases List.mem_append.1 h with h | h
  · cases paging with
    | none => cases h
    | some paging =>
        simp only [Option.elim_some, List.mem_cons, List.not_mem_nil, or_false] at h
        rcases h with rfl | rfl
        · exact ⟨"page", hmem _ (by decide), rfl⟩
        · exact ⟨"pageSize", hmem _ (by decide), rfl⟩
  · cases sorting with
    | none => cases h
    | some sorting =>
        simp only [Option.elim_some, List.mem_cons, List.not_mem_nil, or_false] at h
        rcases h with rfl | rfl
        · exact ⟨"sortBy", hmem _ (by decide), rfl⟩
        · exact ⟨"sortDirection", hmem _ (by decide), rfl⟩

theorem distinct_optionParams (options : OptionsForm) :
    Distinct lower ((optionParams options).map Prod.fst) := by
  have hlower : ∀ name ∈ reservedNames false,
      lower.toLowerCase name.toList = name.toList.map Char.toLower :=
    fun name hname => toLowerCase_reserved hname
  have hpage := hlower "page" (by decide)
  have hpageSize := hlower "pageSize" (by decide)
  have hfield := hlower "sortBy" (by decide)
  have hdirection := hlower "sortDirection" (by decide)
  obtain ⟨_ | paging, _ | sorting⟩ := options
  · exact List.nodup_nil
  · change [lower.toLowerCase "sortBy".toList, lower.toLowerCase "sortDirection".toList].Nodup
    rw [hfield, hdirection]
    decide
  · change [lower.toLowerCase "page".toList, lower.toLowerCase "pageSize".toList].Nodup
    rw [hpage, hpageSize]
    decide
  · change [lower.toLowerCase "page".toList, lower.toLowerCase "pageSize".toList,
      lower.toLowerCase "sortBy".toList, lower.toLowerCase "sortDirection".toList].Nodup
    rw [hpage, hpageSize, hfield, hdirection]
    decide

/-- The keys of a query string. -/
def queryGroups (fields : List (Text × FieldValue)) (options : OptionsForm) : List Group :=
  (fields.map fun field => field.2.group field.1) ++
    (optionParams options).map fun param => ⟨param.1, param.2, []⟩

theorem flatMap_queryGroups (fields : List (Text × FieldValue)) (options : OptionsForm) :
    (queryGroups fields options).flatMap Group.params = encode fields options := by
  have hoptions : ∀ params : List (Text × Text),
      (params.map fun param => Group.mk param.1 param.2 []).flatMap Group.params = params := by
    intro params
    induction params with
    | nil => rfl
    | cons param params ih => rw [List.map_cons, List.flatMap_cons, ih]; rfl
  have hfields : (fields.map fun field => field.2.group field.1).flatMap Group.params =
      fields.flatMap fun field => field.2.scalars.map fun value => (field.1, value.text) := by
    rw [List.flatMap_map]
    congr 1
    funext field
    obtain ⟨name, value⟩ := field
    cases value <;> simp [FieldValue.group, Group.params, FieldValue.scalars]
  unfold queryGroups encode
  rw [List.flatMap_append, hfields, hoptions]

theorem names_queryGroups (fields : List (Text × FieldValue)) (options : OptionsForm) :
    (queryGroups fields options).map Group.name =
      fields.map Prod.fst ++ (optionParams options).map Prod.fst := by
  unfold queryGroups
  rw [List.map_append, List.map_map, List.map_map]
  congr 1
  exact List.map_congr_left fun field _ => group_name field.1 field.2

theorem distinct_queryGroups {schema : QuerySchema lower isObservable} (record : Record schema)
    (options : OptionsForm) :
    Distinct lower ((queryGroups record.fields options).map Group.name) := by
  rw [names_queryGroups]
  unfold Distinct
  rw [List.map_append]
  refine List.nodup_append.2 ⟨nodup_names record, distinct_optionParams options, ?_⟩
  intro name hname other hother heq
  obtain ⟨fieldName, hfieldName, rfl⟩ := List.mem_map.1 hname
  obtain ⟨paramName, hparamName, rfl⟩ := List.mem_map.1 hother
  obtain ⟨field, hfield, rfl⟩ := List.mem_map.1 hfieldName
  obtain ⟨param, hparam, rfl⟩ := List.mem_map.1 hparamName
  obtain ⟨declared, hlookup, -⟩ := record.fits field hfield
  obtain ⟨shaped, hshaped, hshapedName⟩ := List.mem_map.1 (mem_of_lookup hlookup)
  obtain ⟨reservedName, hreserved, hreservedName⟩ :
    ∃ name ∈ reservedNames isObservable, param.1 = name.toList := mem_optionParams hparam
  refine schema.free shaped hshaped reservedName hreserved ?_
  rw [hshapedName, heq, hreservedName]

theorem declaresArray_reserved (schema : QuerySchema lower isObservable) {name : String}
    (h : name ∈ reservedNames isObservable) :
    declaresArray lower schema.shape name.toList = false := by
  have hfind : findName lower (schema.shape.map Prod.fst) name.toList = none := by
    refine findName_of_not_mem ?_
    intro hmem
    obtain ⟨shapeName, hshapeName, heq⟩ := List.mem_map.1 hmem
    obtain ⟨field, hfield, rfl⟩ := List.mem_map.1 hshapeName
    exact schema.free field hfield name h heq
  unfold declaresArray declaredType
  rw [hfind]
  rfl

/-- The reserved arguments are left as they are. -/
theorem wrapArray_optionParams (schema : QuerySchema lower isObservable)
    (options : OptionsForm) :
    ((optionParams options).map fun param =>
        wrapArray lower schema.shape (param.1, .string param.2)) =
      optionalArg "page" (options.paging.map fun paging => .string paging.page.text) ++
        (optionalArg "pageSize" (options.paging.map fun paging => .string paging.pageSize.text) ++
          (optionalArg "sortBy" (sortField options) ++
            optionalArg "sortDirection" (sortDirection options))) := by
  have hwrap : ∀ param ∈ optionParams options,
      wrapArray lower schema.shape (param.1, .string param.2) = (param.1, .string param.2) := by
    intro param hparam
    obtain ⟨name, hname, hparamName⟩ :
      ∃ name ∈ reservedNames isObservable, param.1 = name.toList := mem_optionParams hparam
    rw [wrapArray_string, hparamName, declaresArray_reserved schema hname]
    rfl
  rw [List.map_congr_left hwrap]
  obtain ⟨_ | paging, _ | sorting⟩ := options <;> rfl

/-- The reserved arguments are taken out, and those of the record are left. -/
theorem getQuery_encode {schema : QuerySchema lower isObservable} (record : Record schema)
    (options : OptionsForm) :
    ∃ args, List.Forall₂ ArgumentOf record.fields args ∧
      getQuery lower (encode record.fields options) schema.shape isObservable =
        bindTaken lower schema.shape (taken options args) := by
  have hshape : Distinct lower (schema.shape.map Prod.fst) := by
    unfold Distinct
    rw [List.map_map]
    exact schema.distinct
  have hdeclares : ∀ group ∈ queryGroups record.fields options, group.rest ≠ [] →
      group.name ≠ [] → declaresArray lower schema.shape group.name = true := by
    intro group hgroup hrest hname
    rcases List.mem_append.1 hgroup with hgroup | hgroup
    · obtain ⟨⟨name, value⟩, hfield, rfl⟩ := List.mem_map.1 hgroup
      obtain ⟨declared, hlookup, hfits⟩ := record.fits _ hfield
      cases value with
      | scalar value => exact absurd rfl hrest
      | array first rest => exact declaresArray_array hshape hname hlookup hfits
    · obtain ⟨param, -, rfl⟩ := List.mem_map.1 hgroup
      exact absurd rfl hrest
  have hdistinct := distinct_queryGroups record options
  refine ⟨record.fields.map fun field =>
    wrapArray lower schema.shape (field.1, (field.2.group field.1).value), ?_, ?_⟩
  · rw [List.forall₂_map_right_iff]
    refine List.forall₂_same.2 fun field hfield => ?_
    have hkey : ∀ value, (wrapArray lower schema.shape (field.1, value)).1 = field.1 := by
      intro value
      cases value <;> rfl
    refine ⟨hkey _, fun hname => ?_⟩
    obtain ⟨declared, hlookup, hfits⟩ := record.fits field hfield
    rw [wrapArray_group hshape hname hlookup hfits]
  · have hargs : ((queryGroups record.fields options).map fun group =>
        (group.name, group.value)).map (wrapArray lower schema.shape) =
        (record.fields.map fun field =>
          wrapArray lower schema.shape (field.1, (field.2.group field.1).value)) ++
        ((optionParams options).map fun param =>
          wrapArray lower schema.shape (param.1, .string param.2)) := by
      unfold queryGroups
      rw [List.map_append, List.map_append, List.map_map, List.map_map, List.map_map,
        List.map_map]
      congr 1
      refine List.map_congr_left fun field _ => ?_
      dsimp only [Function.comp]
      rw [group_name]
    have hfree : ∀ arg ∈ record.fields.map fun field =>
        wrapArray lower schema.shape (field.1, (field.2.group field.1).value),
        ∀ name ∈ reservedNames isObservable,
          lower.toLowerCase arg.1 ≠ lower.toLowerCase name.toList := by
      intro arg harg name hname
      obtain ⟨field, hfield, rfl⟩ := List.mem_map.1 harg
      have hkey : (wrapArray lower schema.shape
          (field.1, (field.2.group field.1).value)).1 = field.1 := by
        cases (field.2.group field.1).value <;> rfl
      obtain ⟨declared, hlookup, -⟩ := record.fits field hfield
      obtain ⟨shaped, hshaped, hshapedName⟩ := List.mem_map.1 (mem_of_lookup hlookup)
      rw [hkey, ← hshapedName]
      exact schema.free shaped hshaped name hname
    unfold getQuery
    rw [← flatMap_queryGroups, collect_groups _ [] hdistinct hdeclares, ok_bind, List.nil_append,
      hargs, wrapArray_optionParams, takeReserved_eq hfree]
    rfl

/-! ### Agreement -/

/-- The kind of a rejection: all of it but the members the results name. -/
def Rejection.kind : Rejection → Rejection
  | .queryValidation results =>
      .queryValidation (results.map fun result => { result with members := [] })
  | rejection => rejection

theorem sort_of_malformed {options : OptionsForm} (h : MalformedSort options) (member : String) :
    sort lower (sortField options) (sortDirection options) member = .error .badRequest := by
  obtain ⟨sorting, hsorting, hne, hname⟩ := h
  unfold sort sortField sortDirection
  rw [hsorting]
  simp [isTextOrNull, textOf, hne, hname]

/-- Sorting succeeds, or the direction is reported, whatever the member is called. -/
theorem sort_of_not_malformed (lower : LowerCase) {options : OptionsForm} (h : ¬ MalformedSort options) :
    (∃ sorting, ∀ member,
      sort lower (sortField options) (sortDirection options) member = .ok sorting) ∨
    ∀ member, sort lower (sortField options) (sortDirection options) member =
      .error (.queryValidation [directionRule member]) := by
  cases hsorting : options.sorting with
  | none =>
      refine .inl ⟨none, fun member => ?_⟩
      unfold sort sortField sortDirection
      rw [hsorting]
      rfl
  | some sorting =>
      unfold sort sortField sortDirection
      rw [hsorting]
      by_cases hempty : sorting.field = []
      · exact .inl ⟨none, fun member => by simp [isTextOrNull, textOf, hempty]⟩
      have hname : isFieldName sorting.field = true := by
        by_contra hname
        exact h ⟨sorting, hsorting, hempty, Bool.eq_false_of_not_eq_true hname⟩
      cases hdirection : directionOf (lower.toLowerCase sorting.direction) with
      | none =>
          refine .inr fun member => ?_
          simp [isTextOrNull, textOf, hempty, hname, hdirection]
      | some direction =>
          refine .inl ⟨some ⟨sorting.field, direction⟩, fun member => ?_⟩
          simp [isTextOrNull, textOf, hempty, hname, hdirection]

theorem finish_kind (options : OptionsForm) (first second : String)
    (input : Except Rejection (List (Text × WireValue))) :
    (finish lower options first input).mapError Rejection.kind =
      (finish lower options second input).mapError Rejection.kind := by
  cases input with
  | error error => rfl
  | ok input =>
      unfold finish
      rw [ok_bind, ok_bind]
      by_cases hmalformed : MalformedSort options
      · rw [sort_of_malformed hmalformed, sort_of_malformed hmalformed]
      · rcases sort_of_not_malformed lower hmalformed with ⟨sorting, hsort⟩ | hsort
        · rw [hsort, hsort]
        · rw [hsort, hsort]
          rfl

/-- A body that is bound is a bad request only if the sorting is malformed. -/
theorem finish_kind_eq_badRequest_iff (options : OptionsForm) (member : String)
    (input : List (Text × WireValue)) :
    (finish lower options member (.ok input)).mapError Rejection.kind =
      .error .badRequest ↔ MalformedSort options := by
  unfold finish
  rw [ok_bind]
  by_cases hmalformed : MalformedSort options
  · rw [sort_of_malformed hmalformed]
    exact iff_of_true rfl hmalformed
  · refine iff_of_false ?_ hmalformed
    rcases sort_of_not_malformed lower hmalformed with ⟨sorting, hsort⟩ | hsort
    · rw [hsort]
      intro h
      cases h
    · rw [hsort]
      intro h
      cases h

/-- What both forms of a query are bound to. -/
theorem bindings_eq {schema : QuerySchema lower isObservable} (record : Record schema)
    (options : OptionsForm) (h : ¬ NegativePage options) :
    getQuery lower (encode record.fields options) schema.shape isObservable =
        finish lower options "sortDirection"
          (if hasEmptyName record.fields ∨ ¬ AllPlain record.fields then .error .badRequest
          else .ok (record.fields.map fun field => (field.1, field.2.wire))) ∧
      structuredQuery lower (some (structuredBody record.fields options)) schema.shape =
        finish lower options "sorting.direction"
          (if hasEmptyName record.fields then .error .badRequest
          else .ok (record.fields.map fun field => (field.1, field.2.wire))) := by
  have hshape : Distinct lower (schema.shape.map Prod.fst) := by
    unfold Distinct
    rw [List.map_map]
    exact schema.distinct
  have hfields : Fields schema.shape [] record.fields :=
    ⟨record.nodup, fun _ _ => List.not_mem_nil, record.fits⟩
  obtain ⟨args, hargs, hget⟩ := getQuery_encode record options
  constructor
  · rw [hget, (bindTaken_taken schema.shape options args).2 h, bind_get hshape hargs hfields,
      List.nil_append]
  · rw [(structuredQuery_structuredBody schema.shape options record.fields).2 h,
      bind_body hshape hfields, List.nil_append]

/-- The two forms of a query are bound alike, to one input and one set of options or to one kind
of rejection, exactly when no number is written with an exponent or the query is refused for
something else: an empty name, a page before the first, or a field to sort by that is no name. -/
theorem bindings_agree_iff (schema : QuerySchema lower isObservable) (record : Record schema)
    (options : OptionsForm) :
    (getQuery lower (encode record.fields options) schema.shape isObservable).mapError
        Rejection.kind =
      (structuredQuery lower (some (structuredBody record.fields options))
        schema.shape).mapError Rejection.kind ↔
      (∀ number ∈ numbers record.fields, 'e' ∉ number.text) ∨
        [] ∈ record.fields.map Prod.fst ∨ NegativePage options ∨ MalformedSort options := by
  rw [← allPlain_iff, ← hasEmptyName_iff]
  by_cases hnegative : NegativePage options
  · obtain ⟨args, -, hget⟩ := getQuery_encode record options
    refine iff_of_true ?_ (.inr (.inr (.inl hnegative)))
    rw [hget, (bindTaken_taken schema.shape options args).1 hnegative,
      (structuredQuery_structuredBody schema.shape options record.fields).1 hnegative]
  obtain ⟨hget, hbody⟩ := bindings_eq record options hnegative
  rw [hget, hbody, finish_kind options "sortDirection" "sorting.direction"]
  by_cases hname : hasEmptyName record.fields = true
  · rw [if_pos (.inl hname), if_pos hname]
    exact iff_of_true rfl (.inr (.inl hname))
  by_cases hplain : AllPlain record.fields
  · rw [if_neg (by simp [hname, hplain]), if_neg hname]
    exact iff_of_true rfl (.inl hplain)
  rw [if_pos (.inr hplain), if_neg hname, eq_comm]
  have herror : (finish lower options "sorting.direction" (.error .badRequest)).mapError
      Rejection.kind = .error .badRequest := rfl
  rw [herror, finish_kind_eq_badRequest_iff]
  simp [hplain, hname, hnegative]

/-- `toLowerCase` of the letters of ASCII alone. -/
def asciiLower : LowerCase := ⟨fun text => text.map Char.toLower, fun _ _ => rfl⟩

/-- `z.object({ x: z.number() })` -/
def numberSchema : QuerySchema asciiLower false where
  shape := [(['x'], .number)]
  distinct := by decide
  free := by decide

/-- `{ x: 1e21 }` -/
def largeRecord : Record numberSchema where
  fields := [(['x'], .scalar (.number ⟨10 ^ 21, by decide +kernel⟩))]
  nodup := by decide
  fits := by
    intro field hfield
    obtain rfl := List.mem_singleton.1 hfield
    exact ⟨.number, rfl, trivial⟩

/-- The query `x=1e+21` is a bad request, and the body `{ arguments: { x: 1e21 } }` is bound. -/
theorem bindings_disagree_large :
    (getQuery asciiLower (encode largeRecord.fields ⟨none, none⟩) numberSchema.shape
        false).mapError Rejection.kind ≠
      (structuredQuery asciiLower (some (structuredBody largeRecord.fields ⟨none, none⟩))
        numberSchema.shape).mapError Rejection.kind := by
  have hnegative : ¬ NegativePage ⟨none, none⟩ := by
    rintro ⟨paging, hpaging, -⟩
    cases hpaging
  have hplain : ¬ AllPlain largeRecord.fields := by
    intro hplain
    refine (allPlain_iff _).1 hplain ⟨10 ^ 21, by decide +kernel⟩ List.mem_cons_self
      (e_mem_text_of_large ?_)
    norm_num
  have hname : ¬ hasEmptyName largeRecord.fields = true := Bool.false_ne_true
  obtain ⟨hget, hbody⟩ := bindings_eq largeRecord ⟨none, none⟩ hnegative
  rw [hget, hbody, if_pos (.inr hplain), if_neg hname]
  intro h
  cases h

end Arc.Http.QueryBinding
