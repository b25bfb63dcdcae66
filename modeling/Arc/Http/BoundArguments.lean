import Arc.Http.QueryForms

/-!
# Arguments collected and bound

Collecting a query string gives each key the values of its texts, and the reserved arguments are
taken out of the others whatever their order. Binding the collected texts of a record gives the
record unless a number is written with an exponent; binding its values always does.
-/

namespace Arc.Http.QueryBinding

open Arc.Number

variable {lower : LowerCase} {isObservable : Bool}

/-! ### Names -/

/-- Names that differ in lower case. -/
def Distinct (lower : LowerCase) (names : List Text) : Prop :=
  (names.map lower.toLowerCase).Nodup

theorem findName_of_mem {names : List Text} {name : Text} (hdistinct : Distinct lower names)
    (h : name ∈ names) : findName lower names name = if name = [] then none else some name := by
  have hfind : (names.find? fun other =>
      decide (lower.toLowerCase other = lower.toLowerCase name)) = some name := by
    induction names with
    | nil => cases h
    | cons first names ih =>
        obtain ⟨hfirst, hrest⟩ := List.nodup_cons.1 hdistinct
        rcases List.mem_cons.1 h with rfl | hmem
        · simp
        · have hne : lower.toLowerCase first ≠ lower.toLowerCase name := by
            intro heq
            exact hfirst (heq ▸ List.mem_map_of_mem hmem)
          rw [List.find?_cons_of_neg (by simpa using hne), ih hrest hmem]
  unfold findName
  rw [hfind]
  cases name with
  | nil => rfl
  | cons first rest => simp [Option.filter]

theorem findName_of_not_mem {names : List Text} {name : Text}
    (h : lower.toLowerCase name ∉ names.map lower.toLowerCase) :
    findName lower names name = none := by
  have hfind : (names.find? fun other =>
      decide (lower.toLowerCase other = lower.toLowerCase name)) = none := by
    rw [List.find?_eq_none]
    intro other hother
    simp only [decide_eq_true_eq]
    intro heq
    exact h (heq ▸ List.mem_map_of_mem hother)
  unfold findName
  rw [hfind]
  rfl

theorem lookup_append_of_not_mem {α : Type} {front : List (Text × α)} (back : List (Text × α))
    {key : Text} (h : key ∉ front.map Prod.fst) : lookup (front ++ back) key = lookup back key := by
  induction front with
  | nil => rfl
  | cons field front ih =>
      obtain ⟨name, value⟩ := field
      rw [List.map_cons, List.mem_cons, not_or] at h
      rw [List.cons_append, lookup, if_neg (Ne.symm h.1), ih h.2]

theorem setArgument_append_of_not_mem {front : List (Text × WireValue)} {key : Text}
    (back : List (Text × WireValue)) (value : WireValue) (h : key ∉ front.map Prod.fst) :
    setArgument (front ++ back) key value = front ++ setArgument back key value := by
  induction front with
  | nil => rfl
  | cons field front ih =>
      obtain ⟨name, old⟩ := field
      rw [List.map_cons, List.mem_cons, not_or] at h
      rw [List.cons_append, setArgument, if_neg (Ne.symm h.1), ih h.2]
      rfl

/-! ### Collecting -/

/-- A key with its texts, at least one. -/
structure Group where
  name : Text
  first : Text
  rest : List Text

def Group.params (group : Group) : List (Text × Text) :=
  (group.first :: group.rest).map fun text => (group.name, text)

/-- What `collect` makes of the texts of a key. The empty key is not found again. -/
def Group.value (group : Group) : WireValue :=
  group.rest.foldl (fun value text =>
    if group.name = [] then .string text else extend value text) (.string group.first)

/-- The texts after the first are added to the value. -/
theorem collect_rest {shape : List (Text × ZodType)} {args : List (Text × WireValue)}
    {name : Text} (hname : name ∉ args.map Prod.fst)
    (hdistinct : Distinct lower (args.map Prod.fst ++ [name]))
    (hdeclares : name ≠ [] → declaresArray lower shape name = true)
    (texts : List Text) (value : WireValue) (params : List (Text × Text)) :
    collect lower shape (texts.map (fun text => (name, text)) ++ params)
        (args ++ [(name, value)]) =
      collect lower shape params (args ++ [(name, texts.foldl (fun value text =>
        if name = [] then .string text else extend value text) value)]) := by
  induction texts generalizing value with
  | nil => rfl
  | cons text texts ih =>
      have hnames : (args ++ [(name, value)]).map Prod.fst = args.map Prod.fst ++ [name] := by
        simp
      have hset : ∀ next, setArgument (args ++ [(name, value)]) name next =
          args ++ [(name, next)] := by
        intro next
        rw [setArgument_append_of_not_mem _ next hname, setArgument, if_pos rfl]
      have hlookup : lookup (args ++ [(name, value)]) name = some value := by
        rw [lookup_append_of_not_mem _ hname, lookup, if_pos rfl]
      rw [List.map_cons, List.cons_append, List.foldl_cons, collect, hnames,
        findName_of_mem hdistinct (by simp)]
      by_cases hempty : name = []
      · rw [if_pos hempty, if_pos hempty]
        dsimp only
        rw [hset, ih]
      · rw [if_neg hempty, if_neg hempty]
        dsimp only
        rw [if_pos ⟨rfl, hdeclares hempty⟩, hset, hlookup, Option.getD_some, ih]

theorem collect_groups {shape : List (Text × ZodType)} (groups : List Group)
    (args : List (Text × WireValue))
    (hdistinct : Distinct lower (args.map Prod.fst ++ groups.map Group.name))
    (hdeclares : ∀ group ∈ groups, group.rest ≠ [] → group.name ≠ [] →
      declaresArray lower shape group.name = true) :
    collect lower shape (groups.flatMap Group.params) args =
      .ok (args ++ groups.map fun group => (group.name, group.value)) := by
  induction groups generalizing args with
  | nil => simp [collect]
  | cons group groups ih =>
      have hparams : (group :: groups).flatMap Group.params = (group.name, group.first) ::
          (group.rest.map (fun text => (group.name, text)) ++ groups.flatMap Group.params) := by
        simp [Group.params]
      have hfresh : lower.toLowerCase group.name ∉
          (args.map Prod.fst).map lower.toLowerCase := by
        unfold Distinct at hdistinct
        rw [List.map_append, List.map_cons, List.map_cons, List.nodup_append] at hdistinct
        intro hmem
        exact hdistinct.2.2 _ hmem _ List.mem_cons_self rfl
      have hname : group.name ∉ args.map Prod.fst :=
        fun hmem => hfresh (List.mem_map_of_mem hmem)
      have hset : setArgument args group.name (.string group.first) =
          args ++ [(group.name, .string group.first)] := by
        have hset := setArgument_append_of_not_mem [] (.string group.first) hname
        rwa [List.append_nil] at hset
      have hnext : Distinct lower
          ((args ++ [(group.name, group.value)]).map Prod.fst ++ groups.map Group.name) := by
        simpa using hdistinct
      have hhead : Distinct lower (args.map Prod.fst ++ [group.name]) := by
        refine hdistinct.sublist (List.Sublist.map _ (List.Sublist.append_left ?_ _))
        rw [List.map_cons]
        exact List.Sublist.cons_cons _ (List.nil_sublist _)
      rw [hparams, collect, findName_of_not_mem hfresh]
      dsimp only
      rw [hset]
      have hrest : collect lower shape
          (group.rest.map (fun text => (group.name, text)) ++ groups.flatMap Group.params)
            (args ++ [(group.name, .string group.first)]) =
          collect lower shape (groups.flatMap Group.params)
            (args ++ [(group.name, group.value)]) := by
        by_cases hrest : group.rest = []
        · unfold Group.value
          rw [hrest]
          rfl
        · exact collect_rest hname hhead (hdeclares group List.mem_cons_self hrest) _ _ _
      rw [hrest, ih _ hnext fun group hgroup => hdeclares group (List.mem_cons_of_mem _ hgroup)]
      simp

/-! ### Arguments of a record -/

def FieldValue.group (name : Text) : FieldValue → Group
  | .scalar value => ⟨name, value.text, []⟩
  | .array first rest => ⟨name, first.text, rest.map Scalar.text⟩

/-- The value of a field when its texts have been collected. -/
def FieldValue.argument : FieldValue → WireValue
  | .scalar value => .string value.text
  | .array first rest => .array ((first :: rest).map fun item => .string item.text)

theorem group_name (name : Text) (value : FieldValue) : (value.group name).name = name := by
  cases value <;> rfl

theorem group_value_array {name : Text} (hname : name ≠ []) (first second : Text)
    (rest : List Text) :
    (Group.mk name first (second :: rest)).value =
      .array ((first :: second :: rest).map .string) := by
  have hfold : ∀ (texts : List Text) (items : List WireValue),
      texts.foldl (fun value text => if name = [] then .string text else extend value text)
        (.array items) = .array (items ++ texts.map .string) := by
    intro texts
    induction texts with
    | nil => simp
    | cons text texts ih =>
        intro items
        rw [List.foldl_cons, if_neg hname, extend, ih]
        simp
  unfold Group.value
  rw [List.foldl_cons, if_neg hname, extend, hfold]
  · rfl
  · simp

variable {shape : List (Text × ZodType)}

theorem mem_of_lookup {α : Type} {fields : List (Text × α)} {name : Text} {value : α}
    (h : lookup fields name = some value) : name ∈ fields.map Prod.fst := by
  by_contra hmem
  have := lookup_append_of_not_mem [] hmem
  rw [List.append_nil, h] at this
  cases this

theorem declaredType_eq {name : Text} {declared : ZodType}
    (hdistinct : Distinct lower (shape.map Prod.fst)) (hname : name ≠ [])
    (h : lookup shape name = some declared) : declaredType lower shape name = some declared := by
  unfold declaredType
  rw [findName_of_mem hdistinct (mem_of_lookup h), if_neg hname, Option.bind_some, h]

theorem exists_element_of_fits {first : Scalar} {rest : List Scalar} {declared : ZodType}
    (h : (FieldValue.array first rest).Fits declared) :
    ∃ element, unwrap declared = .array element ∧
      ∀ item ∈ first :: rest, item.Fits (unwrap element) := by
  unfold FieldValue.Fits at h
  generalize unwrap declared = unwrapped at h
  cases unwrapped with
  | array element => exact ⟨element, rfl, h⟩
  | _ => exact h.elim

theorem not_array_of_fits {value : Scalar} {declared : ZodType}
    (h : (FieldValue.scalar value).Fits declared) (element : ZodType) :
    unwrap declared ≠ .array element := by
  intro hunwrap
  unfold FieldValue.Fits at h
  rw [hunwrap] at h
  cases value <;> exact h

theorem declaresArray_scalar {name : Text} {declared : ZodType} {value : Scalar}
    (hdistinct : Distinct lower (shape.map Prod.fst)) (hname : name ≠ [])
    (h : lookup shape name = some declared) (hfits : (FieldValue.scalar value).Fits declared) :
    declaresArray lower shape name = false := by
  have hnot := not_array_of_fits hfits
  unfold declaresArray
  rw [declaredType_eq hdistinct hname h, Option.map_some]
  split
  · rename_i element heq
    exact absurd (Option.some.inj heq) (hnot element)
  · rfl

theorem declaresArray_array {name : Text} {declared : ZodType} {first : Scalar}
    {rest : List Scalar} (hdistinct : Distinct lower (shape.map Prod.fst)) (hname : name ≠ [])
    (h : lookup shape name = some declared)
    (hfits : (FieldValue.array first rest).Fits declared) :
    declaresArray lower shape name = true := by
  obtain ⟨element, hunwrap, -⟩ := exists_element_of_fits hfits
  unfold declaresArray
  rw [declaredType_eq hdistinct hname h, Option.map_some, hunwrap]

theorem wrapArray_string (name text : Text) :
    wrapArray lower shape (name, .string text) =
      (name, if declaresArray lower shape name then .array [.string text] else .string text) :=
  rfl

theorem wrapArray_group {name : Text} {declared : ZodType} {value : FieldValue}
    (hdistinct : Distinct lower (shape.map Prod.fst)) (hname : name ≠ [])
    (h : lookup shape name = some declared) (hfits : value.Fits declared) :
    wrapArray lower shape (name, (value.group name).value) = (name, value.argument) := by
  cases value with
  | scalar value =>
      have hvalue : ((FieldValue.scalar value).group name).value = .string value.text := rfl
      rw [hvalue, wrapArray_string, declaresArray_scalar hdistinct hname h hfits]
      rfl
  | array first rest =>
      cases rest with
      | nil =>
          have hvalue : ((FieldValue.array first []).group name).value = .string first.text := rfl
          rw [hvalue, wrapArray_string, declaresArray_array hdistinct hname h hfits]
          rfl
      | cons second rest =>
          have hvalue : ((FieldValue.array first (second :: rest)).group name).value = _ :=
            group_value_array hname first.text second.text (rest.map Scalar.text)
          rw [hvalue, wrapArray]
          simp [FieldValue.argument]

/-! ### Reserved arguments -/

/-- An argument that may be missing. -/
def optionalArg (name : String) (value : Option WireValue) : List (Text × WireValue) :=
  value.toList.map fun value => (name.toList, value)

theorem reserved_optionalArg {name : String} (hname : name.toList ≠ [])
    (front back : List (Text × WireValue))
    (h : ∀ arg ∈ front ++ back, lower.toLowerCase arg.1 ≠ lower.toLowerCase name.toList)
    (value : Option WireValue) :
    reserved lower name (front ++ (optionalArg name value ++ back)) = (value, front ++ back) := by
  have hkeys : ∀ arg ∈ front ++ back, arg.1 ≠ name.toList := by
    intro arg harg heq
    exact h arg harg (by rw [heq])
  unfold reserved
  cases value with
  | none =>
      rw [findName_of_not_mem]
      · simp [optionalArg]
      · simp only [List.mem_map, not_exists, not_and]
        rintro key ⟨arg, harg, rfl⟩
        exact h arg (by simpa [optionalArg] using harg)
  | some value =>
      have hfind : findName lower ((front ++ (optionalArg name (some value) ++ back)).map Prod.fst)
          name.toList = some name.toList := by
        unfold findName
        rw [List.map_append, List.find?_append]
        have hnone : ((front.map Prod.fst).find? fun other =>
            decide (lower.toLowerCase other = lower.toLowerCase name.toList)) = none := by
          rw [List.find?_eq_none]
          intro other hother
          obtain ⟨arg, harg, rfl⟩ := List.mem_map.1 hother
          simpa using h arg (List.mem_append_left _ harg)
        rw [hnone]
        simp [optionalArg, hname, Option.filter]
      have hfront : name.toList ∉ front.map Prod.fst := by
        intro hmem
        obtain ⟨arg, harg, heq⟩ := List.mem_map.1 hmem
        exact hkeys arg (List.mem_append_left _ harg) heq
      have hfilter : ∀ args : List (Text × WireValue), (∀ arg ∈ args, arg.1 ≠ name.toList) →
          (args.filter fun arg => decide (arg.1 ≠ name.toList)) = args := by
        intro args hargs
        exact List.filter_eq_self.2 fun arg harg => decide_eq_true (hargs arg harg)
      rw [hfind]
      dsimp only
      rw [lookup_append_of_not_mem _ hfront, List.filter_append, List.filter_append,
        hfilter front fun arg harg => hkeys arg (List.mem_append_left _ harg),
        hfilter back fun arg harg => hkeys arg (List.mem_append_right _ harg)]
      simp [optionalArg, lookup]

theorem reserved_of_not_mem {name : String} (hname : name.toList ≠ [])
    {args : List (Text × WireValue)}
    (h : ∀ arg ∈ args, lower.toLowerCase arg.1 ≠ lower.toLowerCase name.toList) :
    reserved lower name args = (none, args) := by
  have hreserved := reserved_optionalArg hname args [] (by simpa using h) none
  simpa [optionalArg] using hreserved

theorem toLowerCase_reserved {name : String} {isObservable : Bool}
    (h : name ∈ reservedNames isObservable) :
    lower.toLowerCase name.toList = name.toList.map Char.toLower := by
  refine lower.ascii _ ?_
  have hmem : name ∈ reservedNames true := by
    cases isObservable with
    | true => exact h
    | false => exact List.mem_append_left _ (by simpa [reservedNames] using h)
  have hall : (name.toList.all fun c => c.toNat < 128) = true := by
    simp only [reservedNames, if_true, List.cons_append, List.nil_append, List.mem_cons,
      List.not_mem_nil, or_false] at hmem
    rcases hmem with rfl | rfl | rfl | rfl | rfl | rfl <;> rfl
  intro c hc
  exact of_decide_eq_true (List.all_eq_true.1 hall c hc)

theorem optionalArg_differs {name other : String} (hname : name ∈ reservedNames isObservable)
    (hother : other ∈ reservedNames isObservable)
    (hne : other.toList.map Char.toLower ≠ name.toList.map Char.toLower)
    (value : Option WireValue) :
    ∀ arg ∈ optionalArg other value, lower.toLowerCase arg.1 ≠ lower.toLowerCase name.toList := by
  intro arg harg
  obtain ⟨value, -, rfl⟩ := List.mem_map.1 harg
  rwa [toLowerCase_reserved hname, toLowerCase_reserved hother]

theorem takeReserved_eq {args : List (Text × WireValue)}
    (h : ∀ arg ∈ args, ∀ name ∈ reservedNames isObservable,
      lower.toLowerCase arg.1 ≠ lower.toLowerCase name.toList)
    (page pageSize field direction : Option WireValue) :
    takeReserved lower isObservable (args ++ (optionalArg "page" page ++
      (optionalArg "pageSize" pageSize ++ (optionalArg "sortBy" field ++
        optionalArg "sortDirection" direction)))) =
      ⟨page, pageSize, field, direction, args⟩ := by
  have hmem : ∀ name ∈ ["page", "pageSize", "sortBy", "sortDirection"],
      name ∈ reservedNames isObservable := fun name hname => List.mem_append_left _ hname
  have hargs : ∀ name ∈ ["page", "pageSize", "sortBy", "sortDirection"], ∀ arg ∈ args,
      lower.toLowerCase arg.1 ≠ lower.toLowerCase name.toList :=
    fun name hname arg harg => h arg harg name (hmem name hname)
  have hpage : reserved lower "page" _ = _ := reserved_optionalArg (by decide) args
    (optionalArg "pageSize" pageSize ++ (optionalArg "sortBy" field ++
      optionalArg "sortDirection" direction)) (by
      simp only [List.forall_mem_append]
      refine ⟨hargs _ (by decide), ?_, ?_, ?_⟩ <;>
        exact optionalArg_differs (hmem _ (by decide)) (hmem _ (by decide)) (by decide) _) page
  have hpageSize : reserved lower "pageSize" _ = _ := reserved_optionalArg (by decide) args
    (optionalArg "sortBy" field ++ optionalArg "sortDirection" direction) (by
      simp only [List.forall_mem_append]
      refine ⟨hargs _ (by decide), ?_, ?_⟩ <;>
        exact optionalArg_differs (hmem _ (by decide)) (hmem _ (by decide)) (by decide) _) pageSize
  have hfield : reserved lower "sortBy" _ = _ := reserved_optionalArg (by decide) args
    (optionalArg "sortDirection" direction) (by
      simp only [List.forall_mem_append]
      refine ⟨hargs _ (by decide), ?_⟩
      exact optionalArg_differs (hmem _ (by decide)) (hmem _ (by decide)) (by decide) _) field
  have hdirection : reserved lower "sortDirection" _ = _ := reserved_optionalArg (by decide) args []
    (by simpa using hargs "sortDirection" (by decide)) direction
  rw [List.append_nil, List.append_nil] at hdirection
  have hobservable : (if isObservable then
      (reserved lower "waitForFirstResultTimeout"
        (reserved lower "waitForFirstResult" args).2).2 else args) = args := by
    cases isObservable with
    | false => rfl
    | true =>
        rw [if_pos rfl, reserved_of_not_mem (by decide) fun arg harg => h arg harg _ (by decide)]
        dsimp only
        rw [reserved_of_not_mem (by decide) fun arg harg => h arg harg _ (by decide)]
  unfold takeReserved
  rw [hpage]
  dsimp only
  rw [hpageSize]
  dsimp only
  rw [hfield]
  dsimp only
  rw [hdirection]
  dsimp only
  rw [hobservable]

/-! ### Binding -/

/-- A value that is read from its text. -/
def Scalar.Plain : Scalar → Prop
  | .number value => 'e' ∉ value.text
  | _ => True

instance (value : Scalar) : Decidable value.Plain := by
  cases value <;> unfold Scalar.Plain <;> infer_instance

theorem text_ne_nil (x : Double) : x.text ≠ [] := by
  intro hnil
  have hread := decimalNumber_text x
  rw [hnil, if_neg (by simp)] at hread
  cases hread

theorem coerce_text {value : Scalar} {schema : ZodType} (h : value.Fits (unwrap schema)) :
    coerce value.text schema =
      if value.Plain then .ok value.wire else .error .badRequest := by
  unfold coerce
  generalize unwrap schema = declared at h
  cases value with
  | string text => cases declared <;> first | exact h.elim | rfl
  | boolean value =>
      cases declared with
      | boolean => cases value <;> rfl
      | _ => exact h.elim
  | number value =>
      cases declared with
      | number =>
          have hread := decimalNumber_text value
          by_cases hplain : 'e' ∈ value.text
          · rw [if_pos hplain] at hread
            rw [if_neg (show ¬ Scalar.Plain (.number value) from not_not.2 hplain)]
            simp [Scalar.text, hread]
          · rw [if_neg hplain] at hread
            rw [if_pos (show Scalar.Plain (.number value) from hplain)]
            dsimp only [Scalar.text]
            rw [hread]
            rfl
      | _ => exact h.elim

theorem coerceEntries_texts {element : ZodType} {values : List Scalar}
    (h : ∀ value ∈ values, value.Fits (unwrap element)) :
    (values.map fun value => WireValue.string value.text).mapM (coerceEntry element) =
      if ∀ value ∈ values, value.Plain then .ok (values.map Scalar.wire)
      else .error .badRequest := by
  induction values with
  | nil => rfl
  | cons value values ih =>
      rw [List.forall_mem_cons] at h
      rw [List.map_cons, List.mapM_cons, ih h.2, coerceEntry, coerce_text h.1]
      by_cases hvalue : value.Plain
      · by_cases hvalues : ∀ value ∈ values, value.Plain
        · rw [if_pos hvalue, if_pos hvalues, if_pos (List.forall_mem_cons.2 ⟨hvalue, hvalues⟩)]
          rfl
        · rw [if_pos hvalue, if_neg hvalues,
            if_neg fun hall => hvalues (List.forall_mem_cons.1 hall).2]
          rfl
      · rw [if_neg hvalue, if_neg fun hall => hvalue (List.forall_mem_cons.1 hall).1]
        rfl

theorem leavesOut_text {value : Scalar} {declared : ZodType}
    (h : value.Fits (unwrap declared)) : leavesOut (.string value.text) declared = false := by
  cases htext : value.text with
  | cons first rest => rfl
  | nil =>
      have hstring : value = .string [] := by
        cases value with
        | string text => exact congrArg Scalar.string htext
        | number value => exact absurd htext (text_ne_nil value)
        | boolean value => cases value <;> cases htext
      rw [hstring] at h
      cases declared with
      | optional inner =>
          have hinner : Scalar.Fits (.string []) (unwrap inner) := h
          unfold leavesOut
          dsimp only
          generalize unwrap inner = unwrapped at hinner
          cases unwrapped with
          | string accepts =>
              have haccepts : accepts [] = true := hinner
              dsimp only
              rw [haccepts]
              rfl
          | _ => exact hinner.elim
      | _ => rfl

theorem boundValue_argument {value : FieldValue} {declared : ZodType} (h : value.Fits declared) :
    boundValue true declared value.argument =
      if ∀ item ∈ value.scalars, item.Plain then .ok (some value.wire)
      else .error .badRequest := by
  cases value with
  | scalar value =>
      have hfits : value.Fits (unwrap declared) := h
      have hscalars : (∀ item ∈ (FieldValue.scalar value).scalars, item.Plain) ↔ value.Plain := by
        simp [FieldValue.scalars]
      have hbound : boundValue true declared (FieldValue.scalar value).argument =
          (coerce value.text declared).map some := by
        unfold boundValue FieldValue.argument
        dsimp only
        rw [leavesOut_text hfits]
        rfl
      rw [hbound, coerce_text hfits]
      by_cases hplain : value.Plain
      · rw [if_pos hplain, if_pos (hscalars.2 hplain)]
        rfl
      · rw [if_neg hplain, if_neg fun hall => hplain (hscalars.1 hall)]
        rfl
  | array first rest =>
      obtain ⟨element, hunwrap, hitems⟩ := exists_element_of_fits h
      have hbound : boundValue true declared (FieldValue.array first rest).argument =
          (((first :: rest).map fun item => WireValue.string item.text).mapM
            (coerceEntry element)).map fun items => some (.array items) := by
        unfold boundValue FieldValue.argument
        rw [hunwrap]
        rfl
      rw [hbound, coerceEntries_texts hitems]
      by_cases hplain : ∀ item ∈ first :: rest, item.Plain
      · rw [if_pos hplain, if_pos (show ∀ item ∈ (FieldValue.array first rest).scalars,
          item.Plain from hplain)]
        rfl
      · rw [if_neg hplain, if_neg (show ¬ ∀ item ∈ (FieldValue.array first rest).scalars,
          item.Plain from hplain)]
        rfl

theorem bind_cons {isGet : Bool} {name : Text} {declared : ZodType} {value : WireValue}
    {values result : List (Text × WireValue)} {seen : List Text}
    (hdistinct : Distinct lower (shape.map Prod.fst)) (hname : name ≠ [])
    (hseen : name ∉ seen) (hlookup : lookup shape name = some declared)
    (hnull : isNull value = false) :
    bind lower shape isGet ((name, value) :: values) seen result =
      match boundValue isGet declared value with
      | .error error => .error error
      | .ok none => bind lower shape isGet values (name :: seen) result
      | .ok (some value) =>
          bind lower shape isGet values (name :: seen) (result ++ [(name, value)]) := by
  rw [bind, findName_of_mem hdistinct (mem_of_lookup hlookup), if_neg hname]
  dsimp only
  rw [if_neg (by simp [hseen, hnull]), hlookup, Option.map_some]
  rcases boundValue isGet declared value with error | _ | value <;> rfl

theorem bind_empty_name {isGet : Bool} {value : WireValue}
    {values result : List (Text × WireValue)} {seen : List Text}
    (hdistinct : Distinct lower (shape.map Prod.fst)) (hmem : [] ∈ shape.map Prod.fst) :
    bind lower shape isGet (([], value) :: values) seen result = .error .badRequest := by
  rw [bind, findName_of_mem hdistinct hmem, if_pos rfl]

/-- The fields of a record: different ones, of declared types. -/
structure Fields (shape : List (Text × ZodType)) (seen : List Text)
    (fields : List (Text × FieldValue)) : Prop where
  nodup : (fields.map Prod.fst).Nodup
  fresh : ∀ field ∈ fields, field.1 ∉ seen
  fits : ∀ field ∈ fields, ∃ declared, lookup shape field.1 = some declared ∧
    field.2.Fits declared

theorem Fields.tail {seen : List Text} {field : Text × FieldValue}
    {fields : List (Text × FieldValue)} (h : Fields shape seen (field :: fields)) :
    Fields shape (field.1 :: seen) fields := by
  obtain ⟨hhead, hnodup⟩ := List.nodup_cons.1 h.nodup
  refine ⟨hnodup, ?_, fun other hother => h.fits other (List.mem_cons_of_mem _ hother)⟩
  intro other hother hmem
  rcases List.mem_cons.1 hmem with heq | hmem
  · exact hhead (heq ▸ List.mem_map_of_mem hother)
  · exact h.fresh other (List.mem_cons_of_mem _ hother) hmem

theorem isNull_wire (value : FieldValue) : isNull value.wire = false := by
  cases value with
  | scalar value => cases value <;> rfl
  | array first rest => rfl

theorem isNull_argument (value : FieldValue) : isNull value.argument = false := by
  cases value <;> rfl

/-- The values of a body are bound as they are. -/
def hasEmptyName (fields : List (Text × FieldValue)) : Bool :=
  fields.any fun field => field.1.isEmpty

theorem hasEmptyName_iff {fields : List (Text × FieldValue)} :
    hasEmptyName fields = true ↔ [] ∈ fields.map Prod.fst := by
  unfold hasEmptyName
  rw [List.any_eq_true, List.mem_map]
  simp only [List.isEmpty_iff]

theorem hasEmptyName_cons {name : Text} (hname : name ≠ []) (value : FieldValue)
    (fields : List (Text × FieldValue)) :
    hasEmptyName ((name, value) :: fields) = hasEmptyName fields := by
  have hempty : name.isEmpty = false := List.isEmpty_eq_false_iff.2 hname
  unfold hasEmptyName
  rw [List.any_cons, hempty, Bool.false_or]

theorem bind_body (hdistinct : Distinct lower (shape.map Prod.fst))
    {fields : List (Text × FieldValue)} {seen : List Text} {result : List (Text × WireValue)}
    (h : Fields shape seen fields) :
    bind lower shape false (fields.map fun field => (field.1, field.2.wire)) seen result =
      if hasEmptyName fields then .error .badRequest
      else .ok (result ++ fields.map fun field => (field.1, field.2.wire)) := by
  induction fields generalizing seen result with
  | nil => simp [bind, hasEmptyName]
  | cons field fields ih =>
      obtain ⟨declared, hlookup, hfits⟩ := h.fits field List.mem_cons_self
      obtain ⟨name, value⟩ := field
      rw [List.map_cons]
      by_cases hname : name = []
      · subst hname
        rw [bind_empty_name hdistinct (mem_of_lookup hlookup),
          if_pos (hasEmptyName_iff.2 (List.mem_map.2 ⟨_, List.mem_cons_self, rfl⟩))]
      · rw [bind_cons hdistinct hname (h.fresh _ List.mem_cons_self) hlookup (isNull_wire value)]
        have hbound : boundValue false declared value.wire = .ok (some value.wire) := rfl
        rw [hbound]
        dsimp only
        rw [ih h.tail, hasEmptyName_cons hname]
        simp only [List.map_cons, List.append_assoc, List.singleton_append]

/-- Every value of the fields is read from its text. -/
def AllPlain (fields : List (Text × FieldValue)) : Prop :=
  ∀ field ∈ fields, ∀ item ∈ field.2.scalars, item.Plain

instance (fields : List (Text × FieldValue)) : Decidable (AllPlain fields) :=
  inferInstanceAs (Decidable (∀ field ∈ fields, ∀ item ∈ field.2.scalars, item.Plain))

theorem allPlain_iff (fields : List (Text × FieldValue)) :
    AllPlain fields ↔ ∀ number ∈ numbers fields, 'e' ∉ number.text := by
  unfold AllPlain numbers
  constructor
  · intro h number hnumber
    obtain ⟨field, hfield, hmem⟩ := List.mem_flatMap.1 hnumber
    obtain ⟨item, hitem, heq⟩ := List.mem_filterMap.1 hmem
    have hplain := h field hfield item hitem
    cases item with
    | number value =>
        cases heq
        exact hplain
    | string text => cases heq
    | boolean value => cases heq
  · intro h field hfield item hitem
    cases item with
    | number value =>
        exact h value (List.mem_flatMap.2 ⟨field, hfield,
          List.mem_filterMap.2 ⟨.number value, hitem, rfl⟩⟩)
    | string text => trivial
    | boolean value => trivial

/-- The collected arguments of a query string: under the empty name anything. -/
def ArgumentOf (field : Text × FieldValue) (arg : Text × WireValue) : Prop :=
  arg.1 = field.1 ∧ (field.1 ≠ [] → arg.2 = field.2.argument)

/-- The values of a query string are read from their texts. -/
theorem bind_get (hdistinct : Distinct lower (shape.map Prod.fst))
    {fields : List (Text × FieldValue)} {args : List (Text × WireValue)}
    (hargs : List.Forall₂ ArgumentOf fields args) {seen : List Text}
    {result : List (Text × WireValue)} (h : Fields shape seen fields) :
    bind lower shape true args seen result =
      if hasEmptyName fields ∨ ¬ AllPlain fields then .error .badRequest
      else .ok (result ++ fields.map fun field => (field.1, field.2.wire)) := by
  induction hargs generalizing seen result with
  | nil => simp [bind, hasEmptyName, AllPlain]
  | @cons field arg fields args harg hargs ih =>
      obtain ⟨declared, hlookup, hfits⟩ := h.fits field List.mem_cons_self
      obtain ⟨name, value⟩ := field
      obtain ⟨key, argument⟩ := arg
      obtain ⟨rfl, hargument⟩ := harg
      by_cases hname : key = []
      · subst hname
        rw [bind_empty_name hdistinct (mem_of_lookup hlookup),
          if_pos (.inl (hasEmptyName_iff.2 (List.mem_map.2 ⟨_, List.mem_cons_self, rfl⟩)))]
      · obtain rfl : argument = value.argument := hargument hname
        rw [bind_cons hdistinct hname (h.fresh _ List.mem_cons_self) hlookup
          (isNull_argument value), boundValue_argument hfits]
        have hplain : AllPlain ((key, value) :: fields) ↔
            (∀ item ∈ value.scalars, item.Plain) ∧ AllPlain fields := List.forall_mem_cons
        by_cases hvalue : ∀ item ∈ value.scalars, item.Plain
        · rw [if_pos hvalue]
          dsimp only
          rw [ih h.tail, hasEmptyName_cons hname]
          simp only [List.map_cons, hplain.trans (and_iff_right hvalue), List.append_assoc,
            List.singleton_append]
        · rw [if_neg hvalue, if_pos (.inr fun hall => hvalue (hplain.1 hall).1)]

end Arc.Http.QueryBinding
