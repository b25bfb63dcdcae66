import Arc.Foundation.Checks
import Arc.Foundation.InsertionMap
import Arc.Foundation.Numbers

/-!
# Raw documents of protected read models

`releaseRawDocument` takes a storage document apart, refuses what the schema does not declare,
hands an instance with the stored values to the store, and puts the document together again from
what the store released. A stored value is handed over only when it is a value of JSON that is
declared at every depth (`Declared`), and none is served.

The store, the constructor of the model and the resolver of its subject are not Arc's. What a
call did is kept apart from what came of it: the instance that was handed over, if one was, and
the outcome.
-/

namespace Arc.Chronicle

/-! ### Values and schemas -/

/-- A stored value. The fields of a plain object are its own enumerable ones; what is neither a
value of JSON nor a date is an object of some class or another primitive. -/
inductive Raw
  | null
  | undefined
  | boolean (value : Bool)
  | number (value : Number)
  | string (value : String)
  | date (time : Option ℤ)
  | array (items : List Raw)
  | object (fields : List (String × Raw))
  | foreign (isObject : Bool)

/-- What a schema says of the items of an array and of the properties of an object. -/
inductive JsonSchema
  | mk (items : Option JsonSchema) (properties : Option (List (String × JsonSchema)))

def JsonSchema.items : JsonSchema → Option JsonSchema
  | mk items _ => items

def JsonSchema.properties : JsonSchema → Option (List (String × JsonSchema))
  | mk _ properties => properties

mutual

/-- Accept only JSON-safe values declared by the schema. -/
def assertReleasable : Raw → JsonSchema → String → Except String Unit
  | .null, _, _ => .ok ()
  | .undefined, _, _ => .ok ()
  | .string _, _, _ => .ok ()
  | .boolean _, _, _ => .ok ()
  | .number value, _, path =>
      if value.isFinite then .ok ()
      else .error ("Raw document value " ++ path ++ " is not a JSON value that can be released")
  | .date time, _, path =>
      if time.isSome then .ok ()
      else .error ("Raw document value " ++ path ++ " is not a JSON value that can be released")
  | .array items, schema, path =>
      match schema.items with
      | none => .error ("Raw document array " ++ path ++ " has no declared item schema")
      | some itemSchema => assertItems items itemSchema path 0
  | .foreign _, _, path =>
      .error ("Raw document value " ++ path ++ " is not a JSON value that can be released")
  | .object fields, schema, path =>
      match schema.properties with
      | none => .error ("Raw document object " ++ path ++ " has no declared properties")
      | some properties => assertFields fields properties path

def assertItems : List Raw → JsonSchema → String → ℕ → Except String Unit
  | [], _, _, _ => .ok ()
  | item :: items, schema, path, index => do
      assertReleasable item schema (path ++ "[" ++ toString index ++ "]")
      assertItems items schema path (index + 1)

def assertFields : List (String × Raw) → List (String × JsonSchema) → String → Except String Unit
  | [], _, _ => .ok ()
  | (key, item) :: fields, properties, path =>
      match properties.lookup key with
      | none => .error
          ("Raw document field " ++ path ++ "." ++ key ++ " is not declared on the read model")
      | some property => do
          assertReleasable item property (path ++ "." ++ key)
          assertFields fields properties path

end

/-- Bookkeeping the Chronicle kernel stamps onto every stored read-model document. -/
def kernelBookkeeping : List String :=
  ["__lastHandledEventSequenceNumber", "__initialized", "__subject", "__subjects"]

def isEmptySubjectMap : Raw → Bool
  | .null | .undefined => true
  | .object fields => fields.isEmpty
  | _ => false

/-! ### Releasing a document -/

/-- A model class: its name and schema, the own properties of a new instance, and the subject
that the resolver finds on an instance. -/
structure RawReadModel where
  name : String
  schema : JsonSchema
  construct : InsertionMap String Raw
  resolveFrom : InsertionMap String Raw → Except String (Option String)

/-- What the store's `release` answers: the own properties of an object, or something else. -/
abbrev ReleaseAnswer := Except String (Option (InsertionMap String Raw))

/-- The instance that was handed to `release`, and what came of the call. -/
structure RawRelease where
  handed : Option (InsertionMap String Raw)
  outcome : Except String (InsertionMap String Raw)

namespace RawReadModel

variable (model : RawReadModel)

/-- The properties the schema declares. -/
def declared : List (String × JsonSchema) := model.schema.properties.getD []

/-- A field that is kept: it is declared, or no bookkeeping. -/
def keeps (name : String) : Bool :=
  !kernelBookkeeping.contains name || (model.declared.lookup name).isSome

/-- What the check of the fields throws when an assignment to `__proto__` gave them a prototype;
an assignment of another value does nothing. -/
def prototypeError : Raw → Option String
  | .date _ => some "this is not a Date object."
  | .array _ | .object _ | .foreign true =>
      some ("Raw document value " ++ model.name ++ " is not a JSON value that can be released")
  | _ => none

def checkPrototype (document : InsertionMap String Raw) : Except String Unit :=
  match (document.get "__proto__").bind model.prototypeError with
  | some message => .error message
  | none => .ok ()

/-- The stored fields that are released. An assignment to `__proto__` makes no field. -/
def fields (document : InsertionMap String Raw) : InsertionMap String Raw :=
  document.filter fun name _ => name ≠ "_id" && (model.keeps name && name ≠ "__proto__")

/-- An object with the own properties of another assigned to it. -/
def assign (target : InsertionMap String Raw) : List (String × Raw) → InsertionMap String Raw
  | [] => target
  | (name, value) :: entries => assign (target.set name value) entries

/-- The instance that the stored fields make. -/
def instanceOf (document : InsertionMap String Raw) (subject : String) : InsertionMap String Raw :=
  let assigned := assign model.construct (model.fields document).entries
  if ((model.fields document).get "id").isSome then assigned
  else assigned.set "id" (.string subject)

/-- Everything that is checked before the store is asked; the answer is the instance. -/
def prepare (document : InsertionMap String Raw) (subject : String) :
    Except String (InsertionMap String Raw) :=
  let storedSubject := (document.get "__subject").getD .undefined
  let matchesStored := match storedSubject with
    | .undefined | .null => true
    | .string stored => stored = subject
    | _ => false
  if !matchesStored then
    .error ("Raw " ++ model.name ++ " document subject does not match the subject Chronicle stored")
  else if !isEmptySubjectMap ((document.get "__subjects").getD .undefined) then
    .error ("Raw " ++ model.name ++
      " documents with per-property compliance subjects (__subjects) cannot be released")
  else do
    model.checkPrototype document
    assertReleasable (.object (model.fields document).entries) model.schema model.name
    let instance' := model.instanceOf document subject
    let resolved ← model.resolveFrom instance'
    if resolved ≠ some subject then
      .error ("Raw " ++ model.name ++ " document subject does not match its declared subject")
    else .ok instance'

/-- The released values of the fields, in their order. -/
def project (released : InsertionMap String Raw) :
    List (String × Raw) → InsertionMap String Raw → Except String (InsertionMap String Raw)
  | [], result => .ok result
  | (name, _) :: fields, result =>
      match released.get name with
      | none => .error ("Chronicle did not release field " ++ model.name ++ "." ++ name)
      | some value => project released fields (result.set name value)

/-- The document again, with what was released in it. -/
def rebuild (document : InsertionMap String Raw) (answer : ReleaseAnswer) :
    Except String (InsertionMap String Raw) := do
  match ← answer with
  | none => .error ("Chronicle returned no released " ++ model.name)
  | some released =>
      let result := match document.get "_id" with
        | some key => InsertionMap.empty.set "_id" key
        | none => .empty
      model.project released (model.fields document).entries result

/-- Release one raw storage document of a protected read model for an explicit subject. `none` is
a document that is no plain object. -/
def releaseRawDocument (document : Option (InsertionMap String Raw)) (subject : String)
    (release : InsertionMap String Raw → ReleaseAnswer) : RawRelease :=
  match document with
  | none => ⟨none, .error ("Raw " ++ model.name ++ " document must be a plain object")⟩
  | some document =>
      match model.prepare document subject with
      | .error message => ⟨none, .error message⟩
      | .ok instance' => ⟨some instance', model.rebuild document (release instance')⟩

end RawReadModel

/-! ### What may be handed over -/

/-- A value of JSON, or a date, that the schema declares at every depth. -/
inductive Declared : JsonSchema → Raw → Prop
  | null (schema : JsonSchema) : Declared schema .null
  | undefined (schema : JsonSchema) : Declared schema .undefined
  | boolean (schema : JsonSchema) (value : Bool) : Declared schema (.boolean value)
  | number (schema : JsonSchema) (value : Number) (h : value.isFinite = true) :
      Declared schema (.number value)
  | string (schema : JsonSchema) (value : String) : Declared schema (.string value)
  | date (schema : JsonSchema) (time : ℤ) : Declared schema (.date (some time))
  | array (schema itemSchema : JsonSchema) (items : List Raw) (hitems : schema.items = some itemSchema)
      (h : ∀ item ∈ items, Declared itemSchema item) : Declared schema (.array items)
  | object (schema : JsonSchema) (properties : List (String × JsonSchema))
      (fields : List (String × Raw)) (hproperties : schema.properties = some properties)
      (hnames : ∀ key item, (key, item) ∈ fields → ∃ property, properties.lookup key = some property)
      (h : ∀ key item property, (key, item) ∈ fields → properties.lookup key = some property →
        Declared property item) :
      Declared schema (.object fields)

mutual

theorem declared_of_assertReleasable {value : Raw} {schema : JsonSchema} {path : String}
    (h : assertReleasable value schema path = .ok ()) : Declared schema value := by
  match value with
  | .null => exact .null schema
  | .undefined => exact .undefined schema
  | .boolean value => exact .boolean schema value
  | .string value => exact .string schema value
  | .number value =>
      unfold assertReleasable at h
      split_ifs at h with hfinite
      exact .number schema value hfinite
  | .date none => simp [assertReleasable] at h
  | .date (some time) => exact .date schema time
  | .foreign isObject => simp [assertReleasable] at h
  | .array items =>
      unfold assertReleasable at h
      cases hitems : schema.items with
      | none => simp [hitems] at h
      | some itemSchema =>
          rw [hitems] at h
          exact .array schema itemSchema items hitems (declared_of_assertItems h)
  | .object fields =>
      unfold assertReleasable at h
      cases hproperties : schema.properties with
      | none => simp [hproperties] at h
      | some properties =>
          rw [hproperties] at h
          refine .object schema properties fields hproperties (fun key item hmem => ?_)
            fun key item property hmem hproperty => ?_
          · obtain ⟨property, hproperty, -⟩ := declared_of_assertFields h key item hmem
            exact ⟨property, hproperty⟩
          · obtain ⟨property', hproperty', hdeclared⟩ := declared_of_assertFields h key item hmem
            obtain rfl : property = property' := Option.some.inj (hproperty.symm.trans hproperty')
            exact hdeclared

theorem declared_of_assertItems {items : List Raw} {schema : JsonSchema} {path : String} {index : ℕ}
    (h : assertItems items schema path index = .ok ()) : ∀ item ∈ items, Declared schema item := by
  match items with
  | [] => simp
  | item :: items =>
      unfold assertItems at h
      obtain ⟨hfirst, hrest⟩ := Except.bind_unit_eq_ok.1 h
      exact List.forall_mem_cons.2
        ⟨declared_of_assertReleasable hfirst, declared_of_assertItems hrest⟩

theorem declared_of_assertFields {fields : List (String × Raw)}
    {properties : List (String × JsonSchema)} {path : String}
    (h : assertFields fields properties path = .ok ()) : ∀ key item, (key, item) ∈ fields →
      ∃ property, properties.lookup key = some property ∧ Declared property item := by
  match fields with
  | [] => simp
  | (key, item) :: fields =>
      unfold assertFields at h
      cases hproperty : properties.lookup key with
      | none => simp [hproperty] at h
      | some property =>
          rw [hproperty] at h
          obtain ⟨hfirst, hrest⟩ := Except.bind_unit_eq_ok.1 h
          intro key' item' hmem
          rcases List.mem_cons.1 hmem with heq | hmem
          · cases heq
            exact ⟨property, hproperty, declared_of_assertReleasable hfirst⟩
          · exact declared_of_assertFields hrest key' item' hmem

end

namespace RawReadModel

variable {model : RawReadModel} {document : InsertionMap String Raw} {subject : String}
  {release : InsertionMap String Raw → ReleaseAnswer}

theorem get_fields {name : String} {value : Raw} :
    (model.fields document).get name = some value ↔ document.get name = some value ∧
      name ≠ "_id" ∧ model.keeps name = true ∧ name ≠ "__proto__" := by
  unfold fields
  rw [InsertionMap.get_filter, Option.filter_eq_some_iff]
  simp

/-- What was there keeps its value unless it is assigned. -/
theorem get_assign (target : InsertionMap String Raw) (entries : List (String × Raw))
    (hnodup : (entries.map Prod.fst).Nodup) {name : String} {value : Raw}
    (h : (assign target entries).get name = some value) :
    (name, value) ∈ entries ∨ name ∉ entries.map Prod.fst ∧ target.get name = some value := by
  induction entries generalizing target with
  | nil => exact .inr ⟨List.not_mem_nil, h⟩
  | cons entry entries ih =>
      obtain ⟨first, firstValue⟩ := entry
      rw [List.map_cons, List.nodup_cons] at hnodup
      rcases ih (target.set first firstValue) hnodup.2 h with hmem | ⟨hnot, hget⟩
      · exact .inl (List.mem_cons_of_mem _ hmem)
      · by_cases hname : name = first
        · subst hname
          rw [InsertionMap.get_set_self] at hget
          obtain rfl := Option.some.inj hget
          exact .inl List.mem_cons_self
        · rw [InsertionMap.get_set_of_ne _ _ hname] at hget
          refine .inr ⟨?_, hget⟩
          rw [List.map_cons, List.mem_cons, not_or]
          exact ⟨hname, hnot⟩

/-- What an instance that is handed over consists of. -/
theorem get_instanceOf {name : String} {value : Raw}
    (h : (model.instanceOf document subject).get name = some value) :
    (model.fields document).get name = some value ∨
      (model.fields document).get name = none ∧
        (name = "id" ∧ value = .string subject ∨ model.construct.get name = some value) := by
  have hassigned : ∀ {value}, (assign model.construct (model.fields document).entries).get name =
      some value → (model.fields document).get name = some value ∨
        (model.fields document).get name = none ∧ model.construct.get name = some value := by
    intro value hget
    rcases get_assign _ _ (model.fields document).nodup_keys hget with hmem | ⟨hnot, hget⟩
    · exact .inl (InsertionMap.get_eq_some_iff.2 hmem)
    · exact .inr ⟨InsertionMap.get_eq_none_iff.2 hnot, hget⟩
  unfold instanceOf at h
  dsimp only at h
  split_ifs at h with hid
  · rcases hassigned h with hfield | ⟨hnone, hget⟩
    · exact .inl hfield
    · exact .inr ⟨hnone, .inr hget⟩
  · by_cases hname : name = "id"
    · subst hname
      rw [InsertionMap.get_set_self] at h
      refine .inr ⟨by simpa using hid, .inl ⟨rfl, (Option.some.inj h).symm⟩⟩
    · rw [InsertionMap.get_set_of_ne _ _ hname] at h
      rcases hassigned h with hfield | ⟨hnone, hget⟩
      · exact .inl hfield
      · exact .inr ⟨hnone, .inr hget⟩

/-- What has been checked when an instance is handed over. -/
structure Prepared (model : RawReadModel) (document : InsertionMap String Raw) (subject : String)
    (handed : InsertionMap String Raw) : Prop where
  made : handed = model.instanceOf document subject
  stored : ∀ value, document.get "__subject" = some value →
    value = .undefined ∨ value = .null ∨ value = .string subject
  perProperty : ∀ value, document.get "__subjects" = some value → isEmptySubjectMap value = true
  fields : Declared model.schema (.object (model.fields document).entries)
  resolved : model.resolveFrom handed = .ok (some subject)

theorem prepared_of_prepare {handed : InsertionMap String Raw}
    (h : model.prepare document subject = .ok handed) :
    Prepared model document subject handed := by
  unfold prepare at h
  dsimp only at h
  split_ifs at h with hstored hperProperty
  obtain ⟨-, h⟩ := Except.bind_unit_eq_ok.1 h
  obtain ⟨hfields, h⟩ := Except.bind_unit_eq_ok.1 h
  obtain ⟨resolved, hresolved, h⟩ := Except.bind_eq_ok.1 h
  split_ifs at h with hsame
  obtain rfl := Except.ok.inj h
  rw [not_not] at hsame
  constructor
  case made => rfl
  case stored =>
    intro value hget
    rw [hget, Option.getD_some] at hstored
    cases value <;> simp_all
  case perProperty =>
    intro value hget
    rw [hget, Option.getD_some] at hperProperty
    simpa using hperProperty
  case fields => exact declared_of_assertReleasable hfields
  case resolved => rw [hresolved, hsame]

theorem get_project {released : InsertionMap String Raw} {fields : List (String × Raw)}
    {result projected : InsertionMap String Raw}
    (h : model.project released fields result = .ok projected) (name : String) :
    (name ∈ fields.map Prod.fst → projected.get name = released.get name ∧
        (released.get name).isSome) ∧
      (name ∉ fields.map Prod.fst → projected.get name = result.get name) := by
  induction fields generalizing result with
  | nil =>
      obtain rfl := Except.ok.inj h
      simp
  | cons field fields ih =>
      obtain ⟨first, firstValue⟩ := field
      unfold project at h
      cases hreleased : released.get first with
      | none => simp [hreleased] at h
      | some value =>
          rw [hreleased] at h
          obtain ⟨hmem, hnot⟩ := ih h
          constructor
          · intro hname
            by_cases hrest : name ∈ fields.map Prod.fst
            · exact hmem hrest
            · obtain rfl : name = first := by simpa [hrest] using hname
              rw [hnot hrest, InsertionMap.get_set_self, hreleased]
              exact ⟨rfl, rfl⟩
          · intro hname
            rw [List.map_cons, List.mem_cons, not_or] at hname
            rw [hnot hname.2, InsertionMap.get_set_of_ne _ _ hname.1]

/-- The document that is served: its own `_id`, and the released values of its fields. -/
theorem get_rebuild {answer : ReleaseAnswer} {result : InsertionMap String Raw}
    (h : model.rebuild document answer = .ok result) :
    ∃ released, answer = .ok (some released) ∧ result.get "_id" = document.get "_id" ∧
      ∀ name ≠ "_id", (name ∈ result.keys ↔ name ∈ (model.fields document).keys) ∧
        (name ∈ result.keys → result.get name = released.get name) := by
  obtain ⟨found, hanswer, h⟩ := Except.bind_eq_ok.1 h
  cases found with
  | none => cases h
  | some released =>
      refine ⟨released, hanswer, ?_, fun name hname => ?_⟩
      · have hid : "_id" ∉ (model.fields document).entries.map Prod.fst := by
          intro hmem
          obtain ⟨value, hget⟩ := InsertionMap.mem_keys_iff.1 hmem
          exact (get_fields.1 hget).2.1 rfl
        rw [(get_project h "_id").2 hid]
        cases hkey : document.get "_id" with
        | none => simp
        | some key => simp
      · have hstart : InsertionMap.get (match document.get "_id" with
            | some key => InsertionMap.empty.set "_id" key
            | none => .empty) name = (none : Option Raw) := by
          cases hkey : document.get "_id" with
          | none => simp
          | some key =>
              dsimp only
              rw [InsertionMap.get_set_of_ne _ _ hname]
              simp
        by_cases hfield : name ∈ (model.fields document).keys
        · obtain ⟨hget, hsome⟩ := (get_project h name).1 hfield
          obtain ⟨value, hvalue⟩ := Option.isSome_iff_exists.1 hsome
          refine ⟨iff_of_true ?_ hfield, fun _ => hget⟩
          exact InsertionMap.mem_keys_iff.2 ⟨value, hget.trans hvalue⟩
        · have hnone : name ∉ result.keys :=
            InsertionMap.get_eq_none_iff.1 (((get_project h name).2 hfield).trans hstart)
          exact ⟨iff_of_false hnone hfield, fun hmem => absurd hmem hnone⟩

/-! ### The law -/

/-- What a call with a plain document hands over, and what it returns. -/
structure Law (model : RawReadModel) (document : InsertionMap String Raw) (subject : String)
    (release : InsertionMap String Raw → ReleaseAnswer) (call : RawRelease) : Prop where
  /-- A value that is handed over is a declared one of the document, or stands where the document
  has no field: the subject, or what the constructor put there. -/
  handed : ∀ handed, call.handed = some handed → ∀ name value, handed.get name = some value →
    (document.get name = some value ∧ ∃ property, model.declared.lookup name = some property ∧
        Declared property value) ∨
      (model.fields document).get name = none ∧
        (name = "id" ∧ value = .string subject ∨ model.construct.get name = some value)
  /-- Nothing is handed over, or returned, when a subject differs or there are several. -/
  subjects : ∀ handed, call.handed = some handed →
    (∀ value, document.get "__subject" = some value →
      value = .undefined ∨ value = .null ∨ value = .string subject) ∧
    (∀ value, document.get "__subjects" = some value → isEmptySubjectMap value = true) ∧
    model.resolveFrom handed = .ok (some subject)
  /-- The own keys of what is returned. -/
  keys : ∀ result, call.outcome = .ok result → ∀ name, name ∈ result.keys ↔
    name ∈ document.keys ∧ (name = "_id" ∨ model.keeps name = true)
  declared : ∀ result, call.outcome = .ok result → ∀ name ∈ result.keys, name ≠ "_id" →
    ∃ property, model.declared.lookup name = some property
  /-- Its values are what was released for the instance that was handed over. -/
  values : ∀ result, call.outcome = .ok result → result.get "_id" = document.get "_id" ∧
    ∃ handed released, call.handed = some handed ∧ release handed = .ok (some released) ∧
      ∀ name ∈ result.keys, name ≠ "_id" → result.get name = released.get name

theorem releaseRawDocument_law (model : RawReadModel) (document : InsertionMap String Raw)
    (subject : String) (release : InsertionMap String Raw → ReleaseAnswer)
    (hproto : "__proto__" ∉ document.keys) :
    Law model document subject release
      (model.releaseRawDocument (some document) subject release) := by
  unfold releaseRawDocument
  dsimp only
  cases hprepare : model.prepare document subject with
  | error message => constructor <;> simp
  | ok handed =>
      have hprepared := prepared_of_prepare hprepare
      have hdeclared : ∀ name value, (model.fields document).get name = some value →
          ∃ property, model.declared.lookup name = some property ∧ Declared property value := by
        intro name value hget
        cases hprepared.fields with
        | object _ properties _ hproperties hnames hall =>
            have hmem := InsertionMap.get_eq_some_iff.1 hget
            obtain ⟨property, hproperty⟩ := hnames name value hmem
            rw [RawReadModel.declared, hproperties, Option.getD_some]
            exact ⟨property, hproperty, hall name value property hmem hproperty⟩
      have hfields : ∀ name ≠ "_id", name ∈ (model.fields document).keys ↔
          name ∈ document.keys ∧ model.keeps name = true := by
        intro name hname
        rw [InsertionMap.mem_keys_iff, InsertionMap.mem_keys_iff]
        constructor
        · rintro ⟨value, hget⟩
          obtain ⟨hdocument, -, hkeeps, -⟩ := get_fields.1 hget
          exact ⟨⟨value, hdocument⟩, hkeeps⟩
        · rintro ⟨⟨value, hget⟩, hkeeps⟩
          refine ⟨value, get_fields.2 ⟨hget, hname, hkeeps, ?_⟩⟩
          rintro rfl
          exact hproto (InsertionMap.mem_keys_iff.2 ⟨value, hget⟩)
      constructor
      case handed =>
        rintro handed' ⟨⟩ name value hget
        rw [hprepared.made] at hget
        rcases get_instanceOf hget with hfield | hother
        · exact .inl ⟨(get_fields.1 hfield).1, hdeclared name value hfield⟩
        · exact .inr hother
      case subjects =>
        rintro handed' ⟨⟩
        exact ⟨hprepared.stored, hprepared.perProperty, hprepared.resolved⟩
      case keys =>
        intro result hresult name
        obtain ⟨released, -, hid, hall⟩ := get_rebuild hresult
        by_cases hname : name = "_id"
        · subst hname
          rw [InsertionMap.mem_keys_iff, hid, ← InsertionMap.mem_keys_iff]
          simp
        · rw [(hall name hname).1, hfields name hname]
          simp [hname]
      case declared =>
        intro result hresult name hmem hname
        obtain ⟨released, -, -, hall⟩ := get_rebuild hresult
        obtain ⟨value, hget⟩ := InsertionMap.mem_keys_iff.1 (((hall name hname).1).1 hmem)
        obtain ⟨property, hproperty, -⟩ := hdeclared name value hget
        exact ⟨property, hproperty⟩
      case values =>
        intro result hresult
        obtain ⟨released, hanswer, hid, hall⟩ := get_rebuild hresult
        exact ⟨hid, handed, released, rfl, hanswer, fun name hmem hname => (hall name hname).2 hmem⟩

/-- A model that declares a name and is known by an `id` it does not declare. -/
def account : RawReadModel where
  name := "Account"
  schema := .mk none (some [("name", .mk none none)])
  construct := .empty
  resolveFrom := fun found =>
    match found.get "id" with
    | some (.string id) => .ok (some id)
    | _ => .ok none

/-- A document of it, as the kernel stores it. -/
def accountDocument : InsertionMap String Raw :=
  ⟨[("_id", .string "subject-1"), ("name", .string "ciphertext"), ("__initialized", .boolean true)],
    by decide⟩

theorem releaseRawDocument_law_account :
    Law account accountDocument "subject-1" (fun handed => .ok (some handed))
      (account.releaseRawDocument (some accountDocument) "subject-1"
        fun handed => .ok (some handed)) :=
  releaseRawDocument_law account accountDocument "subject-1" _ (by decide)

/-- The subject is handed over under an `id` that the schema does not declare. -/
theorem account_hands_undeclared : ¬ ∀ handed,
    (account.releaseRawDocument (some accountDocument) "subject-1"
      fun handed => .ok (some handed)).handed = some handed →
        ∀ name value, handed.get name = some value →
          ∃ property, account.declared.lookup name = some property ∧ Declared property value := by
  intro h
  obtain ⟨property, hproperty, -⟩ := h _ rfl "id" (.string "subject-1") rfl
  cases hproperty

end RawReadModel

end Arc.Chronicle
