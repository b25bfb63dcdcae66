import Arc.Introspection.ClientManifest

/-!
# Parsing a parsed descriptor again

What a parser of the manifest returns is in the form it parses to: a field without its flag, the
values of an enum in order, an operation with the query name of its kind. So each parser gives
back what it returned.
-/

namespace Arc.Introspection

/-! ### Identifiers and texts -/

theorem eq_string_of_name {value : Raw} {className : Bool} {text : Text}
    (h : name value className = .ok text) : value = .string text := by
  unfold name at h
  split at h
  · split_ifs at h
    · cases h
      rfl
    · cases h
  · cases h

theorem name_again {value : Raw} {className : Bool} {text : Text}
    (h : name value className = .ok text) : name (.string text) className = .ok text := by
  rw [← eq_string_of_name h]
  exact h

theorem qualifiedId_again {value : Raw} {id : Text} (h : qualifiedId value = .ok id) :
    qualifiedId (.string id) = .ok id := by
  unfold qualifiedId at h
  split at h
  · rename_i text
    split_ifs at h with hsafe
    · cases h
      rw [qualifiedId, if_pos hsafe]
    · cases h
  · cases h

@[simp] theorem asTexts_map (texts : List Text) : asTexts (texts.map .string) = some texts := by
  induction texts with
  | nil => rfl
  | cons text texts ih => rw [List.map_cons, asTexts, ih, Option.map_some]

theorem length_of_asTexts {items : List Raw} {texts : List Text}
    (h : asTexts items = some texts) : items.length = texts.length := by
  induction items generalizing texts with
  | nil =>
      cases h
      rfl
  | cons item items ih =>
      cases item with
      | string text =>
          rw [asTexts] at h
          obtain ⟨rest, hrest, rfl⟩ := Option.map_eq_some_iff.1 h
          rw [List.length_cons, List.length_cons, ih hrest]
      | _ => cases h

theorem areEnumValues_perm {values values' : List Text} (h : values'.Perm values) :
    areEnumValues values' = areEnumValues values := by
  unfold areEnumValues
  have hnil : values' = [] ↔ values = [] :=
    ⟨fun hnil => List.nil_perm.1 (hnil ▸ h), fun hnil => List.perm_nil.1 (hnil ▸ h)⟩
  simp only [ne_eq, hnil, h.length_eq, h.mem_iff, h.nodup_iff]

/-! ### Types -/

section Levels

variable {element member : Raw → Except Failure ClientType}

theorem parseScalar_eq_ok {members : List (String × Raw)} {scalar type : ClientType} :
    parseScalar members scalar = .ok type ↔ members.length = 1 ∧ type = scalar := by
  rw [parseScalar, Except.bind_unit_eq_ok, expect_eq_ok]
  exact and_congr_right fun _ => ⟨fun h => (Except.ok.inj h).symm, fun h => h ▸ rfl⟩

theorem parseEnum_eq_ok {members : List (String × Raw)} {type : ClientType} :
    parseEnum members = .ok type ↔ hasOnlyKeys members ["kind", "values"] = true ∧
      ∃ items values, read members "values" = .array items ∧ asTexts items = some values ∧
        areEnumValues values = true ∧ type = .enum (sortOn id values) := by
  unfold parseEnum
  constructor
  · intro h
    split_ifs at h with hkeys
    · split at h
      · rename_i items hitems
        split at h
        · rename_i values hvalues
          split_ifs at h with hvalid
          · cases h
            exact ⟨hkeys, items, values, hitems, hvalues, hvalid, rfl⟩
          · cases h
        · cases h
      · cases h
    · cases h
  · rintro ⟨hkeys, items, values, hitems, hvalues, hvalid, rfl⟩
    rw [if_pos hkeys]
    simp only [hitems, hvalues, hvalid, if_true]

theorem parseArray_eq_ok {members : List (String × Raw)} {type : ClientType} :
    parseArray element members = .ok type ↔ hasOnlyKeys members ["kind", "element"] = true ∧
      ∃ inner, element (read members "element") = .ok inner ∧ isElement inner = true ∧
        type = .array inner := by
  rw [parseArray, Except.bind_unit_eq_ok, expect_eq_ok, Except.bind_eq_ok]
  refine and_congr_right fun _ => exists_congr fun inner => ?_
  rw [within_eq_ok, Except.bind_unit_eq_ok, expect_eq_ok]
  exact and_congr_right fun _ => and_congr_right fun _ =>
    ⟨fun h => (Except.ok.inj h).symm, fun h => h ▸ rfl⟩

theorem parseField_eq_ok {members : List (String × Raw)} {field : ClientField} :
    parseField member (.object members) = .ok field ↔
      hasOnlyKeys members ["name", "type", "optional"] = true ∧
      parseOptional (read members "optional") = .ok field.1.optional ∧
      member (read members "type") = .ok field.2 ∧ isVoid field.2 = false ∧
      name (read members "name") false = .ok field.1.name := by
  rw [parseField, Except.bind_unit_eq_ok, expect_eq_ok, Except.bind_eq_ok]
  constructor
  · rintro ⟨hkeys, optional, hoptional, h⟩
    obtain ⟨type, htype, h⟩ := Except.bind_eq_ok.1 h
    obtain ⟨hvoid, h⟩ := Except.bind_unit_eq_ok.1 h
    obtain ⟨name, hname, h⟩ := Except.bind_eq_ok.1 h
    cases h
    exact ⟨hkeys, hoptional, within_eq_ok.1 htype, expect_eq_ok.1 hvoid, hname⟩
  · rintro ⟨hkeys, hoptional, htype, hvoid, hname⟩
    exact ⟨hkeys, field.1.optional, hoptional, Except.bind_eq_ok.2 ⟨field.2, within_eq_ok.2 htype,
      Except.bind_unit_eq_ok.2 ⟨expect_eq_ok.2 hvoid,
        Except.bind_eq_ok.2 ⟨field.1.name, hname, rfl⟩⟩⟩⟩

theorem exists_of_parseField {raw : Raw} {field : ClientField}
    (h : parseField member raw = .ok field) : ∃ members, raw = .object members := by
  unfold parseField at h
  split at h
  · exact ⟨_, rfl⟩
  · cases h

theorem fields_eq_ok {items : List Raw} {result : List ClientField} :
    fields member (.array items) = .ok result ↔ items.length ≤ 128 ∧
      ∃ parsed, parseAll (parseField member) 0 items = .ok parsed ∧
        (parsed.map fun field => toLowerCase field.1.name).Nodup ∧
        result = sortOn (fun field => field.1.name) parsed := by
  rw [fields, Except.bind_unit_eq_ok, expect_eq_ok, Except.bind_eq_ok]
  refine and_congr_right fun _ => exists_congr fun parsed => and_congr_right fun _ => ?_
  rw [Except.bind_unit_eq_ok, expect_eq_ok]
  exact and_congr_right fun _ => ⟨fun h => (Except.ok.inj h).symm, fun h => h ▸ rfl⟩

theorem exists_of_fields {raw : Raw} {result : List ClientField}
    (h : fields member raw = .ok result) : ∃ items, raw = .array items := by
  unfold fields at h
  split at h
  · exact ⟨_, rfl⟩
  · cases h

theorem parseDto_eq_ok {members : List (String × Raw)} {type : ClientType} :
    parseDto member members = .ok type ↔ hasOnlyKeys members ["kind", "name", "fields"] = true ∧
      ∃ typeName result, name (read members "name") true = .ok typeName ∧
        fields member (read members "fields") = .ok result ∧ result.any holdsDto = false ∧
        type = .dto typeName result := by
  rw [parseDto, Except.bind_unit_eq_ok, expect_eq_ok, Except.bind_eq_ok]
  refine and_congr_right fun _ => exists_congr fun typeName => ?_
  rw [within_eq_ok, Except.bind_eq_ok, ← exists_and_left]
  refine exists_congr fun result => and_congr_right fun _ => ?_
  rw [within_eq_ok, Except.bind_unit_eq_ok, expect_eq_ok]
  exact and_congr_right fun _ => and_congr_right fun _ =>
    ⟨fun h => (Except.ok.inj h).symm, fun h => h ▸ rfl⟩

/-- What a level of a type can be parsed to. -/
theorem parseLevel_cases {raw : Raw} {type : ClientType}
    (h : parseLevel element member raw = .ok type) :
    (type = .void ∨ type = .string ∨ type = .boolean ∨ type = .number) ∨
      ∃ members, parseEnum members = .ok type ∨ parseArray element members = .ok type ∨
        parseDto member members = .ok type := by
  unfold parseLevel at h
  split at h
  · rename_i members
    split at h
    · split_ifs at h
      · exact .inl (.inl (parseScalar_eq_ok.1 h).2)
      · exact .inl (.inr (.inl (parseScalar_eq_ok.1 h).2))
      · exact .inl (.inr (.inr (.inl (parseScalar_eq_ok.1 h).2)))
      · exact .inl (.inr (.inr (.inr (parseScalar_eq_ok.1 h).2)))
      · exact .inr ⟨members, .inl h⟩
      · exact .inr ⟨members, .inr (.inl h)⟩
      · exact .inr ⟨members, .inr (.inr h)⟩
      · cases h
    · cases h
  · cases h

theorem parseField_canonical (hmember : Canonical member ClientType.toRaw) :
    Canonical (parseField member) ClientField.toRaw := by
  intro raw field h
  obtain ⟨members, rfl⟩ := exists_of_parseField h
  obtain ⟨-, -, htype, hvoid, hname⟩ := parseField_eq_ok.1 h
  obtain ⟨⟨fieldName, optional⟩, type⟩ := field
  cases optional with
  | false =>
      exact parseField_eq_ok.2 ⟨rfl, rfl, hmember _ _ htype, hvoid, name_again hname⟩
  | true =>
      exact parseField_eq_ok.2 ⟨rfl, rfl, hmember _ _ htype, hvoid, name_again hname⟩

/-- Fields are parsed again to themselves, also where they are in the order of their names. -/
theorem fields_again (hmember : Canonical member ClientType.toRaw) {raw : Raw}
    {result : List ClientField} (h : fields member raw = .ok result) :
    fields member (.array (result.map ClientField.toRaw)) = .ok result := by
  obtain ⟨items, rfl⟩ := exists_of_fields h
  obtain ⟨hlength, parsed, hparsed, hnodup, rfl⟩ := fields_eq_ok.1 h
  have hperm := sortOn_perm (fun field : ClientField => field.1.name) parsed
  have hitems := (parseAll_eq_ok.1 hparsed).length_eq
  refine fields_eq_ok.2 ⟨?_, _, parseAll_again (parseField_canonical hmember) hparsed hperm 0,
    (hperm.map _).nodup_iff.2 hnodup, (sortOn_sortOn _ _).symm⟩
  rw [List.length_map, hperm.length_eq, ← hitems]
  exact hlength

/-- One level of a type parses to a form it parses to itself. -/
theorem parseLevel_canonical (helement : Canonical element ClientType.toRaw)
    (hmember : Canonical member ClientType.toRaw) :
    Canonical (parseLevel element member) ClientType.toRaw := by
  intro raw type h
  rcases parseLevel_cases h with (rfl | rfl | rfl | rfl) | ⟨members, henum | harray | hdto⟩
  · rfl
  · rfl
  · rfl
  · rfl
  · obtain ⟨-, items, values, -, -, hvalid, rfl⟩ := parseEnum_eq_ok.1 henum
    have hagain : areEnumValues (sortOn id values) = true := by
      rw [areEnumValues_perm (sortOn_perm id values)]
      exact hvalid
    have hparsed : parseEnum [("kind", .string "enum".toList),
        ("values", .array ((sortOn id values).map .string))] = .ok (.enum (sortOn id values)) :=
      parseEnum_eq_ok.2 ⟨rfl, _, _, rfl, asTexts_map _, hagain, by rw [sortOn_sortOn]⟩
    exact hparsed
  · obtain ⟨-, inner, hinner, hallowed, rfl⟩ := parseArray_eq_ok.1 harray
    exact parseArray_eq_ok.2 ⟨rfl, inner, helement _ _ hinner, hallowed, rfl⟩
  · obtain ⟨-, typeName, result, hname, hfields, hflat, rfl⟩ := parseDto_eq_ok.1 hdto
    refine parseDto_eq_ok.2 ⟨rfl, typeName, result, name_again hname, ?_, hflat, rfl⟩
    have hagain := fields_again hmember hfields
    rw [← fieldsToRaw_eq] at hagain
    exact hagain

end Levels

theorem tooDeep_canonical : Canonical tooDeep ClientType.toRaw := by
  intro raw type h
  cases h

theorem parseLevels_canonical : ∀ levels, Canonical (parseLevels levels) ClientType.toRaw
  | 0 => tooDeep_canonical
  | 1 => parseLevel_canonical tooDeep_canonical tooDeep_canonical
  | levels + 2 =>
      parseLevel_canonical (parseLevels_canonical (levels + 1)) (parseLevels_canonical levels)

theorem parseType_canonical : Canonical parseType ClientType.toRaw := parseLevels_canonical 9

/-! ### Operations -/

theorem validateRoute_again {value : Raw} {route : Text} (h : validateRoute value = .ok route) :
    validateRoute (.string route) = .ok route := by
  unfold validateRoute at h
  split at h
  · rename_i text
    split_ifs at h with hsafe
    · cases h
      rw [validateRoute, if_pos hsafe]
    · cases h
  · cases h

theorem expectedMethods_cases (kind : ClientOperationKind) (declared : Raw) :
    (kind = .command ∧ expectedMethods kind declared = ["POST".toList]) ∨
      (kind ≠ .command ∧ (expectedMethods kind declared = ["GET".toList] ∨
        expectedMethods kind declared = ["GET".toList, "QUERY".toList])) := by
  unfold expectedMethods
  split_ifs with hkind
  · exact .inl ⟨hkind, rfl⟩
  · split
    · exact .inr ⟨hkind, .inl rfl⟩
    · exact .inr ⟨hkind, .inr rfl⟩

/-- The methods a client is expected to have are those it declares when it declares them. -/
theorem expectedMethods_again (kind : ClientOperationKind) (declared : Raw) :
    expectedMethods kind (textsRaw (expectedMethods kind declared)) =
      expectedMethods kind declared := by
  rcases expectedMethods_cases kind declared with ⟨hkind, h⟩ | ⟨hkind, h | h⟩
  · rw [h]
    exact if_pos hkind
  · rw [h]
    exact if_neg hkind
  · rw [h]
    exact if_neg hkind

theorem validateMethods_again {kind : ClientOperationKind} {declared : Raw} {methods : List Text}
    (h : validateMethods kind declared = .ok methods) :
    validateMethods kind (textsRaw methods) = .ok methods := by
  have hagain := expectedMethods_again kind declared
  unfold textsRaw at hagain ⊢
  unfold validateMethods at h
  split at h
  · split_ifs at h
    · cases h
      simp only [validateMethods]
      rw [hagain, asTexts_map, if_pos rfl]
    · cases h
  · cases h

theorem validateRoles_eq_ok {value : Raw} {roles : List Text}
    (h : validateRoles value = .ok roles) :
    roles.length ≤ 128 ∧ roles.all isValidRole = true := by
  unfold validateRoles at h
  split at h
  · rename_i items
    split at h
    · rename_i texts htexts
      split_ifs at h with hvalid
      · cases h
        exact ⟨length_of_asTexts htexts ▸ hvalid.1, hvalid.2⟩
      · cases h
    · cases h
  · cases h

theorem validateRoles_again {value : Raw} {roles roles' : List Text}
    (h : validateRoles value = .ok roles) (hperm : roles'.Perm roles) :
    validateRoles (textsRaw roles') = .ok roles' := by
  obtain ⟨hlength, hvalid⟩ := validateRoles_eq_ok h
  have hvalid' : roles'.all isValidRole = true := by
    rw [List.all_eq_true] at hvalid ⊢
    exact fun role hmem => hvalid role (hperm.mem_iff.1 hmem)
  unfold validateRoles textsRaw
  simp only [asTexts_map]
  rw [if_pos ⟨by rw [List.length_map, hperm.length_eq]; exact hlength, hvalid'⟩]

theorem validateAuthentication_again {roles roles' : List Text} {value : Raw}
    {authentication : ClientAuthentication}
    (h : validateAuthentication roles value = .ok authentication) (hperm : roles'.Perm roles) :
    validateAuthentication roles' (.string authentication.text) = .ok authentication := by
  have hnil : roles = [] → roles' = [] := fun hnil => List.perm_nil.1 (hnil ▸ hperm)
  unfold validateAuthentication at h
  split at h
  · split_ifs at h with hanonymous hauthenticated hdefault
    · cases h
      rw [validateAuthentication, if_pos ⟨rfl, hnil hanonymous.2⟩]
    · cases h
      rfl
    · cases h
      rw [validateAuthentication, if_neg fun h => absurd h.1 (by decide), if_neg (by decide),
        if_pos ⟨rfl, hnil hdefault.2⟩]
    · cases h
  · cases h

theorem validateInput_eq_ok {kind : ClientOperationKind} {value : Raw}
    {input : List ClientField} : validateInput kind value = .ok input ↔
      fields (parseLevels 8) value = .ok input ∧
        (kind = .command ∨ input.any (isReservedInput kind) = false) := by
  rw [validateInput, Except.bind_eq_ok]
  constructor
  · rintro ⟨result, hresult, h⟩
    obtain ⟨hallowed, h⟩ := Except.bind_unit_eq_ok.1 h
    cases h
    exact ⟨within_eq_ok.1 hresult, expect_eq_ok.1 hallowed⟩
  · rintro ⟨hinput, hallowed⟩
    exact ⟨input, within_eq_ok.2 hinput,
      Except.bind_unit_eq_ok.2 ⟨expect_eq_ok.2 hallowed, rfl⟩⟩

theorem validateOutput_eq_ok {kind : ClientOperationKind} {value : Raw} {output : ClientType} :
    validateOutput kind value = .ok output ↔
      parseType value = .ok output ∧ (kind = .command ∨ isScalarOutput output = false) := by
  rw [validateOutput, Except.bind_eq_ok]
  constructor
  · rintro ⟨result, hresult, h⟩
    obtain ⟨hallowed, h⟩ := Except.bind_unit_eq_ok.1 h
    cases h
    exact ⟨within_eq_ok.1 hresult, expect_eq_ok.1 hallowed⟩
  · rintro ⟨houtput, hallowed⟩
    exact ⟨output, within_eq_ok.2 houtput,
      Except.bind_unit_eq_ok.2 ⟨expect_eq_ok.2 hallowed, rfl⟩⟩

/-- What the members of a descriptor are when it is parsed to an operation. -/
structure Describes (members : List (String × Raw)) (declared : List Text)
    (operation : ClientOperation) : Prop where
  keys : hasOnlyKeys members operationKeys = true
  id : qualifiedId (read members "id") = .ok operation.id
  kind : validateKind (read members "kind") = .ok operation.kind
  route : validateRoute (read members "route") = .ok operation.route
  methods : validateMethods operation.kind (read members "methods") = .ok operation.methods
  queryName : validateQueryName operation.kind operation.id (read members "queryName") = .ok ()
  roles : validateRoles (read members "roles") = .ok declared
  dynamicAuthorization : validateDynamicAuthorization (read members "dynamicAuthorization") =
    .ok operation.dynamicAuthorization
  authentication : validateAuthentication declared (read members "authentication") =
    .ok operation.authentication
  input : validateInput operation.kind (read members "input") = .ok operation.input
  output : validateOutput operation.kind (read members "output") = .ok operation.output
  flat : operation.input.any holdsDto = false
  givesQueryName : operation.queryName =
    if operation.kind = .command then none else some operation.id
  sortsRoles : operation.roles = sortOn (fun role => role) declared

theorem parseClientOperation_eq_ok {members : List (String × Raw)}
    {operation : ClientOperation} : parseClientOperation (.object members) = .ok operation ↔
      ∃ roles, Describes members roles operation := by
  unfold parseClientOperation
  constructor
  · intro h
    obtain ⟨hkeys, h⟩ := Except.bind_unit_eq_ok.1 h
    obtain ⟨id, hid, h⟩ := Except.bind_eq_ok.1 h
    obtain ⟨kind, hkind, h⟩ := Except.bind_eq_ok.1 h
    obtain ⟨route, hroute, h⟩ := Except.bind_eq_ok.1 h
    obtain ⟨methods, hmethods, h⟩ := Except.bind_eq_ok.1 h
    obtain ⟨hqueryName, h⟩ := Except.bind_unit_eq_ok.1 h
    obtain ⟨roles, hroles, h⟩ := Except.bind_eq_ok.1 h
    obtain ⟨dynamicAuthorization, hdynamic, h⟩ := Except.bind_eq_ok.1 h
    obtain ⟨authentication, hauthentication, h⟩ := Except.bind_eq_ok.1 h
    obtain ⟨input, hinput, h⟩ := Except.bind_eq_ok.1 h
    obtain ⟨output, houtput, h⟩ := Except.bind_eq_ok.1 h
    obtain ⟨hflat, h⟩ := Except.bind_unit_eq_ok.1 h
    cases h
    exact ⟨roles, expect_eq_ok.1 hkeys, hid, hkind, hroute, hmethods, hqueryName, hroles,
      hdynamic, hauthentication, hinput, houtput, expect_eq_ok.1 hflat, rfl, rfl⟩
  · rintro ⟨roles, h⟩
    obtain ⟨id, kind, route, methods, queryName, sorted, authentication, dynamicAuthorization,
      input, output⟩ := operation
    have hqueryName : queryName = if kind = .command then none else some id := h.givesQueryName
    have hsorted : sorted = sortOn (fun role => role) roles := h.sortsRoles
    subst hqueryName hsorted
    exact Except.bind_unit_eq_ok.2 ⟨expect_eq_ok.2 h.keys,
      Except.bind_eq_ok.2 ⟨_, h.id, Except.bind_eq_ok.2 ⟨_, h.kind,
      Except.bind_eq_ok.2 ⟨_, h.route, Except.bind_eq_ok.2 ⟨_, h.methods,
      Except.bind_unit_eq_ok.2 ⟨h.queryName, Except.bind_eq_ok.2 ⟨_, h.roles,
      Except.bind_eq_ok.2 ⟨_, h.dynamicAuthorization,
      Except.bind_eq_ok.2 ⟨_, h.authentication, Except.bind_eq_ok.2 ⟨_, h.input,
      Except.bind_eq_ok.2 ⟨_, h.output,
      Except.bind_unit_eq_ok.2 ⟨expect_eq_ok.2 h.flat, rfl⟩⟩⟩⟩⟩⟩⟩⟩⟩⟩⟩⟩

theorem exists_of_parseClientOperation {raw : Raw} {operation : ClientOperation}
    (h : parseClientOperation raw = .ok operation) : ∃ members, raw = .object members := by
  unfold parseClientOperation at h
  split at h
  · exact ⟨_, rfl⟩
  · cases h

/-- An operation that was parsed is parsed again to itself. -/
theorem parseClientOperation_canonical :
    Canonical parseClientOperation ClientOperation.toRaw := by
  intro raw operation h
  obtain ⟨members, rfl⟩ := exists_of_parseClientOperation h
  obtain ⟨roles, hdescribes⟩ := parseClientOperation_eq_ok.1 h
  obtain ⟨id, kind, route, methods, queryName, sorted, authentication, dynamicAuthorization,
    input, output⟩ := operation
  have hqueryName : queryName = if kind = .command then none else some id :=
    hdescribes.givesQueryName
  have hsorted : sorted = sortOn (fun role => role) roles := hdescribes.sortsRoles
  subst hqueryName hsorted
  have hperm := sortOn_perm (fun role : Text => role) roles
  obtain ⟨hfields, hallowed⟩ := validateInput_eq_ok.1 hdescribes.input
  obtain ⟨htype, hstructured⟩ := validateOutput_eq_ok.1 hdescribes.output
  have hinput : validateInput kind (.array (input.map ClientField.toRaw)) = .ok input :=
    validateInput_eq_ok.2 ⟨fields_again (parseLevels_canonical 8) hfields, hallowed⟩
  have houtput : validateOutput kind output.toRaw = .ok output :=
    validateOutput_eq_ok.2 ⟨parseType_canonical _ _ htype, hstructured⟩
  have hroles := validateRoles_again hdescribes.roles hperm
  have hauthentication := validateAuthentication_again hdescribes.authentication hperm
  have hmethods := validateMethods_again hdescribes.methods
  have hid := qualifiedId_again hdescribes.id
  have hroute := validateRoute_again hdescribes.route
  cases kind with
  | command =>
      exact parseClientOperation_eq_ok.2 ⟨_, rfl, hid, rfl, hroute, hmethods, rfl, hroles, rfl,
        hauthentication, hinput, houtput, hdescribes.flat, rfl, (sortOn_sortOn _ _).symm⟩
  | query =>
      have hkind : ClientOperationKind.query ≠ .command := by decide
      exact parseClientOperation_eq_ok.2 ⟨_, rfl, hid, rfl, hroute, hmethods,
        expect_eq_ok.2 ⟨hkind, rfl⟩, hroles, rfl, hauthentication, hinput, houtput,
        hdescribes.flat, rfl, (sortOn_sortOn _ _).symm⟩
  | observable =>
      have hkind : ClientOperationKind.observable ≠ .command := by decide
      exact parseClientOperation_eq_ok.2 ⟨_, rfl, hid, rfl, hroute, hmethods,
        expect_eq_ok.2 ⟨hkind, rfl⟩, hroles, rfl, hauthentication, hinput, houtput,
        hdescribes.flat, rfl, (sortOn_sortOn _ _).symm⟩

end Arc.Introspection
