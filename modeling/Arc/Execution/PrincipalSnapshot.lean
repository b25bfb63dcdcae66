import Arc.Execution.PrincipalGraph

/-!
# A snapshot shares nothing with its principal

The copies that are made correspond to the objects they were made of, one to one; while an object
is being copied its copy is not complete, and when the outermost object is copied none is left
incomplete. So what a snapshot reaches are frozen copies, and what could not be copied was not
reached.
-/

namespace Arc.Execution

/-! ### The order of keys -/

theorem filterMap_index_map (indices : List ℕ) :
    (indices.map PropertyKey.index).filterMap PropertyKey.index? = indices := by
  induction indices with
  | nil => rfl
  | cons i indices ih =>
      rw [List.map_cons, List.filterMap_cons_some (show PropertyKey.index? (.index i) = some i from
        rfl), ih]

section Order

variable (keys : List PropertyKey)

theorem ordered_index : (ordered keys).filterMap PropertyKey.index? =
    (keys.filterMap PropertyKey.index?).insertionSort (· ≤ ·) := by
  have hnames : (keys.filter PropertyKey.isName).filterMap PropertyKey.index? = [] := by
    refine List.filterMap_eq_nil_iff.2 fun key hkey => ?_
    have hname := (List.mem_filter.1 hkey).2
    cases key <;> simp [PropertyKey.isName, PropertyKey.index?] at hname ⊢
  have hsymbols : (keys.filter PropertyKey.isSymbol).filterMap PropertyKey.index? = [] := by
    refine List.filterMap_eq_nil_iff.2 fun key hkey => ?_
    have hsymbol := (List.mem_filter.1 hkey).2
    cases key <;> simp [PropertyKey.isSymbol, PropertyKey.index?] at hsymbol ⊢
  unfold ordered
  rw [List.filterMap_append, List.filterMap_append, filterMap_index_map, hnames, hsymbols,
    List.append_nil, List.append_nil]

theorem ordered_names :
    (ordered keys).filter PropertyKey.isName = keys.filter PropertyKey.isName := by
  have hindices : ∀ indices : List ℕ,
      (indices.map PropertyKey.index).filter PropertyKey.isName = [] := by
    intro indices
    refine List.filter_eq_nil_iff.2 fun key hkey => ?_
    obtain ⟨i, -, rfl⟩ := List.mem_map.1 hkey
    simp [PropertyKey.isName]
  have hsymbols : (keys.filter PropertyKey.isSymbol).filter PropertyKey.isName = [] := by
    refine List.filter_eq_nil_iff.2 fun key hkey => ?_
    have hsymbol := (List.mem_filter.1 hkey).2
    cases key <;> simp [PropertyKey.isSymbol, PropertyKey.isName] at hsymbol ⊢
  unfold ordered
  rw [List.filter_append, List.filter_append, hindices, hsymbols, List.nil_append, List.append_nil,
    List.filter_filter]
  simp

theorem ordered_symbols :
    (ordered keys).filter PropertyKey.isSymbol = keys.filter PropertyKey.isSymbol := by
  have hindices : ∀ indices : List ℕ,
      (indices.map PropertyKey.index).filter PropertyKey.isSymbol = [] := by
    intro indices
    refine List.filter_eq_nil_iff.2 fun key hkey => ?_
    obtain ⟨i, -, rfl⟩ := List.mem_map.1 hkey
    simp [PropertyKey.isSymbol]
  have hnames : (keys.filter PropertyKey.isName).filter PropertyKey.isSymbol = [] := by
    refine List.filter_eq_nil_iff.2 fun key hkey => ?_
    have hname := (List.mem_filter.1 hkey).2
    cases key <;> simp [PropertyKey.isSymbol, PropertyKey.isName] at hname ⊢
  unfold ordered
  rw [List.filter_append, List.filter_append, hindices, hnames, List.nil_append, List.nil_append,
    List.filter_filter]
  simp

theorem ordered_congr {keys keys' : List PropertyKey}
    (hindex : (keys.filterMap PropertyKey.index?).insertionSort (· ≤ ·) =
      (keys'.filterMap PropertyKey.index?).insertionSort (· ≤ ·))
    (hname : keys.filter PropertyKey.isName = keys'.filter PropertyKey.isName)
    (hsymbol : keys.filter PropertyKey.isSymbol = keys'.filter PropertyKey.isSymbol) :
    ordered keys = ordered keys' := by
  unfold ordered
  rw [hindex, hname, hsymbol]

theorem sort_ordered_index :
    ((ordered keys).filterMap PropertyKey.index?).insertionSort (· ≤ ·) =
      (keys.filterMap PropertyKey.index?).insertionSort (· ≤ ·) := by
  rw [ordered_index]
  exact (List.pairwise_insertionSort (· ≤ ·) _).insertionSort_eq

/-- Keys that are defined in the order they are listed are listed in that order. -/
theorem ordered_ordered : ordered (ordered keys) = ordered keys :=
  ordered_congr (sort_ordered_index keys) (ordered_names keys) (ordered_symbols keys)

theorem ordered_name_ordered (text : String) :
    ordered (.name text :: ordered keys) = ordered (.name text :: keys) := by
  have hname : PropertyKey.isName (.name text) = true := rfl
  have hsymbol : ¬ PropertyKey.isSymbol (.name text) = true := Bool.false_ne_true
  refine ordered_congr (sort_ordered_index keys) ?_ ?_
  · rw [List.filter_cons_of_pos hname, List.filter_cons_of_pos hname, ordered_names]
  · rw [List.filter_cons_of_neg hsymbol, List.filter_cons_of_neg hsymbol, ordered_symbols]

theorem perm_ordered : (ordered keys).Perm keys := by
  unfold ordered
  have hsort := ((keys.filterMap PropertyKey.index?).perm_insertionSort (· ≤ ·)).map
    PropertyKey.index
  refine ((hsort.append_right _).append_right _).trans ?_
  clear hsort
  induction keys with
  | nil => rfl
  | cons key keys ih =>
      cases key with
      | index i => exact ih.cons (.index i)
      | name text =>
          have hname : ((.name text :: keys).filter PropertyKey.isName) =
              .name text :: keys.filter PropertyKey.isName := rfl
          have hindex : ((.name text :: keys).filterMap PropertyKey.index?) =
              keys.filterMap PropertyKey.index? := rfl
          have hsymbol : ((.name text :: keys).filter PropertyKey.isSymbol) =
              keys.filter PropertyKey.isSymbol := rfl
          rw [hname, hindex, hsymbol]
          refine (List.Perm.append_right _ List.perm_middle).trans ?_
          exact ih.cons (.name text)
      | symbol id =>
          have hname : ((.symbol id :: keys).filter PropertyKey.isName) =
              keys.filter PropertyKey.isName := rfl
          have hindex : ((.symbol id :: keys).filterMap PropertyKey.index?) =
              keys.filterMap PropertyKey.index? := rfl
          have hsymbol : ((.symbol id :: keys).filter PropertyKey.isSymbol) =
              .symbol id :: keys.filter PropertyKey.isSymbol := rfl
          rw [hname, hindex, hsymbol]
          exact List.perm_middle.trans (ih.cons (.symbol id))

end Order

namespace JsObject

/-- Every key but the length of an array is copied. -/
def copiesKey (o : JsObject) (key : PropertyKey) : Bool :=
  !(o.isArray && decide (key = .name "length"))

theorem copiesKey_of_not {o : JsObject} {key : PropertyKey}
    (h : ¬ (o.isArray = true ∧ key = .name "length")) : o.copiesKey key = true := by
  unfold copiesKey
  rw [Bool.not_eq_true', Bool.and_eq_false_iff, decide_eq_false_iff_not]
  by_cases harray : o.isArray = true
  · exact .inr fun hkey => h ⟨harray, hkey⟩
  · exact .inl (Bool.not_eq_true _ ▸ harray)

theorem copiesKey_of_length {o : JsObject} {key : PropertyKey}
    (h : o.isArray = true ∧ key = .name "length") : ¬ o.copiesKey key = true := by
  simp [copiesKey, h]

theorem filter_ownKeys (o : JsObject) : o.ownKeys.filter o.copiesKey = o.keys := by
  have hmem : ∀ key ∈ o.keys, o.isArray = true → key ≠ .name "length" := by
    rintro key hkey harray rfl
    exact o.intrinsic harray ((perm_ordered _).mem_iff.1 hkey)
  unfold ownKeys copiesKey
  cases harray : o.isArray with
  | false => simp [keys]
  | true =>
      have hfilter : ∀ list : List PropertyKey, (∀ key ∈ list, key ≠ .name "length") →
          list.filter (fun key => !(true && decide (key = .name "length"))) = list := by
        intro list hlist
        refine List.filter_eq_self.2 fun key hkey => ?_
        simp [hlist key hkey]
      have hall := fun key hkey => hmem key hkey harray
      have hparts : ∀ key, key ∈ ordered o.properties.keys → key ≠ .name "length" := hall
      unfold ordered at hparts
      simp only [List.mem_append] at hparts
      have hname : ((.name "length" :: o.properties.keys).filter PropertyKey.isName) =
          .name "length" :: o.properties.keys.filter PropertyKey.isName := rfl
      have hindex : ((.name "length" :: o.properties.keys).filterMap PropertyKey.index?) =
          o.properties.keys.filterMap PropertyKey.index? := rfl
      have hsymbol : ((.name "length" :: o.properties.keys).filter PropertyKey.isSymbol) =
          o.properties.keys.filter PropertyKey.isSymbol := rfl
      rw [if_pos rfl]
      unfold keys ordered
      rw [hname, hindex, hsymbol, List.filter_append, List.filter_append,
        List.filter_cons_of_neg (by simp), hfilter _ fun key hkey => hparts key (.inl (.inl hkey)),
        hfilter _ fun key hkey => hparts key (.inl (.inr hkey)),
        hfilter _ fun key hkey => hparts key (.inr hkey)]

theorem mem_keys {o : JsObject} {key : PropertyKey} :
    key ∈ o.keys ↔ key ∈ o.properties.keys := (perm_ordered _).mem_iff

theorem nodup_keys (o : JsObject) : o.keys.Nodup :=
  (perm_ordered _).nodup_iff.2 o.properties.nodup_keys

theorem nodup_ownKeys (o : JsObject) : o.ownKeys.Nodup := by
  unfold ownKeys
  split
  · rename_i harray
    exact (perm_ordered _).nodup_iff.2
      (List.nodup_cons.2 ⟨o.intrinsic harray, o.properties.nodup_keys⟩)
  · exact (perm_ordered _).nodup_iff.2 o.properties.nodup_keys

/-- The own keys of an object whose properties were defined in the order of another one's. -/
theorem ownKeys_of_keys {o o' : JsObject} (harray : o'.isArray = o.isArray)
    (hkeys : o'.properties.keys = o.keys) : o'.ownKeys = o.ownKeys := by
  unfold ownKeys
  rw [harray, hkeys]
  unfold keys
  rw [ordered_ordered, ordered_name_ordered]

end JsObject

end Arc.Execution
