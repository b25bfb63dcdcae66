import Arc.Foundation.InsertionMap

/-!
# Plain objects as dictionaries

A plain object that holds values under arbitrary names is an `InsertionMap` of its own
properties. Reading a name it has no own property of finds the members that every object
inherits: the name `constructor` is answered although nothing was stored under it.
-/

namespace Arc

/-- The members every plain object inherits. -/
def objectMembers : List String :=
  ["constructor", "__defineGetter__", "__defineSetter__", "hasOwnProperty", "__lookupGetter__",
    "__lookupSetter__", "isPrototypeOf", "propertyIsEnumerable", "toString", "valueOf", "__proto__",
    "toLocaleString"]

/-- What reading a name of a plain object finds. -/
inductive PropertyRead (α : Type*)
  | absent
  | inherited
  | own (value : α)
  deriving DecidableEq

namespace InsertionMap

variable {α β : Type*}

/-- Read a name, own properties first. -/
def read (object : InsertionMap String α) (name : String) : PropertyRead α :=
  match object.get name with
  | some value => .own value
  | none => if name ∈ objectMembers then .inherited else .absent

theorem read_of_get {object : InsertionMap String α} {name : String} {value : α}
    (h : object.get name = some value) : object.read name = .own value := by
  simp [read, h]

theorem read_of_member {object : InsertionMap String α} {name : String}
    (h : object.get name = none) (hmember : name ∈ objectMembers) :
    object.read name = .inherited := by
  simp [read, h, hmember]

theorem read_of_absent {object : InsertionMap String α} {name : String}
    (h : object.get name = none) (hmember : name ∉ objectMembers) :
    object.read name = .absent := by
  simp [read, h, hmember]

theorem read_eq_own_iff {object : InsertionMap String α} {name : String} {value : α} :
    object.read name = .own value ↔ object.get name = some value := by
  unfold read
  cases hget : object.get name with
  | some entered => simp
  | none => by_cases hmember : name ∈ objectMembers <;> simp [hmember]

theorem read_eq_absent_iff {object : InsertionMap String α} {name : String} :
    object.read name = .absent ↔ object.get name = none ∧ name ∉ objectMembers := by
  unfold read
  cases hget : object.get name with
  | some entered => simp
  | none => by_cases hmember : name ∈ objectMembers <;> simp [hmember]

theorem get_of_read_inherited {object : InsertionMap String α} {name : String}
    (h : object.read name = .inherited) : object.get name = none := by
  unfold read at h
  cases hget : object.get name with
  | some entered =>
      rw [hget] at h
      cases h
  | none => rfl

/-- An own property is seen by no read of another name. -/
theorem read_set_of_ne (object : InsertionMap String α) {name other : String} (value : α)
    (h : other ≠ name) : (object.set name value).read other = object.read other := by
  rw [read, read, get_set_of_ne object value h]

/-- The object with every value replaced by its image. -/
def mapValues {κ : Type*} (f : α → β) (object : InsertionMap κ α) : InsertionMap κ β where
  entries := object.entries.map fun entry => (entry.1, f entry.2)
  nodup_keys := by
    rw [List.map_map]
    exact object.nodup_keys

theorem entries_mapValues {κ : Type*} (f : α → β) (object : InsertionMap κ α) :
    (object.mapValues f).entries = object.entries.map fun entry => (entry.1, f entry.2) := rfl

@[simp] theorem keys_mapValues {κ : Type*} (f : α → β) (object : InsertionMap κ α) :
    (object.mapValues f).keys = object.keys := by
  simp [keys, mapValues, Function.comp_def]

theorem get_mapValues {κ : Type*} [DecidableEq κ] (f : α → β) (object : InsertionMap κ α)
    (key : κ) : (object.mapValues f).get key = (object.get key).map f := by
  cases hget : object.get key with
  | none =>
      rw [Option.map_none, get_eq_none_iff, keys_mapValues]
      exact get_eq_none_iff.1 hget
  | some value =>
      rw [Option.map_some, get_eq_some_iff]
      exact List.mem_map_of_mem (f := fun entry => (entry.1, f entry.2)) (get_eq_some_iff.1 hget)

theorem mapValues_set {κ : Type*} [DecidableEq κ] (f : α → β) (object : InsertionMap κ α)
    (key : κ) (value : α) :
    (object.set key value).mapValues f = (object.mapValues f).set key (f value) := by
  ext1
  by_cases hkey : key ∈ object.keys
  · rw [entries_set_of_mem (by rwa [keys_mapValues])]
    simp only [mapValues, entries_set_of_mem hkey, List.map_map]
    apply List.map_congr_left
    intro entry _
    by_cases he : entry.1 = key <;> simp [he]
  · rw [entries_set_of_not_mem (by rwa [keys_mapValues])]
    simp [mapValues, entries_set_of_not_mem hkey]

/-! ### Several entries at once -/

/-- Set the entries of a list one after another. -/
def setAll {κ : Type*} [DecidableEq κ] (object : InsertionMap κ α) (entries : List (κ × α)) :
    InsertionMap κ α :=
  entries.foldl (fun object entry => object.set entry.1 entry.2) object

section SetAll

variable {κ : Type*} [DecidableEq κ]

@[simp] theorem setAll_nil (object : InsertionMap κ α) : object.setAll [] = object := rfl

theorem setAll_cons (object : InsertionMap κ α) (entry : κ × α) (rest : List (κ × α)) :
    object.setAll (entry :: rest) = (object.set entry.1 entry.2).setAll rest := rfl

theorem get_setAll_of_not_mem {object : InsertionMap κ α} {entries : List (κ × α)} {key : κ}
    (h : key ∉ entries.map Prod.fst) : (object.setAll entries).get key = object.get key := by
  induction entries generalizing object with
  | nil => rfl
  | cons entry rest ih =>
      rw [List.map_cons, List.mem_cons, not_or] at h
      rw [setAll_cons, ih h.2, get_set_of_ne object entry.2 h.1]

theorem get_setAll_of_mem {object : InsertionMap κ α} {entries : List (κ × α)}
    (hnodup : (entries.map Prod.fst).Nodup) {entry : κ × α} (h : entry ∈ entries) :
    (object.setAll entries).get entry.1 = some entry.2 := by
  induction entries generalizing object with
  | nil => cases h
  | cons first rest ih =>
      rw [List.map_cons, List.nodup_cons] at hnodup
      rw [setAll_cons]
      rcases List.mem_cons.1 h with rfl | hrest
      · rw [get_setAll_of_not_mem hnodup.1, get_set_self]
      · exact ih hnodup.2 hrest

/-- Setting a key to the value it has changes nothing. -/
theorem set_of_get {object : InsertionMap κ α} {key : κ} {value : α}
    (h : object.get key = some value) : object.set key value = object := by
  have hmem := get_eq_some_iff.1 h
  ext1
  rw [entries_set_of_mem (List.mem_map_of_mem hmem)]
  conv_rhs => rw [← List.map_id object.entries]
  apply List.map_congr_left
  intro entry hentry
  by_cases hkey : entry.1 = key
  · rw [if_pos hkey, id_eq]
    exact (Prod.ext hkey (object.entries_functional (hkey ▸ hentry) hmem)).symm
  · rw [if_neg hkey, id_eq]

/-- Setting entries of distinct keys changes nothing exactly when each was there. -/
theorem setAll_eq_self_iff {object : InsertionMap κ α} {entries : List (κ × α)}
    (hnodup : (entries.map Prod.fst).Nodup) :
    object.setAll entries = object ↔ ∀ entry ∈ entries, object.get entry.1 = some entry.2 := by
  constructor
  · intro h entry hentry
    have hget : (object.setAll entries).get entry.1 = some entry.2 :=
      get_setAll_of_mem hnodup hentry
    rwa [h] at hget
  · intro h
    clear hnodup
    induction entries with
    | nil => rfl
    | cons entry rest ih =>
        rw [setAll_cons, set_of_get (h entry List.mem_cons_self)]
        exact ih fun other hother => h other (List.mem_cons_of_mem _ hother)

end SetAll

end InsertionMap

end Arc
