import Mathlib.Logic.Relation
import Arc.Execution.PrincipalSnapshot

/-!
# The copies of a principal

What one call of `clone` does: it keeps the copies that were complete, leaves no other one
incomplete than those it found so, changes no object that it found, and answers the value that
corresponds to its argument.
-/

namespace Arc.Execution

/-- The values that stand for each other. -/
def Agrees (R : ℕ → ℕ → Prop) : Value → Value → Prop
  | .primitive value, value' => value' = .primitive value
  | .object address, value' => ∃ copy, R address copy ∧ value' = .object copy
  | _, _ => False

theorem Agrees.mono {R R' : ℕ → ℕ → Prop} (h : ∀ a c, R a c → R' a c) {value value' : Value}
    (hagrees : Agrees R value value') : Agrees R' value value' := by
  cases value with
  | primitive value => exact hagrees
  | object address =>
      obtain ⟨copy, hcopy, hvalue⟩ := hagrees
      exact ⟨copy, h address copy hcopy, hvalue⟩
  | symbol id => exact hagrees
  | function id => exact hagrees

/-- The property of a copy, while it can still be changed and when it is frozen. -/
def copied (value : Value) (changeable : Bool) : Property :=
  ⟨.data value, true, changeable, changeable⟩

/-- Each of the keys has a property with the value that stands for the one of the object. -/
def Filled (R : ℕ → ℕ → Prop) (o o' : JsObject) (changeable : Bool)
    (keys : List PropertyKey) : Prop :=
  ∀ key ∈ keys, key.isSymbol = false ∧ ∃ property value value',
    o.properties.get key = some property ∧ property.slot = .data value ∧
      property.enumerable = true ∧ o'.properties.get key = some (copied value' changeable) ∧
        Agrees R value value'

theorem Filled.mono {R R' : ℕ → ℕ → Prop} (h : ∀ a c, R a c → R' a c) {o o' : JsObject}
    {changeable : Bool} {keys : List PropertyKey} (hfilled : Filled R o o' changeable keys) :
    Filled R' o o' changeable keys := by
  intro key hkey
  obtain ⟨hsymbol, property, value, value', hget, hslot, henumerable, hget', hagrees⟩ :=
    hfilled key hkey
  exact ⟨hsymbol, property, value, value', hget, hslot, henumerable, hget', hagrees.mono h⟩

/-- A copy while its first properties are defined. -/
structure Partial (R : ℕ → ℕ → Prop) (o o' : JsObject) (done : List PropertyKey) : Prop where
  isArray : o'.isArray = o.isArray
  length : o'.length = o.length
  prototype : o'.prototype = o.prototype
  extensible : o'.extensible = true
  lengthWritable : o'.lengthWritable = true
  keys : o'.properties.keys = done
  filled : Filled R o o' true done

/-- A copy that is complete. -/
structure CopyOf (R : ℕ → ℕ → Prop) (o o' : JsObject) : Prop where
  isArray : o'.isArray = o.isArray
  length : o'.length = o.length
  prototype : o'.prototype = o.prototype
  frozen : o'.isFrozen = true
  keys : o'.properties.keys = o.keys
  filled : Filled R o o' false o.keys

theorem CopyOf.mono {R R' : ℕ → ℕ → Prop} (h : ∀ a c, R a c → R' a c) {o o' : JsObject}
    (hcopy : CopyOf R o o') : CopyOf R' o o' :=
  ⟨hcopy.isArray, hcopy.length, hcopy.prototype, hcopy.frozen, hcopy.keys, hcopy.filled.mono h⟩

theorem partial_blank (R : ℕ → ℕ → Prop) (o : JsObject) : Partial R o o.blank [] :=
  ⟨rfl, rfl, rfl, rfl, rfl, rfl, fun _ hkey => absurd hkey List.not_mem_nil⟩

/-- Defining the next property of a copy. -/
theorem Partial.define {R : ℕ → ℕ → Prop} {o o' : JsObject} {done : List PropertyKey}
    (h : Partial R o o' done) {key : PropertyKey} {property : Property} {value value' : Value}
    (hfresh : key ∉ done) (hsymbol : key.isSymbol = false)
    (hget : o.properties.get key = some property) (hslot : property.slot = .data value)
    (henumerable : property.enumerable = true) (hagrees : Agrees R value value') :
    ∃ o'', o'.define key value' = some o'' ∧ Partial R o o'' (done ++ [key]) := by
  have hkeys : key ∈ o.properties.keys := InsertionMap.mem_keys_iff.2 ⟨property, hget⟩
  have hlength : ¬ (o'.isArray = true ∧ key = .name "length") := by
    rintro ⟨harray, rfl⟩
    exact o.intrinsic (h.isArray ▸ harray) hkeys
  have hnone : o'.properties.get key = none := by
    rw [InsertionMap.get_eq_none_iff, h.keys]
    exact hfresh
  have hadmits : o'.admits key = true := by
    unfold JsObject.admits
    rw [hnone, h.extensible, h.lengthWritable]
    rfl
  have hgrown : o'.grown key = o.length := by
    unfold JsObject.grown
    cases key with
    | index i =>
        dsimp only
        split
        · rename_i harray
          have hlt := o.bounded (h.isArray ▸ harray) i hkeys
          rw [h.length]
          omega
        · exact h.length
    | name text => exact h.length
    | symbol id => exact h.length
  have hset : key ∉ o'.properties.keys := h.keys ▸ hfresh
  unfold JsObject.define
  rw [dif_neg hlength, if_pos hadmits]
  refine ⟨_, rfl, h.isArray, hgrown, h.prototype, h.extensible, h.lengthWritable, ?_, ?_⟩
  · rw [InsertionMap.keys_set_of_not_mem hset, h.keys]
  · intro other hother
    rcases List.mem_append.1 hother with hother | hother
    · obtain ⟨hsymbol', property', v, v', hget', hslot', henumerable', hcopy, hagrees'⟩ :=
        h.filled other hother
      refine ⟨hsymbol', property', v, v', hget', hslot', henumerable', ?_, hagrees'⟩
      have hne : other ≠ key := fun heq => hfresh (heq ▸ hother)
      rw [InsertionMap.get_set_of_ne _ _ hne, hcopy]
    · obtain rfl := List.mem_singleton.1 hother
      exact ⟨hsymbol, property, value, value', hget, hslot, henumerable,
        InsertionMap.get_set_self _ _ _, hagrees⟩

/-- Freezing a copy that has all its properties. -/
theorem Partial.freeze {R : ℕ → ℕ → Prop} {o o' : JsObject} (h : Partial R o o' o.keys) :
    CopyOf R o o'.freeze := by
  refine ⟨h.isArray, h.length, h.prototype, ?_, ?_, ?_⟩
  · simp [JsObject.isFrozen, JsObject.freeze, InsertionMap.entries_mapValues]
  · rw [← h.keys]
    exact InsertionMap.keys_mapValues _ _
  · intro key hkey
    obtain ⟨hsymbol, property, value, value', hget, hslot, henumerable, hcopy, hagrees⟩ :=
      h.filled key hkey
    refine ⟨hsymbol, property, value, value', hget, hslot, henumerable, ?_, hagrees⟩
    have hfrozen : o'.freeze.properties.get key = (o'.properties.get key).map fun property =>
        { property with configurable := false, writable := false } :=
      InsertionMap.get_mapValues _ _ _
    rw [hfrozen, hcopy]
    rfl

/-! ### The state of copying -/

/-- The copies that were made of the objects of a heap, when those of the objects that are
`pending` need not be complete. -/
structure Copying (objects : List JsObject) (pending : ℕ → Prop) (s : Snapshot) : Prop where
  originals : ∀ a < objects.length, s.heap[a]? = objects[a]?
  size : objects.length ≤ s.heap.length
  fresh : ∀ a c, s.copies.get a = some c → objects.length ≤ c ∧ c < s.heap.length
  injective : ∀ a a' c, s.copies.get a = some c → s.copies.get a' = some c → a = a'
  plain : ∀ a c, s.copies.get a = some c → ∃ o, objects[a]? = some o ∧ o.plain = true
  complete : ∀ a c, s.copies.get a = some c → ¬ pending a → ∃ o o', objects[a]? = some o ∧
    s.heap[c]? = some o' ∧ CopyOf (fun a c => s.copies.get a = some c) o o'

/-- What a step keeps: the copies, and the objects but for those that are its own. -/
structure Extends (own : ℕ → Prop) (s t : Snapshot) : Prop where
  size : s.heap.length ≤ t.heap.length
  heap : ∀ c < s.heap.length, ¬ own c → t.heap[c]? = s.heap[c]?
  copies : ∀ a c, s.copies.get a = some c → t.copies.get a = some c

theorem Extends.refl (own : ℕ → Prop) (s : Snapshot) : Extends own s s :=
  ⟨le_rfl, fun _ _ _ => rfl, fun _ _ h => h⟩

theorem Extends.trans {own : ℕ → Prop} {s t u : Snapshot} (h : Extends own s t)
    (h' : Extends own t u) : Extends own s u :=
  ⟨h.size.trans h'.size,
    fun c hc hown => (h'.heap c (hc.trans_le h.size) hown).trans (h.heap c hc hown),
    fun a c hget => h'.copies a c (h.copies a c hget)⟩

theorem Extends.weaken {own : ℕ → Prop} {s t : Snapshot} (h : Extends (fun _ => False) s t) :
    Extends own s t :=
  ⟨h.size, fun c hc _ => h.heap c hc not_false, h.copies⟩

/-- What a call of `clone` does when it returns. -/
def Clones (objects : List JsObject) (clone : Value → Copier Value) : Prop :=
  ∀ pending value value' s t, (∀ a, value = .object a → a < objects.length) →
    Copying objects pending s → clone value s = (.ok value', t) →
      Copying objects pending t ∧ Extends (fun _ => False) s t ∧
        Agrees (fun a c => t.copies.get a = some c) value value'

/-- The objects of a heap refer to objects of the heap. -/
def Closed (objects : List JsObject) : Prop :=
  ∀ (a : ℕ) (o : JsObject), objects[a]? = some o → ∀ (key : PropertyKey) (property : Property)
    (address : ℕ), o.properties.get key = some property →
      property.slot = .data (.object address) → address < objects.length

theorem lt_of_getElem? {objects : List JsObject} {a : ℕ} {o : JsObject}
    (h : objects[a]? = some o) : a < objects.length :=
  (List.getElem?_eq_some_iff.1 h).1

namespace Copying

variable {objects : List JsObject} {pending : ℕ → Prop} {s : Snapshot}

/-- The copy of a pending object may change. -/
theorem set (h : Copying objects pending s) {a c : ℕ} (hget : s.copies.get a = some c)
    (hpending : pending a) (o : JsObject) :
    Copying objects pending { s with heap := s.heap.set c o } := by
  have hfresh := h.fresh a c hget
  refine ⟨?_, ?_, ?_, h.injective, h.plain, ?_⟩
  · intro b hb
    rw [← h.originals b hb]
    exact List.getElem?_set_ne (hb.trans_le hfresh.1).ne'
  · rw [List.length_set]
    exact h.size
  · intro b d hd
    rw [List.length_set]
    exact h.fresh b d hd
  · intro b d hd hnot
    obtain ⟨original, copy, horiginal, hcopy, hof⟩ := h.complete b d hd hnot
    have hne : c ≠ d := by
      rintro rfl
      exact hnot (h.injective b a c hd hget ▸ hpending)
    exact ⟨original, copy, horiginal, (List.getElem?_set_ne hne).trans hcopy, hof⟩

/-- A new copy, which is not complete. -/
theorem allocate (h : Copying objects pending s) {a : ℕ} {o : JsObject}
    (ho : objects[a]? = some o) (hplain : o.plain = true) (hnone : s.copies.get a = none)
    (blank : JsObject) :
    Copying objects (fun b => pending b ∨ b = a)
      { s with heap := s.heap ++ [blank], copies := s.copies.set a s.heap.length } := by
  have hcopies : ∀ b d, (s.copies.set a s.heap.length).get b = some d →
      (b = a ∧ d = s.heap.length) ∨ (b ≠ a ∧ s.copies.get b = some d) := by
    intro b d hd
    by_cases hb : b = a
    · rw [hb, InsertionMap.get_set_self] at hd
      exact .inl ⟨hb, (Option.some.inj hd).symm⟩
    · rw [InsertionMap.get_set_of_ne _ _ hb] at hd
      exact .inr ⟨hb, hd⟩
  have hmono : ∀ b d, s.copies.get b = some d →
      (s.copies.set a s.heap.length).get b = some d := by
    intro b d hd
    have hb : b ≠ a := by
      rintro rfl
      rw [hnone] at hd
      cases hd
    rw [InsertionMap.get_set_of_ne _ _ hb, hd]
  refine ⟨?_, ?_, ?_, ?_, ?_, ?_⟩
  · intro b hb
    rw [← h.originals b hb]
    exact List.getElem?_append_left (hb.trans_le h.size)
  · rw [List.length_append]
    exact h.size.trans (Nat.le_add_right _ _)
  · intro b d hd
    rw [List.length_append, List.length_singleton]
    rcases hcopies b d hd with ⟨-, rfl⟩ | ⟨-, hd⟩
    · exact ⟨h.size, Nat.lt_succ_self _⟩
    · exact ⟨(h.fresh b d hd).1, (h.fresh b d hd).2.trans (Nat.lt_succ_self _)⟩
  · intro b b' d hd hd'
    rcases hcopies b d hd with ⟨hb, hnew⟩ | ⟨-, hold⟩
    · rcases hcopies b' d hd' with ⟨hb', -⟩ | ⟨-, hold'⟩
      · rw [hb, hb']
      · exact absurd (h.fresh b' d hold').2 (hnew ▸ lt_irrefl _)
    · rcases hcopies b' d hd' with ⟨-, hnew'⟩ | ⟨-, hold'⟩
      · exact absurd (h.fresh b d hold).2 (hnew' ▸ lt_irrefl _)
      · exact h.injective b b' d hold hold'
  · intro b d hd
    rcases hcopies b d hd with ⟨rfl, -⟩ | ⟨-, hd⟩
    · exact ⟨o, ho, hplain⟩
    · exact h.plain b d hd
  · intro b d hd hnot
    rcases hcopies b d hd with ⟨rfl, -⟩ | ⟨-, hd⟩
    · exact absurd (.inr rfl) hnot
    · obtain ⟨original, copy, horiginal, hcopy, hof⟩ :=
        h.complete b d hd fun hpending => hnot (.inl hpending)
      exact ⟨original, copy, horiginal,
        (List.getElem?_append_left (h.fresh b d hd).2).trans hcopy, hof.mono hmono⟩

end Copying

section Loop

variable {objects : List JsObject} {clone : Value → Copier Value} {pending : ℕ → Prop} {a c : ℕ}
  {o : JsObject}

/-- An object whose properties are being copied. -/
structure Filling (objects : List JsObject) (pending : ℕ → Prop) (a c : ℕ) (o : JsObject)
    (done : List PropertyKey) (s : Snapshot) : Prop where
  copying : Copying objects pending s
  copy : s.copies.get a = some c
  filling : ∃ o', s.heap[c]? = some o' ∧ Partial (fun a c => s.copies.get a = some c) o o' done

/-- One turn of the loop over the own keys. -/
theorem copyProperty_filling (hclones : Clones objects clone) (hclosed : Closed objects)
    (ho : objects[a]? = some o) (hpending : pending a) {done : List PropertyKey}
    {key : PropertyKey} (hfresh : key ∉ done) {s t : Snapshot} {u : PUnit}
    (h : Filling objects pending a c o done s)
    (hrun : copyProperty clone a c o.isArray key s = (.ok u, t)) :
    Filling objects pending a c o
        (done ++ [key].filter o.copiesKey) t ∧
      Extends (· = c) s t := by
  unfold copyProperty at hrun
  by_cases hlength : o.isArray = true ∧ key = .name "length"
  · rw [if_pos hlength] at hrun
    obtain rfl : s = t := congrArg Prod.snd hrun
    rw [List.filter_cons_of_neg (JsObject.copiesKey_of_length hlength), List.filter_nil,
      List.append_nil]
    exact ⟨h, Extends.refl _ _⟩
  rw [if_neg hlength] at hrun
  obtain ⟨object, s', hload, hrun⟩ := Attempt.bind_eq_ok.1 hrun
  obtain rfl : s = s' := congrArg Prod.snd hload
  obtain rfl : some o = object := by
    have hobject : s.heap[a]? = object := Except.ok.inj (congrArg Prod.fst hload)
    rw [← hobject, h.copying.originals a (lt_of_getElem? ho), ho]
  rw [Option.bind_some] at hrun
  -- the property is an enumerable data property under a string, or the step throws
  obtain ⟨value, configurable, writable, hget, hsymbol, hrun⟩ : ∃ value configurable writable,
      o.properties.get key = some ⟨.data value, true, configurable, writable⟩ ∧
        key.isSymbol = false ∧
          (clone value >>= fun value => defineProperty c key value) s = (.ok u, t) := by
    cases hget : o.properties.get key with
    | none =>
        rw [hget] at hrun
        cases hrun
    | some property =>
        obtain ⟨slot, enumerable, configurable, writable⟩ := property
        rw [hget] at hrun
        cases slot with
        | accessor getter => cases hrun
        | data value =>
            cases enumerable with
            | false => cases hrun
            | true =>
                dsimp only at hrun
                split at hrun
                · cases hrun
                · rename_i hsymbol
                  exact ⟨value, configurable, writable, rfl, by simpa using hsymbol, hrun⟩
  obtain ⟨value', s', hclone, hrun⟩ := Attempt.bind_eq_ok.1 hrun
  have hinside : ∀ address, value = .object address → address < objects.length := by
    rintro address rfl
    exact hclosed a o ho key _ address hget rfl
  obtain ⟨hcopying, hextends, hagrees⟩ := hclones pending value value' s s' hinside h.copying
    hclone
  obtain ⟨o', ho', hpartial⟩ := h.filling
  have hcopy := hextends.copies a c h.copy
  have ho'' : s'.heap[c]? = some o' :=
    (hextends.heap c (h.copying.fresh a c h.copy).2 not_false).trans ho'
  have hlater : Partial (fun a c => s'.copies.get a = some c) o o' done :=
    { hpartial with filled := hpartial.filled.mono hextends.copies }
  obtain ⟨next, hdefine, hnext⟩ := hlater.define hfresh hsymbol hget rfl rfl hagrees
  unfold defineProperty at hrun
  rw [ho'', Option.bind_some, hdefine] at hrun
  obtain rfl : { s' with heap := s'.heap.set c next } = t := congrArg Prod.snd hrun
  have hlt : c < s'.heap.length := (hcopying.fresh a c hcopy).2
  rw [List.filter_cons_of_pos (JsObject.copiesKey_of_not hlength), List.filter_nil]
  refine ⟨⟨hcopying.set hcopy hpending next, hcopy, next, List.getElem?_set_self hlt, hnext⟩, ?_⟩
  refine (Extends.weaken hextends).trans ⟨?_, ?_, fun _ _ h => h⟩
  · rw [List.length_set]
  · intro d hd hne
    exact List.getElem?_set_ne (Ne.symm hne)

/-- The loop over the own keys that are left. -/
theorem forEach_filling (hclones : Clones objects clone) (hclosed : Closed objects)
    (ho : objects[a]? = some o) (hpending : pending a) {rest : List PropertyKey} :
    ∀ {done : List PropertyKey} {s t : Snapshot} {u : PUnit}, rest.Nodup →
      (∀ key ∈ rest, key ∉ done) → Filling objects pending a c o done s →
        Attempt.forEach (copyProperty clone a c o.isArray) rest s = (.ok u, t) →
          Filling objects pending a c o
              (done ++ rest.filter o.copiesKey) t ∧
            Extends (· = c) s t := by
  induction rest with
  | nil =>
      intro done s t u _ _ h hrun
      obtain rfl : s = t := congrArg Prod.snd hrun
      rw [List.filter_nil, List.append_nil]
      exact ⟨h, Extends.refl _ _⟩
  | cons key rest ih =>
      intro done s t u hnodup hfresh h hrun
      obtain ⟨hkey, hnodup⟩ := List.nodup_cons.1 hnodup
      obtain ⟨u', s', hfirst, hrun⟩ := Attempt.bind_eq_ok.1 hrun
      obtain ⟨hfilling, hextends⟩ := copyProperty_filling hclones hclosed ho hpending
        (hfresh key List.mem_cons_self) h hfirst
      have hrest : ∀ other ∈ rest, other ∉ done ++ [key].filter o.copiesKey := by
        intro other hother hmem
        rcases List.mem_append.1 hmem with hmem | hmem
        · exact hfresh other (List.mem_cons_of_mem _ hother) hmem
        · obtain rfl := List.mem_singleton.1 (List.mem_filter.1 hmem).1
          exact hkey hother
      obtain ⟨hfilling', hextends'⟩ := ih hnodup hrest hfilling hrun
      rw [List.append_assoc, ← List.filter_append, List.singleton_append] at hfilling'
      exact ⟨hfilling', hextends.trans hextends'⟩

end Loop

/-! ### A call of `clone` -/

/-- What a call has copied is complete again. -/
theorem Filling.complete {objects : List JsObject} {pending : ℕ → Prop} {a c : ℕ} {o : JsObject}
    {s : Snapshot} (h : Filling objects (fun b => pending b ∨ b = a) a c o o.keys s)
    (ho : objects[a]? = some o) :
    Copying objects pending { s with heap := s.heap.modify c JsObject.freeze } := by
  obtain ⟨o', ho', hpartial⟩ := h.filling
  have hlt : c < s.heap.length := lt_of_getElem? ho'
  have hmodify : s.heap.modify c JsObject.freeze = s.heap.set c o'.freeze := by
    rw [List.modify_eq_set_getElem?, ho']
    rfl
  rw [hmodify]
  have hcopying := h.copying.set h.copy (.inr rfl) o'.freeze
  refine ⟨hcopying.originals, hcopying.size, hcopying.fresh, hcopying.injective, hcopying.plain,
    fun b d hd hnot => ?_⟩
  by_cases hb : b = a
  · subst hb
    obtain rfl : c = d := Option.some.inj (h.copy.symm.trans hd)
    exact ⟨o, o'.freeze, ho, List.getElem?_set_self hlt, hpartial.freeze⟩
  · exact hcopying.complete b d hd fun hpending => hpending.elim hnot hb

/-- A call of `clone` with an object that has no copy yet. -/
theorem clone_new {objects : List JsObject} {clone : Value → Copier Value}
    (hclosed : Closed objects) (hclones : Clones objects clone) {pending : ℕ → Prop} {a : ℕ}
    {o : JsObject} {s t : Snapshot} {u : PUnit} (ho : objects[a]? = some o)
    (hplain : o.plain = true) (hnone : s.copies.get a = none) (h : Copying objects pending s)
    (hloop : Attempt.forEach (copyProperty clone a s.heap.length o.isArray) o.ownKeys
      { s with heap := s.heap ++ [o.blank], copies := s.copies.set a s.heap.length } =
        (.ok u, t)) :
    Copying objects pending { t with heap := t.heap.modify s.heap.length JsObject.freeze } ∧
      Extends (fun _ => False) s
        { t with heap := t.heap.modify s.heap.length JsObject.freeze } ∧
      Agrees (fun a c => t.copies.get a = some c) (.object a) (.object s.heap.length) := by
  have hstart : Filling objects (fun b => pending b ∨ b = a) a s.heap.length o []
      { s with heap := s.heap ++ [o.blank], copies := s.copies.set a s.heap.length } :=
    ⟨h.allocate ho hplain hnone o.blank, InsertionMap.get_set_self _ _ _, o.blank,
      List.getElem?_concat_length, partial_blank _ o⟩
  have hnodup : o.ownKeys.Nodup := o.nodup_ownKeys
  obtain ⟨hfilling, hextends⟩ := forEach_filling hclones hclosed ho (.inr rfl) hnodup
    (fun _ _ => List.not_mem_nil) hstart hloop
  rw [List.nil_append, JsObject.filter_ownKeys] at hfilling
  refine ⟨hfilling.complete ho, ⟨?_, ?_, ?_⟩, s.heap.length, hfilling.copy, rfl⟩
  · have hsize := hextends.size
    rw [List.length_append] at hsize
    rw [List.length_modify]
    exact (Nat.le_add_right _ _).trans hsize
  · intro d hd _
    have hne : s.heap.length ≠ d := hd.ne'
    have hlt : d < (s.heap ++ [o.blank]).length := by
      rw [List.length_append]
      exact hd.trans_le (Nat.le_add_right _ _)
    have hsame := hextends.heap d hlt hd.ne
    rw [List.getElem?_append_left hd] at hsame
    exact (List.getElem?_modify_ne JsObject.freeze t.heap hne).trans hsame
  · intro b d hd
    refine hextends.copies b d ?_
    have hb : b ≠ a := by
      rintro rfl
      rw [hnone] at hd
      cases hd
    rw [InsertionMap.get_set_of_ne _ _ hb, hd]

theorem clones_clone {objects : List JsObject} (hclosed : Closed objects) (levels : ℕ) :
    Clones objects (clone levels) := by
  induction levels with
  | zero =>
      intro pending value value' s t hinside h hrun
      cases value with
      | primitive value =>
          obtain ⟨rfl, rfl⟩ : value' = .primitive value ∧ s = t := by
            cases hrun
            exact ⟨rfl, rfl⟩
          exact ⟨h, Extends.refl _ _, rfl⟩
      | symbol id => cases hrun
      | function id => cases hrun
      | object address => cases hrun
  | succ levels ih =>
      intro pending value value' s t hinside h hrun
      cases value with
      | primitive value =>
          obtain ⟨rfl, rfl⟩ : value' = .primitive value ∧ s = t := by
            cases hrun
            exact ⟨rfl, rfl⟩
          exact ⟨h, Extends.refl _ _, rfl⟩
      | symbol id => cases hrun
      | function id => cases hrun
      | object a =>
          unfold clone at hrun
          obtain ⟨object, s', hload, hrun⟩ := Attempt.bind_eq_ok.1 hrun
          obtain rfl : s = s' := congrArg Prod.snd hload
          have hobject : s.heap[a]? = object := Except.ok.inj (congrArg Prod.fst hload)
          rw [h.originals a (hinside a rfl)] at hobject
          cases object with
          | none => cases hrun
          | some o =>
              dsimp only at hrun
              cases hplain : o.plain with
              | false =>
                  rw [hplain] at hrun
                  cases hrun
              | true =>
                  rw [hplain] at hrun
                  obtain ⟨existing, s', hrecall, hrun⟩ := Attempt.bind_eq_ok.1 hrun
                  obtain rfl : s = s' := congrArg Prod.snd hrecall
                  have hexisting : s.copies.get a = existing :=
                    Except.ok.inj (congrArg Prod.fst hrecall)
                  cases existing with
                  | some c =>
                      cases hrun
                      exact ⟨h, Extends.refl _ _, c, hexisting, rfl⟩
                  | none =>
                      obtain ⟨c, s₁, hallocate, hrun⟩ := Attempt.bind_eq_ok.1 hrun
                      cases hallocate
                      obtain ⟨u, s₂, hremember, hrun⟩ := Attempt.bind_eq_ok.1 hrun
                      cases hremember
                      obtain ⟨u', s₃, hloop, hrun⟩ := Attempt.bind_eq_ok.1 hrun
                      obtain ⟨u'', s₄, hfreeze, hrun⟩ := Attempt.bind_eq_ok.1 hrun
                      cases hfreeze
                      cases hrun
                      exact clone_new hclosed ih hobject hplain hexisting h hloop

end Arc.Execution
