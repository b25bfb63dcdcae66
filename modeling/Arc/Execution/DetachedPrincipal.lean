import Arc.Execution.PrincipalCopies

/-!
# A detached principal

Whatever graph of values a principal is, its snapshot either throws or is a graph of its own: of
the same shape, with one object for each that was reached, all of them new and frozen.
-/

namespace Arc.Execution

/-- A principal in a heap whose objects refer to objects of the heap. -/
structure ValueGraph where
  objects : List JsObject
  principal : Value
  closed : Closed objects
  inside : ∀ a, principal = .object a → a < objects.length

/-- A value of a property of an object. -/
def Edge (heap : List JsObject) (value next : Value) : Prop :=
  ∃ a o key property, value = .object a ∧ heap[a]? = some o ∧
    o.properties.get key = some property ∧ property.slot = .data next

def Reaches (heap : List JsObject) : Value → Value → Prop := Relation.ReflTransGen (Edge heap)

/-- A value that is not plain data: a function, a symbol, or an object that is no plain object or
plain array, or that has a property under a symbol, one that is not enumerable, or an accessor. -/
def Unsnapshotable (heap : List JsObject) (value : Value) : Prop :=
  (∃ id, value = .function id) ∨ (∃ id, value = .symbol id) ∨
    ∃ a o, value = .object a ∧ heap[a]? = some o ∧ (o.plain = false ∨
      ∃ key property, o.properties.get key = some property ∧ (key.isSymbol = true ∨
        property.enumerable = false ∨ ∃ getter, property.slot = .accessor getter))

/-- Objects of the same kind and prototype, with the same keys in the same order, whose values
stand for each other. -/
structure SameShape (R : ℕ → ℕ → Prop) (o o' : JsObject) : Prop where
  isArray : o'.isArray = o.isArray
  length : o'.length = o.length
  prototype : o'.prototype = o.prototype
  ownKeys : o'.ownKeys = o.ownKeys
  values : ∀ key property, o.properties.get key = some property →
    ∃ property' value value', o'.properties.get key = some property' ∧
      property.slot = .data value ∧ property'.slot = .data value' ∧ Agrees R value value'

/-- Two graphs are one up to the addresses of their objects, which stand for each other one to
one: sharing and cycles are the same. -/
structure Isomorphism (R : ℕ → ℕ → Prop) (heap heap' : List JsObject) (value value' : Value) :
    Prop where
  functional : ∀ a c c', R a c → R a c' → c = c'
  injective : ∀ a a' c, R a c → R a' c → a = a'
  root : Agrees R value value'
  objects : ∀ a c, R a c → ∃ o o', heap[a]? = some o ∧ heap'[c]? = some o' ∧ SameShape R o o'

/-- What a snapshot is, whatever becomes of the objects that were there before it: a graph of the
same shape, of frozen objects none of which the principal reached. -/
structure Detached (g : ValueGraph) (heap : List JsObject) (value : Value) : Prop where
  originals : ∀ a < g.objects.length, heap[a]? = g.objects[a]?
  isomorphic : ∀ later : List JsObject, (∀ c ≥ g.objects.length, later[c]? = heap[c]?) →
    ∃ R, Isomorphism R g.objects later g.principal value
  frozen : ∀ later : List JsObject, (∀ c ≥ g.objects.length, later[c]? = heap[c]?) →
    ∀ c, Reaches later value (.object c) → ∃ o, later[c]? = some o ∧ o.isFrozen = true
  apart : ∀ later : List JsObject, (∀ c ≥ g.objects.length, later[c]? = heap[c]?) →
    ∀ c, Reaches later value (.object c) → ¬ Reaches g.objects g.principal (.object c)

/-- What `snapshotPrincipal` does with a principal. -/
structure SnapshotLaw (g : ValueGraph) (outcome : Except SnapshotError Value × Snapshot) :
    Prop where
  /-- No accessor is invoked. -/
  invoked : outcome.2.invoked = []
  throws : (∃ value, Reaches g.objects g.principal value ∧ Unsnapshotable g.objects value) →
    ∃ error, outcome.1 = .error error
  returns : ∀ value, outcome.1 = .ok value → Detached g outcome.2.heap value

/-! ### No accessor is invoked -/

/-- What leaves the accessors that were invoked. -/
def Silent {α : Type} (x : Copier α) : Prop := ∀ s, (x s).2.invoked = s.invoked

theorem Silent.bind {α β : Type} {x : Copier α} {f : α → Copier β} (hx : Silent x)
    (hf : ∀ a, Silent (f a)) : Silent (x >>= f) := by
  intro s
  rw [Attempt.bind_apply]
  have hsilent := hx s
  rcases h : x s with ⟨e | a, t⟩
  · rw [h] at hsilent
    exact hsilent
  · rw [h] at hsilent
    rw [Attempt.follow_ok]
    exact (hf a t).trans hsilent

theorem silent_pure {α : Type} (a : α) : Silent (pure a : Copier α) := fun _ => rfl

theorem silent_fail {α : Type} (e : SnapshotError) : Silent (Attempt.fail e : Copier α) :=
  fun _ => rfl

theorem silent_defineProperty (address : ℕ) (key : PropertyKey) (value : Value) :
    Silent (defineProperty address key value) := by
  intro s
  unfold defineProperty
  split <;> rfl

theorem silent_forEach {body : PropertyKey → Copier PUnit} (h : ∀ key, Silent (body key)) :
    ∀ keys, Silent (Attempt.forEach body keys)
  | [] => fun _ => rfl
  | key :: keys => (h key).bind fun _ => silent_forEach h keys

theorem silent_copyProperty {clone : Value → Copier Value} (h : ∀ value, Silent (clone value))
    (address copy : ℕ) (array : Bool) (key : PropertyKey) :
    Silent (copyProperty clone address copy array key) := by
  unfold copyProperty
  split
  · exact silent_pure _
  · refine Silent.bind (fun _ => rfl) fun object => ?_
    split
    · split
      · exact silent_fail _
      · exact (h _).bind fun _ => silent_defineProperty _ _ _
    · exact silent_fail _

theorem silent_clone (levels : ℕ) (value : Value) : Silent (clone levels value) := by
  induction levels generalizing value with
  | zero => cases value <;> first | exact silent_pure _ | exact silent_fail _
  | succ levels ih =>
      cases value with
      | primitive value => exact silent_pure _
      | symbol id => exact silent_fail _
      | function id => exact silent_fail _
      | object address =>
          unfold clone
          refine Silent.bind (fun _ => rfl) fun object => ?_
          cases object with
          | none => exact silent_fail _
          | some o =>
              dsimp only
              split
              · exact silent_fail _
              · refine Silent.bind (fun _ => rfl) fun existing => ?_
                cases existing with
                | some c => exact silent_pure _
                | none =>
                    refine Silent.bind (fun _ => rfl) fun copy => ?_
                    refine Silent.bind (fun _ => rfl) fun _ => ?_
                    refine Silent.bind (silent_forEach (fun key =>
                      silent_copyProperty ih _ _ _ key) _) fun _ => ?_
                    exact Silent.bind (fun _ => rfl) fun _ => silent_pure _

/-! ### The copies of a finished call -/

section Finished

variable {objects : List JsObject} {t : Snapshot} (h : Copying objects (fun _ => False) t)

include h

theorem Copying.copyOf {a c : ℕ} (hget : t.copies.get a = some c) :
    ∃ o o', objects[a]? = some o ∧ o.plain = true ∧ t.heap[c]? = some o' ∧
      CopyOf (fun a c => t.copies.get a = some c) o o' := by
  obtain ⟨o, o', ho, ho', hof⟩ := h.complete a c hget not_false
  obtain ⟨o₁, ho₁, hplain⟩ := h.plain a c hget
  obtain rfl : o = o₁ := Option.some.inj (ho.symm.trans ho₁)
  exact ⟨o, o', ho, hplain, ho', hof⟩

end Finished

namespace CopyOf

variable {R : ℕ → ℕ → Prop} {o o' : JsObject} (h : CopyOf R o o')

include h

theorem get {key : PropertyKey} {property : Property}
    (hget : o.properties.get key = some property) :
    key.isSymbol = false ∧ property.enumerable = true ∧ ∃ value value',
      property.slot = .data value ∧ o'.properties.get key = some (copied value' false) ∧
        Agrees R value value' := by
  have hkey : key ∈ o.keys := JsObject.mem_keys.2 (InsertionMap.mem_keys_iff.2 ⟨property, hget⟩)
  obtain ⟨hsymbol, property', value, value', hget', hslot, henumerable, hcopy, hagrees⟩ :=
    h.filled key hkey
  obtain rfl : property' = property := Option.some.inj (hget'.symm.trans hget)
  exact ⟨hsymbol, henumerable, value, value', hslot, hcopy, hagrees⟩

theorem get_copy {key : PropertyKey} {property' : Property}
    (hget : o'.properties.get key = some property') :
    ∃ property value value', o.properties.get key = some property ∧
      property.slot = .data value ∧ property'.slot = .data value' ∧ Agrees R value value' := by
  have hkey : key ∈ o.keys := by
    rw [← h.keys]
    exact InsertionMap.mem_keys_iff.2 ⟨property', hget⟩
  obtain ⟨-, property, value, value', hget', hslot, -, hcopy, hagrees⟩ := h.filled key hkey
  obtain rfl : copied value' false = property' := Option.some.inj (hcopy.symm.trans hget)
  exact ⟨property, value, value', hget', hslot, rfl, hagrees⟩

theorem sameShape : SameShape R o o' := by
  refine ⟨h.isArray, h.length, h.prototype, JsObject.ownKeys_of_keys h.isArray h.keys,
    fun key property hget => ?_⟩
  obtain ⟨-, -, value, value', hslot, hcopy, hagrees⟩ := h.get hget
  exact ⟨_, value, value', hcopy, hslot, rfl, hagrees⟩

end CopyOf

/-- Copies in a heap in which no copy was changed. -/
structure Finished (objects later : List JsObject) (t : Snapshot) : Prop where
  copying : Copying objects (fun _ => False) t
  same : ∀ c ≥ objects.length, later[c]? = t.heap[c]?

namespace Finished

variable {objects later : List JsObject} {t : Snapshot} (h : Finished objects later t)

include h

theorem copyOf {a c : ℕ} (hget : t.copies.get a = some c) :
    ∃ o o', objects[a]? = some o ∧ o.plain = true ∧ later[c]? = some o' ∧
      CopyOf (fun a c => t.copies.get a = some c) o o' := by
  obtain ⟨o, o', ho, hplain, ho', hof⟩ := h.copying.copyOf hget
  exact ⟨o, o', ho, hplain, (h.same c (h.copying.fresh a c hget).1).trans ho', hof⟩

theorem edge {value next value' : Value} (hedge : Edge objects value next)
    (hagrees : Agrees (fun a c => t.copies.get a = some c) value value') :
    ∃ next', Edge later value' next' ∧ Agrees (fun a c => t.copies.get a = some c) next next' := by
  obtain ⟨a, o, key, property, rfl, ho, hget, hslot⟩ := hedge
  obtain ⟨c, hcopy, rfl⟩ := hagrees
  obtain ⟨o₁, o', ho₁, -, ho', hof⟩ := h.copyOf hcopy
  obtain rfl : o = o₁ := Option.some.inj (ho.symm.trans ho₁)
  obtain ⟨-, -, v, v', hslot', hget', hagrees⟩ := hof.get hget
  obtain rfl : next = v := Slot.data.inj (hslot.symm.trans hslot')
  exact ⟨v', ⟨c, o', key, _, rfl, ho', hget', rfl⟩, hagrees⟩

theorem edge_copy {value value' next' : Value} (hedge : Edge later value' next')
    (hagrees : Agrees (fun a c => t.copies.get a = some c) value value') :
    ∃ next, Edge objects value next ∧ Agrees (fun a c => t.copies.get a = some c) next next' := by
  obtain ⟨c, o', key, property', rfl, ho', hget', hslot'⟩ := hedge
  cases value with
  | primitive value => cases hagrees
  | symbol id => cases hagrees
  | function id => cases hagrees
  | object a =>
      obtain ⟨c', hcopy, hvalue⟩ := hagrees
      cases hvalue
      obtain ⟨o, o₁, ho, -, ho₁, hof⟩ := h.copyOf hcopy
      obtain rfl : o' = o₁ := Option.some.inj (ho'.symm.trans ho₁)
      obtain ⟨property, v, v', hget, hslot, hcopied, hagrees⟩ := hof.get_copy hget'
      obtain rfl : next' = v' := Slot.data.inj (hslot'.symm.trans hcopied)
      exact ⟨v, ⟨a, o, key, property, rfl, ho, hget, hslot⟩, hagrees⟩

/-- What is reached has a copy. -/
theorem reaches {value next value' : Value} (hreaches : Reaches objects value next)
    (hagrees : Agrees (fun a c => t.copies.get a = some c) value value') :
    ∃ next', Agrees (fun a c => t.copies.get a = some c) next next' := by
  induction hreaches with
  | refl => exact ⟨value', hagrees⟩
  | tail _ hedge ih =>
      obtain ⟨next', hnext⟩ := ih
      obtain ⟨last', -, hlast⟩ := h.edge hedge hnext
      exact ⟨last', hlast⟩

/-- What a snapshot reaches is a copy. -/
theorem reaches_copy {value value' next' : Value} (hreaches : Reaches later value' next')
    (hagrees : Agrees (fun a c => t.copies.get a = some c) value value') :
    ∃ next, Agrees (fun a c => t.copies.get a = some c) next next' := by
  induction hreaches with
  | refl => exact ⟨value, hagrees⟩
  | tail _ hedge ih =>
      obtain ⟨next, hnext⟩ := ih
      obtain ⟨last, -, hlast⟩ := h.edge_copy hedge hnext
      exact ⟨last, hlast⟩

end Finished

theorem agrees_object {R : ℕ → ℕ → Prop} {value : Value} {c : ℕ}
    (h : Agrees R value (.object c)) : ∃ a, R a c := by
  cases value with
  | primitive value => cases h
  | symbol id => cases h
  | function id => cases h
  | object a =>
      obtain ⟨c', hR, hvalue⟩ := h
      cases hvalue
      exact ⟨a, hR⟩

/-- What has a copy is plain data. -/
theorem snapshotable_of_agrees {objects : List JsObject} {t : Snapshot}
    (h : Copying objects (fun _ => False) t) {value value' : Value}
    (hagrees : Agrees (fun a c => t.copies.get a = some c) value value') :
    ¬ Unsnapshotable objects value := by
  rintro (⟨id, rfl⟩ | ⟨id, rfl⟩ | ⟨a, o, rfl, ho, hbad⟩)
  · cases hagrees
  · cases hagrees
  · obtain ⟨c, hcopy, -⟩ := hagrees
    obtain ⟨o₁, o', ho₁, hplain, -, hof⟩ := h.copyOf hcopy
    obtain rfl : o = o₁ := Option.some.inj (ho.symm.trans ho₁)
    rcases hbad with hplain' | ⟨key, property, hget, hbad⟩
    · rw [hplain] at hplain'
      cases hplain'
    · obtain ⟨hsymbol, henumerable, value, value', hslot, -, -⟩ := hof.get hget
      rcases hbad with hbad | hbad | ⟨getter, hbad⟩
      · rw [hsymbol] at hbad
        cases hbad
      · rw [henumerable] at hbad
        cases hbad
      · rw [hslot] at hbad
        cases hbad

/-! ### Whether a copy is a principal -/

/-- What leaves the state as it is. -/
def Steady {α : Type} (x : Copier α) (t : Snapshot) : Prop := (x t).2 = t

theorem Steady.bind {α β : Type} {x : Copier α} {f : α → Copier β} {t : Snapshot}
    (hx : Steady x t) (hf : ∀ a, x t = (.ok a, t) → Steady (f a) t) : Steady (x >>= f) t := by
  unfold Steady at hx ⊢
  rw [Attempt.bind_apply]
  rcases h : x t with ⟨e | a, u⟩
  · rw [h] at hx
    exact hx
  · rw [h] at hx
    obtain rfl : u = t := hx
    rw [Attempt.follow_ok]
    exact hf a h

/-- Every property of an object is a data property. -/
def DataOnly (t : Snapshot) (c : ℕ) : Prop :=
  ∀ o, t.heap[c]? = some o → ∀ key property, o.properties.get key = some property →
    ∃ value, property.slot = .data value

theorem steady_read {t : Snapshot} {c : ℕ} (h : DataOnly t c) (key : PropertyKey) :
    Steady (read c key) t := by
  unfold Steady read
  split
  · rfl
  · rename_i getter _ _ _ hget
    obtain ⟨o, ho, hproperty⟩ := Option.bind_eq_some_iff.1 hget
    obtain ⟨value, hslot⟩ := h o ho key _ hproperty
    cases hslot
  · rfl

theorem steady_everyString {t : Snapshot} {c : ℕ} (h : DataOnly t c) (o : JsObject) :
    Steady (everyString c o) t := by
  have hevery : ∀ keys, Steady (everyString.everyIndex c keys) t := by
    intro keys
    induction keys with
    | nil => rfl
    | cons key keys ih =>
        unfold everyString.everyIndex
        refine (steady_read h key).bind fun value _ => ?_
        cases value with
        | none => exact ih
        | some value =>
            dsimp only
            split
            · exact ih
            · rfl
  unfold everyString
  refine (steady_read h _).bind fun every _ => ?_
  cases every with
  | none => exact hevery _
  | some value => rfl

theorem Copying.dataOnly {objects : List JsObject} {t : Snapshot}
    (h : Copying objects (fun _ => False) t) {a c : ℕ} (hget : t.copies.get a = some c) :
    DataOnly t c := by
  intro o ho key property hproperty
  obtain ⟨original, copy, -, -, hcopy, hof⟩ := h.copyOf hget
  obtain rfl : o = copy := Option.some.inj (ho.symm.trans hcopy)
  obtain ⟨-, -, value', -, -, hslot, -⟩ := hof.get_copy hproperty
  exact ⟨value', hslot⟩

/-- Looking at a copy invokes nothing. -/
theorem steady_identified {objects : List JsObject} {t : Snapshot}
    (h : Copying objects (fun _ => False) t) {a c : ℕ} (hget : t.copies.get a = some c) :
    Steady (identified c) t := by
  have hdata := h.dataOnly hget
  unfold identified
  refine (steady_read hdata _).bind fun id _ => ?_
  split
  · rfl
  refine (steady_read hdata _).bind fun isAuthenticated _ => ?_
  split
  · rfl
  refine (steady_read hdata _).bind fun roles hroles => ?_
  split
  · rename_i d
    refine Steady.bind rfl fun object _ => ?_
    cases object with
    | none => rfl
    | some o =>
        dsimp only
        split
        · -- the roles are a copy, too
          refine steady_everyString ?_ o
          unfold read at hroles
          split at hroles
          · rename_i value _ _ _ hproperty
            cases hroles
            obtain ⟨copy, hcopy, hkey⟩ := Option.bind_eq_some_iff.1 hproperty
            obtain ⟨original, copy', -, -, hcopy', hof⟩ := h.copyOf hget
            obtain rfl : copy = copy' := Option.some.inj (hcopy.symm.trans hcopy')
            obtain ⟨property, value, value', -, -, hslot, hagrees⟩ := hof.get_copy hkey
            obtain rfl : Value.object d = value' := Slot.data.inj hslot
            obtain ⟨b, hb⟩ := agrees_object hagrees
            exact h.dataOnly hb
          · cases hroles
          · cases hroles
        · rfl
  · rfl

/-! ### The snapshot -/

/-- The heap before a snapshot. -/
def ValueGraph.start (g : ValueGraph) : Snapshot := ⟨g.objects, InsertionMap.empty, []⟩

theorem ValueGraph.copying_start (g : ValueGraph) :
    Copying g.objects (fun _ => False) g.start where
  originals _ _ := rfl
  size := le_rfl
  fresh _ _ hget := nomatch hget
  injective _ _ _ hget := nomatch hget
  plain _ _ hget := nomatch hget
  complete _ _ hget := nomatch hget

/-- What a finished call of `clone` answers is detached. -/
theorem detached {g : ValueGraph} {t : Snapshot} {value : Value}
    (h : Copying g.objects (fun _ => False) t)
    (hagrees : Agrees (fun a c => t.copies.get a = some c) g.principal value) :
    Detached g t.heap value := by
  refine ⟨h.originals, fun later hsame => ?_, fun later hsame c hreaches => ?_,
    fun later hsame c hreaches horiginal => ?_⟩
  · have hfinished : Finished g.objects later t := ⟨h, hsame⟩
    refine ⟨fun a c => t.copies.get a = some c, ?_, h.injective, hagrees, fun a c hget => ?_⟩
    · intro a c c' hc hc'
      exact Option.some.inj (hc.symm.trans hc')
    · obtain ⟨o, o', ho, -, ho', hof⟩ := hfinished.copyOf hget
      exact ⟨o, o', ho, ho', hof.sameShape⟩
  · have hfinished : Finished g.objects later t := ⟨h, hsame⟩
    obtain ⟨next, hnext⟩ := hfinished.reaches_copy hreaches hagrees
    obtain ⟨a, hget⟩ := agrees_object hnext
    obtain ⟨o, o', -, -, ho', hof⟩ := hfinished.copyOf hget
    exact ⟨o', ho', hof.frozen⟩
  · have hfinished : Finished g.objects later t := ⟨h, hsame⟩
    obtain ⟨next, hnext⟩ := hfinished.reaches_copy hreaches hagrees
    obtain ⟨a, hget⟩ := agrees_object hnext
    have hfresh := (h.fresh a c hget).1
    obtain ⟨next', c', hcopy, -⟩ := hfinished.reaches horiginal hagrees
    obtain ⟨o, o', ho, -⟩ := h.copyOf hcopy
    exact absurd (lt_of_getElem? ho) (not_lt.2 hfresh)

end Arc.Execution
