import Arc.Chronicle.ChronicleReadModels

/-!
# What an observation converges to

The changes still queued turn the observed map into the store, key by key, except at the
keys missed between the snapshot and the subscription: `Synchronized` says so for every
stage, and each event keeps it. Once nothing is queued, the last emitted list is the store
at every key that was not missed.
-/

namespace Arc.Chronicle.ReadModelObservation

variable {T : Type*} {key : T → String} {id : Option String}

/-- The keys an observation shows. -/
def Shows (id : Option String) (k : String) : Prop := ∀ i ∈ id, k = i

/-- The map after the changes still queued have been handled. -/
def settled (id : Option String) (o : ReadModelObservation key) : InsertionMap String T :=
  o.changes.foldl (fun models c => if concerns id c then c.apply models else models) o.current

/-! ### Maps of models -/

theorem mem_values {models : InsertionMap String T} (h : Keyed key models) (m : T) :
    m ∈ values models ↔ models.get (key m) = some m := by
  rw [values, List.mem_map, InsertionMap.get_eq_some_iff]
  constructor
  · rintro ⟨⟨k, n⟩, hmem, rfl⟩
    rwa [h k n (InsertionMap.get_eq_some_iff.2 hmem)]
  · exact fun hmem => ⟨(key m, m), hmem, rfl⟩

/-- The models of a keyed map have distinct keys. -/
theorem nodup_values {models : InsertionMap String T} (h : Keyed key models) :
    ((values models).map key).Nodup := by
  have hkeys : (values models).map key = models.keys := by
    rw [values, List.map_map]
    refine List.map_congr_left fun e he => ?_
    exact h e.1 e.2 (InsertionMap.get_eq_some_iff.2 he)
  rw [hkeys]
  exact models.nodup_keys

/-- Indexing adds, in turn, each item whose key is not taken again. -/
theorem get_foldl_set (select : T → String) (items : List T) (models : InsertionMap String T)
    (hnodup : (items.map select).Nodup) (k : String) (m : T) :
    (items.foldl (fun current item => current.set (select item) item) models).get k = some m ↔
      (m ∈ items ∧ select m = k) ∨ (k ∉ items.map select ∧ models.get k = some m) := by
  induction items generalizing models with
  | nil => simp
  | cons item items ih =>
      rw [List.map_cons, List.nodup_cons] at hnodup
      rw [List.foldl_cons, ih _ hnodup.2]
      by_cases hk : k = select item
      · subst hk
        rw [InsertionMap.get_set_self]
        constructor
        · rintro (⟨hm, hs⟩ | ⟨-, hm⟩)
          · exact Or.inl ⟨List.mem_cons_of_mem _ hm, hs⟩
          · obtain rfl := Option.some.inj hm
            exact Or.inl ⟨List.mem_cons_self, rfl⟩
        · rintro (⟨hm, hs⟩ | ⟨hk, -⟩)
          · rcases List.mem_cons.1 hm with rfl | hm
            · exact Or.inr ⟨hnodup.1, rfl⟩
            · exact Or.inl ⟨hm, hs⟩
          · simp at hk
      · rw [InsertionMap.get_set_of_ne _ _ hk]
        have hne : ∀ m, select m = k → m ≠ item := by
          rintro m rfl rfl
          exact hk rfl
        simp only [List.mem_cons, List.map_cons, not_or]
        constructor
        · rintro (⟨hm, hs⟩ | ⟨hk', hm⟩)
          · exact Or.inl ⟨Or.inr hm, hs⟩
          · exact Or.inr ⟨⟨hk, hk'⟩, hm⟩
        · rintro (⟨hm | hm, hs⟩ | ⟨hk', hm⟩)
          · exact absurd hm (hne m hs)
          · exact Or.inl ⟨hm, hs⟩
          · exact Or.inr ⟨hk'.2, hm⟩

theorem get_index (select : T → String) {items : List T} (h : (items.map select).Nodup)
    (k : String) (m : T) : (index select items).get k = some m ↔ m ∈ items ∧ select m = k := by
  rw [index, get_foldl_set select items .empty h]
  simp

theorem selector_eq {m : T} (h : Shows id (key m)) : selector key id m = key m := by
  cases id with
  | none => rfl
  | some i => exact (h i rfl).symm

theorem map_selector {items : List T} (h : ∀ m ∈ items, Shows id (key m)) :
    items.map (selector key id) = items.map key :=
  List.map_congr_left fun m hm => selector_eq (h m hm)

/-! ### What is read from the store -/

theorem mem_read {store : ReadModelStore key} {m : T} :
    m ∈ store.read id ↔ store.models.get (key m) = some m ∧ Shows id (key m) := by
  cases id with
  | none =>
      rw [ReadModelStore.read]
      exact (mem_values store.keyed m).trans ⟨fun h => ⟨h, fun i hi => by cases hi⟩, fun h => h.1⟩
  | some i =>
      rw [ReadModelStore.read, Option.mem_toList]
      constructor
      · intro h
        have hkey := store.keyed i m h
        rw [hkey]
        exact ⟨h, fun j hj => Option.some.inj hj⟩
      · rintro ⟨h, hshows⟩
        rwa [hshows i rfl] at h

theorem nodup_read (store : ReadModelStore key) : ((store.read id).map key).Nodup := by
  cases id with
  | none => exact nodup_values store.keyed
  | some i =>
      rw [ReadModelStore.read]
      cases store.models.get i <;> simp

/-! ### The invariant -/

/-- The items of a snapshot are the store at the keys that were not missed since. -/
structure Snapshot (id : Option String) (store : ReadModelStore key) (missed : List String)
    (items : List T) : Prop where
  nodup : (items.map key).Nodup
  shown : ∀ m ∈ items, Shows id (key m)
  agrees : ∀ m, Shows id (key m) → key m ∉ missed →
    (m ∈ items ↔ store.models.get (key m) = some m)

/-- The observed map is the store, key by key, once the queued changes are handled. -/
def Agrees (id : Option String) (o : ReadModelObservation key) : Prop :=
  ∀ k, Shows id k → k ∉ o.missed → (settled id o).get k = o.store.models.get k

/-- How far the observed map is from the store, by stage. -/
def Synchronized (id : Option String) (o : ReadModelObservation key) : Prop :=
  match o.stage with
  | .reading => o.missed = []
  | .read items => Snapshot id o.store o.missed items
  | .subscribing | .watching => Agrees id o
  | .ended => True

/-- The observed map shows only what is observed, each model under its key, and the last
emitted list is its values. -/
structure Emits (id : Option String) (o : ReadModelObservation key) : Prop where
  keyed : Keyed key o.current
  shown : ∀ k m, o.current.get k = some m → Shows id k
  queued : ∀ c ∈ o.changes, c.key ≠ "" → c.Fits key
  idle : o.stage ≠ .watching → o.stage ≠ .ended → o.changes = []
  distinct : ∀ items ∈ o.emitted, (items.map (selector key id)).Nodup
  last : o.stage = .subscribing ∨ o.stage = .watching → o.stopped = false →
    o.emitted.getLast? = some (values o.current)

theorem concerns_iff {c : ReadModelChangeset T} :
    concerns id c = true ↔ c.key ≠ "" ∧ Shows id c.key := by
  rw [concerns, Bool.and_eq_true, decide_eq_true_iff]
  cases id <;> simp [Shows]

theorem nodup_emitted {models : InsertionMap String T} (hkeyed : Keyed key models)
    (hshown : ∀ k m, models.get k = some m → Shows id k) :
    ((values models).map (selector key id)).Nodup := by
  rw [map_selector]
  · exact nodup_values hkeyed
  · intro m hm
    exact hshown _ m ((mem_values hkeyed m).1 hm)

/-! ### Emitting and handling -/

@[simp] theorem store_emit (o : ReadModelObservation key) : o.emit.store = o.store := by
  rw [emit]
  split_ifs <;> rfl

@[simp] theorem stage_emit (o : ReadModelObservation key) : o.emit.stage = o.stage := by
  rw [emit]
  split_ifs <;> rfl

@[simp] theorem current_emit (o : ReadModelObservation key) : o.emit.current = o.current := by
  rw [emit]
  split_ifs <;> rfl

@[simp] theorem changes_emit (o : ReadModelObservation key) : o.emit.changes = o.changes := by
  rw [emit]
  split_ifs <;> rfl

@[simp] theorem missed_emit (o : ReadModelObservation key) : o.emit.missed = o.missed := by
  rw [emit]
  split_ifs <;> rfl

/-- Whatever was emitted before, emitting makes the last list the observed one. -/
theorem Emits.emit {o : ReadModelObservation key} (hkeyed : Keyed key o.current)
    (hshown : ∀ k m, o.current.get k = some m → Shows id k)
    (hqueued : ∀ c ∈ o.changes, c.key ≠ "" → c.Fits key)
    (hidle : o.stage ≠ .watching → o.stage ≠ .ended → o.changes = [])
    (hdistinct : ∀ items ∈ o.emitted, (items.map (selector key id)).Nodup) :
    Emits id o.emit := by
  rw [ReadModelObservation.emit]
  split_ifs with hstopped
  · exact ⟨hkeyed, hshown, hqueued, hidle, hdistinct,
      fun _ h => absurd (hstopped.symm.trans h) (by decide)⟩
  · refine ⟨hkeyed, hshown, hqueued, hidle, ?_, fun _ _ => List.getLast?_concat⟩
    intro items hitems
    rcases List.mem_append.1 hitems with hitems | hitems
    · exact hdistinct items hitems
    · obtain rfl := List.mem_singleton.1 hitems
      exact nodup_emitted hkeyed hshown

/-- Handling the first queued change leads to the same map. -/
theorem settled_next {o : ReadModelObservation key} {c : ReadModelChangeset T}
    {changes : List (ReadModelChangeset T)} (h : o.changes = c :: changes) :
    settled id (next id c { o with changes := changes }) = settled id o := by
  rw [settled, settled, h, List.foldl_cons, next]
  split_ifs <;> simp

theorem Emits.next {o : ReadModelObservation key} {c : ReadModelChangeset T}
    {changes : List (ReadModelChangeset T)} (hstage : o.stage = .watching) (ho : Emits id o)
    (h : o.changes = c :: changes) :
    Emits id (next id c { o with changes := changes }) := by
  have hqueued : ∀ c' ∈ changes, c'.key ≠ "" → c'.Fits key :=
    fun c' hc' => ho.queued c' (h ▸ List.mem_cons_of_mem _ hc')
  rw [ReadModelObservation.next]
  split_ifs with hconcerns
  · obtain ⟨hname, hshows⟩ := concerns_iff.1 hconcerns
    have hfits := ho.queued c (h ▸ List.mem_cons_self) hname
    refine Emits.emit (ho.keyed.apply hfits) ?_ hqueued (fun h => absurd hstage h) ho.distinct
    intro k m hm
    by_cases hk : k = c.key
    · exact hk ▸ hshows
    · rw [c.get_apply_of_ne _ hk] at hm
      exact ho.shown k m hm
  · exact ⟨ho.keyed, ho.shown, hqueued, fun h => absurd hstage h, ho.distinct, ho.last⟩

theorem Synchronized.next {o : ReadModelObservation key} {c : ReadModelChangeset T}
    {changes : List (ReadModelChangeset T)} (hstage : o.stage = .watching)
    (ho : Synchronized id o) (h : o.changes = c :: changes) :
    Synchronized id (next id c { o with changes := changes }) := by
  have hsettled : settled id (ReadModelObservation.next id c { o with changes := changes }) =
      settled id o := settled_next h
  rw [Synchronized, hstage] at ho
  have hwatching : (ReadModelObservation.next id c { o with changes := changes }).stage =
      .watching := by
    rw [ReadModelObservation.next]
    split_ifs <;> simp [hstage]
  rw [Synchronized, hwatching]
  intro k hk hmissed
  rw [hsettled]
  have hsame : (ReadModelObservation.next id c { o with changes := changes }).store = o.store ∧
      (ReadModelObservation.next id c { o with changes := changes }).missed = o.missed := by
    rw [ReadModelObservation.next]
    split_ifs <;> simp
  rw [hsame.2] at hmissed
  rw [hsame.1]
  exact ho k hk hmissed

/-! ### Changes of the store -/

theorem get_change_of_ne (store : ReadModelStore key) {c : ReadModelChangeset T}
    (h : c.Fits key) {k : String} (hk : k ≠ c.key) :
    (store.change c h).models.get k = store.models.get k :=
  c.get_apply_of_ne store.models hk

theorem Synchronized.change {o : ReadModelObservation key} {c : ReadModelChangeset T}
    (ho : Synchronized id o) (h : c.Fits key) : Synchronized id (o.change c h) := by
  have hstage : (o.change c h).stage = o.stage := rfl
  rw [Synchronized, hstage]
  rw [Synchronized] at ho
  cases hs : o.stage with
  | reading =>
      rw [hs] at ho
      simpa [ReadModelObservation.change, hs, miss] using ho
  | read items =>
      rw [hs] at ho
      refine ⟨ho.nodup, ho.shown, ?_⟩
      intro m hm hmissed
      have hmissed' : key m ∉ c.key :: o.missed := by
        simpa [ReadModelObservation.change, hs, miss] using hmissed
      rw [List.mem_cons, not_or] at hmissed'
      rw [ho.agrees m hm hmissed'.2]
      exact iff_of_eq (congrArg (· = some m) (get_change_of_ne o.store h hmissed'.1).symm)
  | subscribing =>
      rw [hs] at ho
      have hchanges : (o.change c h).changes = o.changes := by
        simp [ReadModelObservation.change, hs]
      intro k hk hmissed
      have hmissed' : k ∉ c.key :: o.missed := by
        simpa [ReadModelObservation.change, hs, miss] using hmissed
      rw [List.mem_cons, not_or] at hmissed'
      rw [settled, hchanges]
      exact (ho k hk hmissed'.2).trans (get_change_of_ne o.store h hmissed'.1).symm
  | watching =>
      rw [hs] at ho
      intro k hk hmissed
      have hsettled : settled id (o.change c h) =
          if concerns id c then c.apply (settled id o) else settled id o := by
        simp [settled, ReadModelObservation.change, hs, List.foldl_append]
      rw [hsettled]
      by_cases hname : k = c.key
      · subst hname
        rw [if_pos (concerns_iff.2 ⟨h.1, hk⟩), c.get_apply_self]
        exact (c.get_apply_self o.store.models).symm
      · have hmissed' : k ∉ o.missed := by
          simpa [ReadModelObservation.change, hs, miss, hname] using hmissed
        have hget : (if concerns id c then c.apply (settled id o) else settled id o).get k =
            (settled id o).get k := by
          split_ifs
          · exact c.get_apply_of_ne _ hname
          · rfl
        rw [hget, ho k hk hmissed']
        exact (get_change_of_ne o.store h hname).symm
  | ended => trivial

theorem Emits.change {o : ReadModelObservation key} {c : ReadModelChangeset T}
    (ho : Emits id o) (h : c.Fits key) : Emits id (o.change c h) := by
  refine ⟨ho.keyed, ho.shown, ?_, ?_, ho.distinct, ho.last⟩
  · intro c' hc' hname
    cases hs : o.stage with
    | watching =>
        have hmem : c' ∈ o.changes ++ [c] := by
          simpa [ReadModelObservation.change, hs] using hc'
        rcases List.mem_append.1 hmem with hmem | hmem
        · exact ho.queued c' hmem hname
        · exact List.mem_singleton.1 hmem ▸ h
    | _ => exact ho.queued c' (by simpa [ReadModelObservation.change, hs] using hc') hname
  · intro hwatching hended
    have hsame : (o.change c h).changes = o.changes := by
      rw [ReadModelObservation.change]
      split
      · next hs => exact absurd hs hwatching
      · rfl
    exact hsame.trans (ho.idle hwatching hended)

/-! ### The snapshot -/

theorem Snapshot.of_read {store : ReadModelStore key} {items : List T}
    (missed : List String) (h : items.Perm (store.read id)) :
    Snapshot id store missed items := by
  refine ⟨(h.map key).nodup_iff.2 (nodup_read store), ?_, ?_⟩
  · exact fun m hm => (mem_read.1 (h.mem_iff.1 hm)).2
  · intro m hshows _
    rw [h.mem_iff, mem_read]
    exact and_iff_left hshows

/-- What indexing a snapshot keeps under a key. -/
theorem Snapshot.get_index {store : ReadModelStore key} {missed : List String}
    {items : List T} (h : Snapshot id store missed items) (k : String) (m : T) :
    (index (selector key id) items).get k = some m ↔ m ∈ items ∧ key m = k := by
  have hselected := map_selector h.shown
  rw [ReadModelObservation.get_index _ (hselected ▸ h.nodup)]
  exact and_congr_right fun hm => by rw [selector_eq (h.shown m hm)]

theorem Emits.returned {o : ReadModelObservation key} {items : List T}
    (ho : Emits id o) (hs : o.stage = .read items) (h : Snapshot id o.store o.missed items) :
    Emits id (o.returned id items) := by
  have hchanges : o.changes = [] := ho.idle (by rw [hs]; simp) (by rw [hs]; simp)
  have hemits : Emits id ({ o with
      current := index (selector key id) items, stage := .subscribing }).emit := by
    refine Emits.emit ?_ ?_ ho.queued (fun _ _ => hchanges) ho.distinct
    · exact fun k m hm => ((h.get_index k m).1 hm).2
    · intro k m hm
      obtain ⟨hmem, rfl⟩ := (h.get_index k m).1 hm
      exact h.shown m hmem
  have heq : o.returned id items = ({ o with
      current := index (selector key id) items, stage := .subscribing }).emit := by
    simp only [ReadModelObservation.returned, ReadModelObservation.emit]
    split_ifs <;> rfl
  rw [heq]
  exact hemits

theorem Synchronized.returned {o : ReadModelObservation key} {items : List T}
    (hchanges : o.changes = []) (h : Snapshot id o.store o.missed items) :
    Synchronized id (o.returned id items) := by
  show Agrees id (o.returned id items)
  intro k hk hmissed
  have hstore : (o.returned id items).store = o.store := by simp [ReadModelObservation.returned]
  have hsettled : settled id (o.returned id items) = index (selector key id) items := by
    simp [settled, ReadModelObservation.returned, hchanges]
  have hmissed' : k ∉ o.missed := by simpa [ReadModelObservation.returned] using hmissed
  rw [hstore, hsettled]
  ext m
  rw [h.get_index]
  constructor
  · rintro ⟨hm, rfl⟩
    exact (h.agrees m hk hmissed').1 hm
  · intro hm
    obtain rfl := o.store.keyed k m hm
    exact ⟨(h.agrees m hk hmissed').2 hm, rfl⟩

/-! ### Runs -/

/-- Both invariants are kept by every event. -/
theorem step_keeps [DecidableEq T] {o t : ReadModelObservation key} {e : ReadModelEvent T}
    (hsync : Synchronized id o) (hemits : Emits id o) (h : step id o e = some t) :
    Synchronized id t ∧ Emits id t := by
  cases e with
  | change c =>
      rw [step] at h
      split_ifs at h with hfits
      obtain rfl := Option.some.inj h
      exact ⟨hsync.change hfits, hemits.change hfits⟩
  | snapshot items =>
      rw [step] at h
      split at h
      · next hs =>
          split_ifs at h with hperm
          obtain rfl := Option.some.inj h
          refine ⟨Snapshot.of_read o.missed hperm, hemits.keyed, hemits.shown, hemits.queued, ?_,
            hemits.distinct, ?_⟩
          · exact fun _ _ => hemits.idle (by rw [hs]; simp) (by rw [hs]; simp)
          · rintro (hstage | hstage) <;> cases hstage
      · cases h
  | returned =>
      rw [step] at h
      split at h
      · next items hs =>
          obtain rfl := Option.some.inj h
          rw [Synchronized, hs] at hsync
          split_ifs with hstopped
          · refine ⟨trivial, hemits.keyed, hemits.shown, hemits.queued, ?_, hemits.distinct, ?_⟩
            · exact fun _ hended => absurd rfl hended
            · rintro (hstage | hstage) <;> cases hstage
          · have hchanges := hemits.idle (by rw [hs]; simp) (by rw [hs]; simp)
            exact ⟨Synchronized.returned hchanges hsync, hemits.returned hs hsync⟩
      · cases h
  | subscribed marker =>
      rw [step] at h
      split at h
      · next hs =>
          obtain rfl := Option.some.inj h
          have hchanges := hemits.idle (by rw [hs]; simp) (by rw [hs]; simp)
          rw [Synchronized, hs] at hsync
          refine ⟨?_, hemits.keyed, hemits.shown, ?_, fun h => absurd rfl h, hemits.distinct,
            fun _ hstopped => hemits.last (Or.inl hs) hstopped⟩
          · intro k hk hmissed
            rw [← hsync k hk hmissed]
            cases marker <;> simp [settled, hchanges, concerns]
          · intro c hc hname
            cases marker <;> simp at hc
            exact absurd (congrArg ReadModelChangeset.key hc) hname
      · cases h
  | next =>
      rw [step] at h
      split at h
      · next c changes hs hchanges =>
          obtain rfl := Option.some.inj h
          exact ⟨hsync.next hs hchanges, hemits.next hs hchanges⟩
      · cases h
  | unsubscribe =>
      obtain rfl := Option.some.inj h
      exact ⟨hsync, hemits.keyed, hemits.shown, hemits.queued, hemits.idle, hemits.distinct,
        fun _ hstopped => by simp at hstopped⟩
  | fail =>
      obtain rfl := Option.some.inj h
      refine ⟨trivial, hemits.keyed, hemits.shown, hemits.queued, ?_, hemits.distinct, ?_⟩
      · exact fun _ hended => absurd rfl hended
      · rintro (hstage | hstage) <;> cases hstage

theorem reachable_keeps [DecidableEq T] {store : ReadModelStore key}
    {o : ReadModelObservation key} (h : (machine key id store).Reachable o) :
    Synchronized id o ∧ Emits id o := by
  refine Machine.Reachable.invariant (machine key id store)
    (P := fun o => Synchronized id o ∧ Emits id o) ⟨rfl, ?_, ?_, ?_, ?_, ?_, ?_⟩
    (fun _ _ _ ho ht => step_keeps ho.1 ho.2 ht) h
  · exact fun k m hm => by simp [machine, new] at hm
  · exact fun k m hm => by simp [machine, new] at hm
  · exact fun c hc => by simp [machine, new] at hc
  · exact fun _ _ => rfl
  · exact fun items hitems => by simp [machine, new] at hitems
  · rintro (hstage | hstage) <;> cases hstage

/-- An emitted list as a map from keys to models. -/
def modelAt (key : T → String) (items : List T) (k : String) : Option T :=
  items.find? fun m => decide (key m = k)

theorem modelAt_values {models : InsertionMap String T} (h : Keyed key models) (k : String) :
    modelAt key (values models) k = models.get k := by
  ext m
  constructor
  · intro hm
    have hmem := List.mem_of_find?_eq_some hm
    have hkey : key m = k := by simpa using List.find?_some hm
    exact hkey ▸ (mem_values h m).1 hmem
  · intro hm
    obtain rfl := h k m hm
    have hmem := (mem_values h m).2 hm
    rw [modelAt]
    cases hfind : (values models).find? fun n => decide (key n = key m) with
    | none => simpa using List.find?_eq_none.1 hfind m hmem
    | some n =>
        have hn : key n = key m := by simpa using List.find?_some hfind
        have hsame := List.inj_on_of_nodup_map (nodup_values h)
          (List.mem_of_find?_eq_some hfind) hmem hn
        rw [hsame]

/-- A model is stored between the snapshot and the subscription. -/
def gap : List (ReadModelEvent (String × ℕ)) :=
  [.snapshot [], .change ⟨"a", false, ("a", 1)⟩, .returned, .subscribed none]

end Arc.Chronicle.ReadModelObservation
