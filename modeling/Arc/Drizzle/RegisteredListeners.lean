import Arc.Drizzle.DrizzleChangeNotifications

/-!
# Registered listeners

Listeners are kept in a map of maps of sets, and a release works on the map and the set that
existed when its listener was registered. `Registered` says that these are still the ones a
publication looks up: what is found for a tenant and a table is exactly who has listened to it
and has not been released.
-/

namespace Arc.Drizzle.DrizzleChangeNotifications

variable {τ κ χ : Type} [DecidableEq τ] [DecidableEq κ]
  {s : DrizzleChangeNotifications τ κ χ} {t t' : τ} {T T' : κ} {m m' q q' k : ℕ}

/-- A publication for the tenant and the table looks into this map and this set. -/
def Serves (s : DrizzleChangeNotifications τ κ χ) (t : τ) (T : κ) (m q : ℕ) : Prop :=
  s.listeners.get t = some m ∧ (s.tableMaps m).get T = some q

/-- The map and the set that are looked up hold the listeners that are not released. -/
structure Registered (s : DrizzleChangeNotifications τ κ χ) : Prop where
  listened : ∀ k t T, .listened k t T ∈ s.log ↔
    ∃ l, s.registered[k]? = some l ∧ l.tenant = t ∧ l.table = T
  released : ∀ k, .released k ∈ s.log ↔ ∃ l, s.registered[k]? = some l ∧ l.released = true
  held : ∀ k l, s.registered[k]? = some l → l.released = false →
    s.Serves l.tenant l.table l.tables l.listeners ∧ k ∈ s.listenerSets l.listeners
  members : ∀ t T m q, s.Serves t T m q → (s.listenerSets q).Nodup ∧
    ∀ k ∈ s.listenerSets q, ∃ l, s.registered[k]? = some l ∧ l.released = false ∧
      l.tenant = t ∧ l.table = T
  maps : ∀ t t' m, s.listeners.get t = some m → s.listeners.get t' = some m → t = t'
  sets : ∀ t t' T T' m m' q, s.Serves t T m q → s.Serves t' T' m' q → t = t' ∧ T = T'
  mapMade : ∀ t m, s.listeners.get t = some m → m < s.made
  setMade : ∀ t T m q, s.Serves t T m q → q < s.made

theorem Serves.unique (h : s.Serves t T m q) (h' : s.Serves t T m' q') : m = m' ∧ q = q' := by
  obtain rfl : m = m' := Option.some.inj (h.1.symm.trans h'.1)
  exact ⟨rfl, Option.some.inj (h.2.symm.trans h'.2)⟩

theorem mem_listenersOf_iff_serves :
    k ∈ s.listenersOf t T ↔ ∃ m q, s.Serves t T m q ∧ k ∈ s.listenerSets q := by
  unfold listenersOf Serves
  cases hm : s.listeners.get t with
  | none => simp
  | some m =>
      cases hq : (s.tableMaps m).get T with
      | none => simp [hq]
      | some q => simp [hq]

theorem listenersOf_eq (h : s.Serves t T m q) : s.listenersOf t T = s.listenerSets q := by
  unfold listenersOf
  simp [h.1, h.2]

namespace Registered

/-- Only what the registrations are is looked at. -/
theorem frame {s' : DrizzleChangeNotifications τ κ χ} (hs : s.Registered)
    (hlisteners : s'.listeners = s.listeners) (htables : s'.tableMaps = s.tableMaps)
    (hsets : s'.listenerSets = s.listenerSets) (hmade : s'.made = s.made)
    (hregistered : s'.registered = s.registered)
    (hlistened : ∀ k t T, .listened k t T ∈ s'.log ↔ .listened k t T ∈ s.log)
    (hreleased : ∀ k, .released k ∈ s'.log ↔ .released k ∈ s.log) : s'.Registered := by
  have hserves : ∀ t T m q, s'.Serves t T m q ↔ s.Serves t T m q := by
    intro t T m q
    rw [Serves, Serves, hlisteners, htables]
  constructor
  case listened => simpa only [hlistened, hregistered] using hs.listened
  case released => simpa only [hreleased, hregistered] using hs.released
  case held => simpa only [hserves, hregistered, hsets] using hs.held
  case members => simpa only [hserves, hregistered, hsets] using hs.members
  case maps => simpa only [hlisteners] using hs.maps
  case sets => simpa only [hserves] using hs.sets
  case mapMade => simpa only [hlisteners, hmade] using hs.mapMade
  case setMade => simpa only [hserves, hmade] using hs.setMade

/-- A publication finds exactly who has listened and has not been released. -/
theorem mem_listenersOf (hs : s.Registered) :
    k ∈ s.listenersOf t T ↔ .listened k t T ∈ s.log ∧ .released k ∉ s.log := by
  rw [mem_listenersOf_iff_serves, hs.listened, hs.released]
  constructor
  · rintro ⟨m, q, hserves, hk⟩
    obtain ⟨l, hl, hreleased, htenant, htable⟩ := (hs.members t T m q hserves).2 k hk
    refine ⟨⟨l, hl, htenant, htable⟩, ?_⟩
    rintro ⟨l', hl', hreleased'⟩
    obtain rfl : l = l' := Option.some.inj (hl.symm.trans hl')
    rw [hreleased] at hreleased'
    cases hreleased'
  · rintro ⟨⟨l, hl, rfl, rfl⟩, hnot⟩
    have hreleased : l.released = false := by
      cases hr : l.released with
      | false => rfl
      | true => exact absurd ⟨l, hl, hr⟩ hnot
    obtain ⟨hserves, hk⟩ := hs.held k l hl hreleased
    exact ⟨_, _, hserves, hk⟩

theorem nodup_listenersOf (hs : s.Registered) : (s.listenersOf t T).Nodup := by
  by_cases h : ∃ m q, s.Serves t T m q
  · obtain ⟨m, q, hserves⟩ := h
    rw [listenersOf_eq hserves]
    exact (hs.members t T m q hserves).1
  · have hnil : s.listenersOf t T = [] := by
      refine List.eq_nil_iff_forall_not_mem.2 fun k hk => h ?_
      obtain ⟨m, q, hserves, -⟩ := mem_listenersOf_iff_serves.1 hk
      exact ⟨m, q, hserves⟩
    rw [hnil]
    exact List.nodup_nil

/-- A registration is known before it is made. -/
theorem listened_lt (hs : s.Registered) (h : .listened k t T ∈ s.log) :
    k < s.registered.length := by
  obtain ⟨l, hl, -⟩ := (hs.listened k t T).1 h
  exact (List.getElem?_eq_some_iff.1 hl).1

theorem released_lt (hs : s.Registered) (h : .released k ∈ s.log) :
    k < s.registered.length := by
  obtain ⟨l, hl, -⟩ := (hs.released k).1 h
  exact (List.getElem?_eq_some_iff.1 hl).1

end Registered

/-! ### Listening -/

/-- The map a new listener of the tenant is put into. -/
def mapFor (s : DrizzleChangeNotifications τ κ χ) (t : τ) : ℕ := (s.listeners.get t).getD s.made

/-- The tables of that map before. -/
def tablesFor (s : DrizzleChangeNotifications τ κ χ) (t : τ) : InsertionMap κ ℕ :=
  if (s.listeners.get t).isSome then s.tableMaps (s.mapFor t) else .empty

/-- The set a new listener is put into. -/
def setFor (s : DrizzleChangeNotifications τ κ χ) (t : τ) (T : κ) : ℕ :=
  ((s.tablesFor t).get T).getD (s.made + 1)

theorem get_tablesFor : (s.tablesFor t).get T = some q ↔ ∃ m, s.Serves t T m q := by
  unfold tablesFor mapFor Serves
  cases hm : s.listeners.get t with
  | none => simp
  | some m => simp

theorem mapFor_eq (h : s.listeners.get t = some m) : s.mapFor t = m := by
  rw [mapFor, h, Option.getD_some]

theorem setFor_eq (h : s.Serves t T m q) : s.setFor t T = q := by
  rw [setFor, get_tablesFor.2 ⟨m, h⟩, Option.getD_some]

/-- The set is the one looked up, or a new one. -/
theorem setFor_cases (s : DrizzleChangeNotifications τ κ χ) (t : τ) (T : κ) :
    (∃ m, s.Serves t T m (s.setFor t T)) ∨
      (∀ m q, ¬ s.Serves t T m q) ∧ s.setFor t T = s.made + 1 := by
  cases hq : (s.tablesFor t).get T with
  | some q =>
      obtain ⟨m, hserves⟩ := get_tablesFor.1 hq
      rw [setFor_eq hserves]
      exact .inl ⟨m, hserves⟩
  | none =>
      refine .inr ⟨fun m q hserves => ?_, by rw [setFor, hq, Option.getD_none]⟩
      rw [get_tablesFor.2 ⟨m, hserves⟩] at hq
      cases hq

namespace Registered

/-- No other tenant looks into the map. -/
theorem ne_mapFor (hs : s.Registered) (hne : t' ≠ t) (h : s.listeners.get t' = some m) :
    m ≠ s.mapFor t := by
  rintro rfl
  unfold mapFor at h
  cases hm : s.listeners.get t with
  | none =>
      rw [hm, Option.getD_none] at h
      exact absurd (hs.mapMade t' _ h) (Nat.lt_irrefl _)
  | some m =>
      rw [hm, Option.getD_some] at h
      exact hne (hs.maps t' t m h hm)

/-- No one else looks into the set. -/
theorem ne_setFor (hs : s.Registered) (hne : ¬(t' = t ∧ T' = T)) (h : s.Serves t' T' m q) :
    q ≠ s.setFor t T := by
  rintro rfl
  rcases s.setFor_cases t T with ⟨m', hserves⟩ | ⟨-, hnew⟩
  · exact hne (hs.sets _ _ _ _ _ _ _ h hserves)
  · have hmade := hs.setMade _ _ _ _ h
    omega

theorem serves_listen (hs : s.Registered) :
    (s.listen t T).Serves t' T' m q ↔
      (t' = t ∧ T' = T ∧ m = s.mapFor t ∧ q = s.setFor t T) ∨
        ¬(t' = t ∧ T' = T) ∧ s.Serves t' T' m q := by
  change (s.listeners.set t (s.mapFor t)).get t' = some m ∧
    (Function.update s.tableMaps (s.mapFor t) ((s.tablesFor t).set T (s.setFor t T)) m).get T' =
      some q ↔ _
  by_cases ht : t' = t
  · subst ht
    rw [InsertionMap.get_set_self]
    by_cases hT : T' = T
    · subst hT
      constructor
      · rintro ⟨hm, hq⟩
        obtain rfl : s.mapFor t' = m := Option.some.inj hm
        rw [Function.update_self, InsertionMap.get_set_self] at hq
        exact .inl ⟨rfl, rfl, rfl, (Option.some.inj hq).symm⟩
      · rintro (⟨-, -, rfl, rfl⟩ | ⟨hnot, -⟩)
        · rw [Function.update_self, InsertionMap.get_set_self]
          exact ⟨rfl, rfl⟩
        · exact absurd ⟨rfl, rfl⟩ hnot
    · constructor
      · rintro ⟨hm, hq⟩
        obtain rfl : s.mapFor t' = m := Option.some.inj hm
        rw [Function.update_self, InsertionMap.get_set_of_ne _ _ hT, get_tablesFor] at hq
        obtain ⟨m, hserves⟩ := hq
        rw [mapFor_eq hserves.1]
        exact .inr ⟨fun h => hT h.2, hserves⟩
      · rintro (⟨-, rfl, -⟩ | ⟨-, hserves⟩)
        · exact absurd rfl hT
        · rw [mapFor_eq hserves.1, Function.update_self, InsertionMap.get_set_of_ne _ _ hT,
            get_tablesFor]
          exact ⟨rfl, m, hserves⟩
  · rw [InsertionMap.get_set_of_ne _ _ ht]
    constructor
    · rintro ⟨hm, hq⟩
      rw [Function.update_of_ne (hs.ne_mapFor ht hm)] at hq
      exact .inr ⟨fun h => ht h.1, hm, hq⟩
    · rintro (⟨rfl, -⟩ | ⟨-, hm, hq⟩)
      · exact absurd rfl ht
      · rw [Function.update_of_ne (hs.ne_mapFor ht hm)]
        exact ⟨hm, hq⟩

/-- The set of a new listener before it is added, empty when there was none. -/
theorem listenerSets_listen (hs : s.Registered) :
    ∃ set : List ℕ, (s.listen t T).listenerSets (s.setFor t T) = set ++ [s.registered.length] ∧
      set.Nodup ∧ (∀ k ∈ set, ∃ l, s.registered[k]? = some l ∧ l.released = false ∧
        l.tenant = t ∧ l.table = T) ∧ (∀ m q, s.Serves t T m q → set = s.listenerSets q) := by
  refine ⟨if ((s.tablesFor t).get T).isSome then s.listenerSets (s.setFor t T) else [],
    Function.update_self .., ?_⟩
  cases hq : (s.tablesFor t).get T with
  | none =>
      refine ⟨List.nodup_nil, fun k hk => absurd hk List.not_mem_nil, fun m q hserves => ?_⟩
      rw [get_tablesFor.2 ⟨m, hserves⟩] at hq
      cases hq
  | some q =>
      obtain ⟨m, hserves⟩ := get_tablesFor.1 hq
      rw [setFor_eq hserves]
      obtain ⟨hnodup, hmembers⟩ := hs.members t T m q hserves
      refine ⟨hnodup, hmembers, fun m' q' hserves' => ?_⟩
      obtain ⟨-, rfl⟩ := hserves.unique hserves'
      rfl

theorem listenerSets_listen_of_ne (h : q ≠ s.setFor t T) :
    (s.listen t T).listenerSets q = s.listenerSets q :=
  Function.update_of_ne h ..

/-- A set that is looked up keeps its listeners when another one is registered. -/
theorem mem_listenerSets_listen (hs : s.Registered) (hserves : s.Serves t' T' m q)
    (hk : k ∈ s.listenerSets q) : k ∈ (s.listen t T).listenerSets q := by
  by_cases hsame : t' = t ∧ T' = T
  · obtain ⟨rfl, rfl⟩ := hsame
    obtain ⟨set, hset, -, -, hold⟩ := hs.listenerSets_listen (t := t') (T := T')
    rw [setFor_eq hserves] at hset
    rw [hset, hold m q hserves]
    exact List.mem_append_left _ hk
  · rwa [listenerSets_listen_of_ne (hs.ne_setFor hsame hserves)]

theorem listen (hs : s.Registered) (t : τ) (T : κ) : (s.listen t T).Registered := by
  have hregistered : (s.listen t T).registered =
      s.registered ++ [⟨t, T, s.mapFor t, s.setFor t T, false⟩] := rfl
  have hlog : (s.listen t T).log = s.log ++ [.listened s.registered.length t T] := rfl
  have hgrown : ∀ (k : ℕ) l, s.registered[k]? = some l →
      (s.listen t T).registered[k]? = some l := by
    intro k l hl
    rw [hregistered]
    rw [List.getElem?_append_left (List.getElem?_eq_some_iff.1 hl).1, hl]
  have hlast : (s.listen t T).registered[s.registered.length]? =
      some ⟨t, T, s.mapFor t, s.setFor t T, false⟩ := by
    rw [hregistered]
    exact List.getElem?_concat_length
  have hcases : ∀ (k : ℕ) l, (s.listen t T).registered[k]? = some l →
      s.registered[k]? = some l ∨
        k = s.registered.length ∧ l = ⟨t, T, s.mapFor t, s.setFor t T, false⟩ := by
    intro k l hl
    rw [hregistered, List.getElem?_append] at hl
    split_ifs at hl with hlt
    · exact .inl hl
    · have hk : k - s.registered.length = 0 := by
        by_contra hne
        rw [List.getElem?_singleton, if_neg hne] at hl
        cases hl
      rw [hk] at hl
      exact .inr ⟨by omega, (Option.some.inj hl).symm⟩
  constructor
  case listened =>
    intro k t' T'
    rw [hlog, List.mem_append, hs.listened, List.mem_singleton]
    constructor
    · rintro (⟨l, hl, hfields⟩ | hnew)
      · exact ⟨l, hgrown k l hl, hfields⟩
      · cases hnew
        exact ⟨_, hlast, rfl, rfl⟩
    · rintro ⟨l, hl, rfl, rfl⟩
      rcases hcases k l hl with hl | ⟨rfl, rfl⟩
      · exact .inl ⟨l, hl, rfl, rfl⟩
      · exact .inr rfl
  case released =>
    intro k
    rw [hlog, List.mem_append, hs.released]
    constructor
    · rintro (⟨l, hl, hr⟩ | hnew)
      · exact ⟨l, hgrown k l hl, hr⟩
      · simp at hnew
    · rintro ⟨l, hl, hr⟩
      rcases hcases k l hl with hl | ⟨rfl, rfl⟩
      · exact .inl ⟨l, hl, hr⟩
      · cases hr
  case held =>
    intro k l hl hr
    rcases hcases k l hl with hl | ⟨rfl, rfl⟩
    · obtain ⟨hserves, hk⟩ := hs.held k l hl hr
      refine ⟨hs.serves_listen.2 ?_, hs.mem_listenerSets_listen hserves hk⟩
      by_cases hsame : l.tenant = t ∧ l.table = T
      · obtain ⟨rfl, rfl⟩ := hsame
        exact .inl ⟨rfl, rfl, (mapFor_eq hserves.1).symm, (setFor_eq hserves).symm⟩
      · exact .inr ⟨hsame, hserves⟩
    · obtain ⟨set, hset, -⟩ := hs.listenerSets_listen (t := t) (T := T)
      refine ⟨hs.serves_listen.2 (.inl ⟨rfl, rfl, rfl, rfl⟩), ?_⟩
      change _ ∈ (s.listen t T).listenerSets (s.setFor t T)
      rw [hset]
      exact List.mem_concat_self
  case members =>
    intro t' T' m q hserves
    rcases hs.serves_listen.1 hserves with ⟨rfl, rfl, rfl, rfl⟩ | ⟨hother, hserves⟩
    · obtain ⟨set, hset, hnodup, hmembers, -⟩ := hs.listenerSets_listen (t := t') (T := T')
      rw [hset]
      constructor
      · refine List.nodup_append.2 ⟨hnodup, List.nodup_singleton _, fun k hk k' hk' => ?_⟩
        obtain ⟨l, hl, -⟩ := hmembers k hk
        rw [List.mem_singleton.1 hk']
        exact Nat.ne_of_lt (List.getElem?_eq_some_iff.1 hl).1
      · intro k hk
        rcases List.mem_append.1 hk with hk | hk
        · obtain ⟨l, hl, hfields⟩ := hmembers k hk
          exact ⟨l, hgrown k l hl, hfields⟩
        · obtain rfl := List.mem_singleton.1 hk
          exact ⟨_, hlast, rfl, rfl, rfl⟩
    · obtain ⟨hnodup, hmembers⟩ := hs.members t' T' m q hserves
      rw [listenerSets_listen_of_ne (hs.ne_setFor hother hserves)]
      refine ⟨hnodup, fun k hk => ?_⟩
      obtain ⟨l, hl, hfields⟩ := hmembers k hk
      exact ⟨l, hgrown k l hl, hfields⟩
  case maps =>
    change ∀ t' t'' m, (s.listeners.set t (s.mapFor t)).get t' = some m →
      (s.listeners.set t (s.mapFor t)).get t'' = some m → t' = t''
    intro t' t'' m h' h''
    by_cases ht' : t' = t <;> by_cases ht'' : t'' = t
    · rw [ht', ht'']
    · rw [ht', InsertionMap.get_set_self] at h'
      rw [InsertionMap.get_set_of_ne _ _ ht''] at h''
      exact absurd (Option.some.inj h').symm (hs.ne_mapFor ht'' h'')
    · rw [ht'', InsertionMap.get_set_self] at h''
      rw [InsertionMap.get_set_of_ne _ _ ht'] at h'
      exact absurd (Option.some.inj h'').symm (hs.ne_mapFor ht' h')
    · rw [InsertionMap.get_set_of_ne _ _ ht'] at h'
      rw [InsertionMap.get_set_of_ne _ _ ht''] at h''
      exact hs.maps t' t'' m h' h''
  case sets =>
    intro t' t'' T' T'' m m' q h' h''
    rcases hs.serves_listen.1 h' with ⟨ht', hT', -, hq'⟩ | ⟨hother, hold⟩ <;>
      rcases hs.serves_listen.1 h'' with ⟨ht'', hT'', -, hq''⟩ | ⟨hother', hold'⟩
    · exact ⟨ht'.trans ht''.symm, hT'.trans hT''.symm⟩
    · exact absurd hq' (hs.ne_setFor hother' hold')
    · exact absurd hq'' (hs.ne_setFor hother hold)
    · exact hs.sets t' t'' T' T'' m m' q hold hold'
  case mapMade =>
    change ∀ t' m, (s.listeners.set t (s.mapFor t)).get t' = some m → m < s.made + 2
    intro t' m h'
    by_cases ht' : t' = t
    · rw [ht', InsertionMap.get_set_self] at h'
      obtain rfl := Option.some.inj h'
      unfold mapFor
      cases hm : s.listeners.get t with
      | none => exact Nat.lt_add_of_pos_right Nat.zero_lt_two
      | some m => exact Nat.lt_add_right 2 (hs.mapMade t m hm)
    · rw [InsertionMap.get_set_of_ne _ _ ht'] at h'
      exact Nat.lt_add_right 2 (hs.mapMade t' m h')
  case setMade =>
    change ∀ t' T' m q, (s.listen t T).Serves t' T' m q → q < s.made + 2
    intro t' T' m q h'
    rcases hs.serves_listen.1 h' with ⟨rfl, rfl, -, rfl⟩ | ⟨-, h'⟩
    · rcases s.setFor_cases t' T' with ⟨m', hserves⟩ | ⟨-, hnew⟩
      · exact Nat.lt_add_right 2 (hs.setMade _ _ _ _ hserves)
      · omega
    · exact Nat.lt_add_right 2 (hs.setMade _ _ _ _ h')

end Registered

/-! ### Releasing -/

/-- A release adds no tenant. -/
theorem get_of_get_release {l : Listener τ κ} (h : (s.release k l).listeners.get t = some m) :
    s.listeners.get t = some m := by
  have hcases : (s.listeners.delete l.tenant).get t = some m ∨ s.listeners.get t = some m := by
    unfold release at h
    dsimp only at h
    split_ifs at h <;> first | exact .inl h | exact .inr h
  rcases hcases with h | h
  · by_cases ht : t = l.tenant
    · rw [ht, InsertionMap.get_delete_self] at h
      cases h
    · rwa [InsertionMap.get_delete_of_ne _ ht] at h
  · exact h

namespace Registered

variable {l : Listener τ κ}

/-- Once its set is empty a release no longer serves the table, and nothing else changes. -/
theorem serves_release (hs : s.Registered) (hl : s.registered[k]? = some l)
    (hr : l.released = false) :
    (s.release k l).Serves t T m q ↔ s.Serves t T m q ∧
      ¬(t = l.tenant ∧ T = l.table ∧ (s.listenerSets l.listeners).erase k = []) := by
  obtain ⟨⟨hm, hq⟩, -⟩ := hs.held k l hl hr
  set set := (s.listenerSets l.listeners).erase k with hset
  set tables := if set.isEmpty then (s.tableMaps l.tables).delete l.table
    else s.tableMaps l.tables with htables
  have hget : tables.get T = some q ↔
      (s.tableMaps l.tables).get T = some q ∧ ¬(T = l.table ∧ set = []) := by
    rw [htables]
    by_cases hempty : set = []
    · by_cases hT : T = l.table
      · simp [hempty, hT]
      · simp [hempty, hT, InsertionMap.get_delete_of_ne]
    · simp [hempty]
  change (if tables.entries.isEmpty then s.listeners.delete l.tenant else s.listeners).get t =
    some m ∧ (Function.update s.tableMaps l.tables tables m).get T = some q ↔ _
  by_cases ht : t = l.tenant
  · subst ht
    constructor
    · rintro ⟨hm', hq'⟩
      by_cases hempty : tables.entries.isEmpty
      · rw [if_pos hempty, InsertionMap.get_delete_self] at hm'
        cases hm'
      · rw [if_neg hempty] at hm'
        obtain rfl : l.tables = m := Option.some.inj (hm.symm.trans hm')
        rw [Function.update_self, hget] at hq'
        exact ⟨⟨hm, hq'.1⟩, fun h => hq'.2 h.2⟩
    · rintro ⟨⟨hm', hq'⟩, hnot⟩
      obtain rfl : l.tables = m := Option.some.inj (hm.symm.trans hm')
      have hkept : tables.get T = some q := hget.2 ⟨hq', fun h => hnot ⟨rfl, h⟩⟩
      have hentries : ¬ tables.entries.isEmpty = true := by
        intro h
        have hmem := InsertionMap.get_eq_some_iff.1 hkept
        rw [List.isEmpty_iff.1 h] at hmem
        cases hmem
      rw [if_neg hentries, Function.update_self]
      exact ⟨hm, hkept⟩
  · have hlisteners : (if tables.entries.isEmpty then s.listeners.delete l.tenant
        else s.listeners).get t = s.listeners.get t := by
      split_ifs
      · exact InsertionMap.get_delete_of_ne _ ht
      · rfl
    rw [hlisteners]
    have hother : s.listeners.get t = some m →
        Function.update s.tableMaps l.tables tables m = s.tableMaps m := by
      intro hm'
      refine Function.update_of_ne ?_ ..
      rintro rfl
      exact ht (hs.maps t l.tenant l.tables hm' hm)
    constructor
    · rintro ⟨hm', hq'⟩
      rw [hother hm'] at hq'
      exact ⟨⟨hm', hq'⟩, fun h => ht h.1⟩
    · rintro ⟨⟨hm', hq'⟩, -⟩
      rw [hother hm']
      exact ⟨hm', hq'⟩

/-- A set that is looked up loses exactly the listener that is released. -/
theorem mem_listenerSets_release (hs : s.Registered) (hl : s.registered[k]? = some l)
    (hr : l.released = false) (hserves : s.Serves t T m q) :
    ((s.release k l).listenerSets q).Nodup ∧
      ∀ j, j ∈ (s.release k l).listenerSets q ↔ j ≠ k ∧ j ∈ s.listenerSets q := by
  obtain ⟨hnodup, hmembers⟩ := hs.members t T m q hserves
  change (Function.update s.listenerSets l.listeners _ q).Nodup ∧
    ∀ j, j ∈ Function.update s.listenerSets l.listeners _ q ↔ _
  by_cases hq : q = l.listeners
  · subst hq
    rw [Function.update_self]
    exact ⟨hnodup.erase k, fun j => hnodup.mem_erase_iff⟩
  · rw [Function.update_of_ne hq]
    refine ⟨hnodup, fun j => ⟨fun hj => ⟨?_, hj⟩, fun hj => hj.2⟩⟩
    rintro rfl
    obtain ⟨l', hl', -, rfl, rfl⟩ := hmembers j hj
    obtain rfl : l = l' := Option.some.inj (hl.symm.trans hl')
    exact hq (hserves.unique (hs.held j l hl hr).1).2

theorem release (hs : s.Registered) (hl : s.registered[k]? = some l) (hr : l.released = false) :
    (s.release k l).Registered := by
  have hregistered : (s.release k l).registered =
      s.registered.set k { l with released := true } := rfl
  have hlog : (s.release k l).log = s.log ++ [.released k] := rfl
  have hlt := (List.getElem?_eq_some_iff.1 hl).1
  have hself : (s.release k l).registered[k]? = some { l with released := true } := by
    rw [hregistered, List.getElem?_set_self hlt]
  have hother : ∀ j, j ≠ k → (s.release k l).registered[j]? = s.registered[j]? := by
    intro j hj
    rw [hregistered, List.getElem?_set_ne (Ne.symm hj)]
  constructor
  case listened =>
    intro j t T
    rw [hlog, List.mem_append, hs.listened]
    by_cases hj : j = k
    · subst hj
      simp [hself, hl]
    · simp [hother j hj]
  case released =>
    intro j
    rw [hlog, List.mem_append, hs.released]
    by_cases hj : j = k
    · subst hj
      simp [hself]
    · simp [hother j hj, hj]
  case held =>
    intro j l' hl' hr'
    have hj : j ≠ k := by
      rintro rfl
      rw [hself] at hl'
      cases hl'
      cases hr'
    rw [hother j hj] at hl'
    obtain ⟨hserves, hmem⟩ := hs.held j l' hl' hr'
    refine ⟨(hs.serves_release hl hr).2 ⟨hserves, ?_⟩,
      ((hs.mem_listenerSets_release hl hr hserves).2 j).2 ⟨hj, hmem⟩⟩
    rintro ⟨htenant, htable, hempty⟩
    -- The same table of the same tenant is the same set, and the other listener is still in it.
    have hsame := (hs.held k l hl hr).1
    rw [← htenant, ← htable] at hsame
    obtain ⟨-, hq⟩ := hserves.unique hsame
    have hleft : j ∈ (s.listenerSets l.listeners).erase k := by
      rw [hq] at hmem
      exact (List.mem_erase_of_ne hj).2 hmem
    rw [hempty] at hleft
    cases hleft
  case members =>
    intro t T m q hserves
    have hbefore := ((hs.serves_release hl hr).1 hserves).1
    obtain ⟨hnodup, hmem⟩ := hs.mem_listenerSets_release hl hr hbefore
    refine ⟨hnodup, fun j hj => ?_⟩
    obtain ⟨hne, hold⟩ := (hmem j).1 hj
    rw [hother j hne]
    exact (hs.members t T m q hbefore).2 j hold
  case maps =>
    intro t t' m h h'
    exact hs.maps t t' m (get_of_get_release h) (get_of_get_release h')
  case sets =>
    intro t t' T T' m m' q h h'
    exact hs.sets t t' T T' m m' q ((hs.serves_release hl hr).1 h).1
      ((hs.serves_release hl hr).1 h').1
  case mapMade =>
    intro t m h
    exact hs.mapMade t m (get_of_get_release h)
  case setMade =>
    intro t T m q h
    exact hs.setMade t T m q ((hs.serves_release hl hr).1 h).1

end Registered

end Arc.Drizzle.DrizzleChangeNotifications
