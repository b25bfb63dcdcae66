import Arc.Observable.SubscriptionRevisions

/-!
# Runs of the revision table

An `Operation` carries the time at which it is performed. `accepted r ops` lists
the operations a run from `r` obeys, in order; the ids whose tombstones were
recorded and the last accepted revision of an id are read off that list, so they
say what happened and not what the table stores.

A tombstone is followed through a run by `Follows ids`: behind its entry stand
only tombstones of `ids`. As long as `ids` is smaller than the maximum, neither
pruning reaches it.
-/

namespace Arc.Observable

/-- A call made on the revision table, with its time. -/
inductive Operation
  | subscribe (queryId : String) (revision : Option ℕ) (requestKey : String) (now : ℤ)
  | unsubscribe (queryId : String) (revision : Option ℕ) (now : ℤ)
  | complete (queryId : String) (revision : Option ℕ) (now : ℤ)
  deriving DecidableEq

namespace Operation

def queryId : Operation → String
  | subscribe queryId _ _ _ => queryId
  | unsubscribe queryId _ _ => queryId
  | complete queryId _ _ => queryId

def revision : Operation → Option ℕ
  | subscribe _ revision _ _ => revision
  | unsubscribe _ revision _ => revision
  | complete _ revision _ => revision

def now : Operation → ℤ
  | subscribe _ _ _ now => now
  | unsubscribe _ _ now => now
  | complete _ _ now => now

/-- The tombstone the operation records when it is accepted. -/
def recorded : Operation → Option (String × RevisionState)
  | subscribe _ _ _ _ => none
  | unsubscribe queryId revision now =>
      revision.map fun n => (queryId, RevisionState.tombstone n now)
  | complete queryId revision now =>
      revision.map fun n => (queryId, RevisionState.tombstone n now)

end Operation

/-- The ids whose tombstones a list of accepted operations recorded. -/
def recordedIds (ops : List Operation) : List String :=
  ops.filterMap fun op => op.recorded.map Prod.fst

/-- The revision of the last of the operations that concern `id`. -/
def lastRevision (id : String) (ops : List Operation) : Option (Option ℕ) :=
  ((ops.filter fun op => decide (op.queryId = id)).getLast?).map Operation.revision

namespace SubscriptionRevisions

def perform (r : SubscriptionRevisions) : Operation → SubscriptionRevisions × Bool
  | .subscribe queryId revision requestKey now => r.subscribe queryId revision requestKey now
  | .unsubscribe queryId revision now => r.unsubscribe queryId revision now
  | .complete queryId revision now => r.complete queryId revision now

/-- The table after the operations, in order. -/
def run : SubscriptionRevisions → List Operation → SubscriptionRevisions
  | r, [] => r
  | r, op :: ops => run (r.perform op).1 ops

/-- The operations of a run that were obeyed, in order. -/
def accepted : SubscriptionRevisions → List Operation → List Operation
  | _, [] => []
  | r, op :: ops =>
      (if (r.perform op).2 then [op] else []) ++ accepted (r.perform op).1 ops

theorem run_append (r : SubscriptionRevisions) (ops more : List Operation) :
    r.run (ops ++ more) = (r.run ops).run more := by
  induction ops generalizing r with
  | nil => rfl
  | cons op ops ih => exact ih (r.perform op).1

/-! ### What one operation can do -/

theorem subscribe_eq (r : SubscriptionRevisions) (id : String) (revision : Option ℕ)
    (requestKey : String) (now : ℤ) :
    (refusesSubscribe ((r.prune now).states.get id) revision requestKey = true ∧
        r.subscribe id revision requestKey now = (r.prune now, false)) ∨
      (refusesSubscribe ((r.prune now).states.get id) revision requestKey = false ∧
        r.subscribe id revision requestKey now =
          (⟨r.maximumTombstones, ((r.prune now).states.delete id).set id
            (.subscribed revision requestKey)⟩, true)) := by
  cases h : refusesSubscribe ((r.prune now).states.get id) revision requestKey with
  | true => exact Or.inl ⟨rfl, by simp [subscribe, h]⟩
  | false => exact Or.inr ⟨rfl, by simp [subscribe, h]⟩

theorem unsubscribe_eq (r : SubscriptionRevisions) (id : String) (revision : Option ℕ)
    (now : ℤ) :
    (refusesUnsubscribe ((r.prune now).states.get id) revision = true ∧
        r.unsubscribe id revision now = (r.prune now, false)) ∨
      (refusesUnsubscribe ((r.prune now).states.get id) revision = false ∧
        ((revision = none ∧ r.unsubscribe id revision now =
            (⟨r.maximumTombstones, (r.prune now).states.delete id⟩, true)) ∨
          ∃ n, revision = some n ∧ r.unsubscribe id revision now =
            (prune ⟨r.maximumTombstones, ((r.prune now).states.delete id).set id
              (.tombstone n now)⟩ now, true))) := by
  cases h : refusesUnsubscribe ((r.prune now).states.get id) revision with
  | true => exact Or.inl ⟨rfl, by simp [unsubscribe, h]⟩
  | false =>
      refine Or.inr ⟨rfl, ?_⟩
      cases revision with
      | none => exact Or.inl ⟨rfl, by simp [unsubscribe, h]⟩
      | some n => exact Or.inr ⟨n, rfl, by simp [unsubscribe, h]⟩

theorem complete_eq (r : SubscriptionRevisions) (id : String) (revision : Option ℕ) (now : ℤ) :
    r.complete id revision now = (r, false) ∨
      r.complete id revision now = r.unsubscribe id revision now := by
  by_cases h : r.isActive id revision = true
  · exact Or.inr (by simp [complete, h])
  · exact Or.inl (by simp [complete, h])

/-- A subscribe that is not newer than the stored revision is refused. -/
theorem refusesSubscribe_of_le {s : RevisionState} {last : ℕ} {revision : Option ℕ}
    (requestKey : String) (hlast : s.revision = some last)
    (hle : ∀ n ∈ revision, n ≤ last) :
    refusesSubscribe (some s) revision requestKey = true := by
  cases revision with
  | none => simp [refusesSubscribe, hlast]
  | some n => simpa [refusesSubscribe, hlast] using hle n rfl

/-- An unsubscribe that is older than the stored revision is refused. -/
theorem refusesUnsubscribe_of_lt {s : RevisionState} {last : ℕ} {revision : Option ℕ}
    (hlast : s.revision = some last) (hlt : ∀ n ∈ revision, n < last) :
    refusesUnsubscribe (some s) revision = true := by
  cases revision with
  | none => simp [refusesUnsubscribe, hlast]
  | some n => simpa [refusesUnsubscribe, hlast] using hlt n rfl

/-- The entry of `id` outlives a pruning at `now`, and it has a revision: the id
is active with that revision, or its tombstone is retained. -/
def Retains (r : SubscriptionRevisions) (id : String) (last : ℕ) (now : ℤ) : Prop :=
  ∃ s, r.states.get id = some s ∧ s.revision = some last ∧
    (s.active = true ∨ (r.prune now).states.get id = some s)

theorem Retains.get_prune {r : SubscriptionRevisions} {id : String} {last : ℕ} {now : ℤ}
    (h : r.Retains id last now) :
    ∃ s, r.states.get id = some s ∧ s.revision = some last ∧
      (r.prune now).states.get id = some s := by
  obtain ⟨s, hget, hlast, hactive | hkept⟩ := h
  · exact ⟨s, hget, hlast, get_prune_of_active hget hactive⟩
  · exact ⟨s, hget, hlast, hkept⟩

theorem Retains.subscribe_refused {r : SubscriptionRevisions} {id : String} {last : ℕ}
    {now : ℤ} (h : r.Retains id last now) {revision : Option ℕ} (requestKey : String)
    (hle : ∀ n ∈ revision, n ≤ last) :
    (r.subscribe id revision requestKey now).2 = false ∧
      (r.subscribe id revision requestKey now).1.states.get id = r.states.get id := by
  obtain ⟨s, hget, hlast, hkept⟩ := h.get_prune
  have hrefused := refusesSubscribe_of_le requestKey hlast hle
  rcases r.subscribe_eq id revision requestKey now with ⟨-, heq⟩ | ⟨hfalse, -⟩
  · rw [heq]
    exact ⟨rfl, hkept.trans hget.symm⟩
  · rw [hkept, hrefused] at hfalse
    cases hfalse

theorem Retains.unsubscribe_refused {r : SubscriptionRevisions} {id : String} {last : ℕ}
    {now : ℤ} (h : r.Retains id last now) {revision : Option ℕ}
    (hlt : ∀ n ∈ revision, n < last) :
    (r.unsubscribe id revision now).2 = false ∧
      (r.unsubscribe id revision now).1.states.get id = r.states.get id := by
  obtain ⟨s, hget, hlast, hkept⟩ := h.get_prune
  have hrefused := refusesUnsubscribe_of_lt hlast hlt
  rcases r.unsubscribe_eq id revision now with ⟨-, heq⟩ | ⟨hfalse, -⟩
  · rw [heq]
    exact ⟨rfl, hkept.trans hget.symm⟩
  · rw [hkept, hrefused] at hfalse
    cases hfalse

@[simp] theorem maximumTombstones_unsubscribe (r : SubscriptionRevisions) (id : String)
    (revision : Option ℕ) (now : ℤ) :
    (r.unsubscribe id revision now).1.maximumTombstones = r.maximumTombstones := by
  rcases r.unsubscribe_eq id revision now with ⟨-, heq⟩ | ⟨-, ⟨-, heq⟩ | ⟨n, -, heq⟩⟩ <;>
    rw [heq] <;> rfl

@[simp] theorem maximumTombstones_perform (r : SubscriptionRevisions) (op : Operation) :
    (r.perform op).1.maximumTombstones = r.maximumTombstones := by
  cases op with
  | subscribe id revision requestKey now =>
      rcases r.subscribe_eq id revision requestKey now with ⟨-, heq⟩ | ⟨-, heq⟩ <;>
        simp [perform, heq]
  | unsubscribe id revision now => exact r.maximumTombstones_unsubscribe id revision now
  | complete id revision now =>
      rcases r.complete_eq id revision now with heq | heq <;> simp [perform, heq]

/-! ### The number of tombstones -/

theorem length_tombstones_delete_le (states : InsertionMap String RevisionState) (id : String) :
    (tombstones (states.delete id)).length ≤ (tombstones states).length := by
  have hsub : (states.delete id).entries.Sublist states.entries := List.filter_sublist
  exact (hsub.filter _).length_le

/-- After an accepted unsubscribe at most `maximumTombstones` tombstones are left. -/
theorem length_tombstones_unsubscribe_le (r : SubscriptionRevisions) (id : String)
    (revision : Option ℕ) (now : ℤ) :
    (tombstones (r.unsubscribe id revision now).1.states).length ≤ r.maximumTombstones := by
  rcases r.unsubscribe_eq id revision now with ⟨-, heq⟩ | ⟨-, ⟨-, heq⟩ | ⟨n, -, heq⟩⟩
  · rw [heq]
    exact length_tombstones_prune_le r now
  · rw [heq]
    exact (length_tombstones_delete_le _ id).trans (length_tombstones_prune_le r now)
  · rw [heq]
    exact length_tombstones_prune_le _ now

/-! ### Following one tombstone -/

/-- The entry `(id, s)` is stored, and the tombstones behind it have ids in `ids`. -/
def Follows (ids : List String) (states : InsertionMap String RevisionState) (id : String)
    (s : RevisionState) : Prop :=
  ∃ before after, states.entries = before ++ (id, s) :: after ∧
    ∀ e ∈ after, e.2.isTombstone = true → e.1 ∈ ids

namespace Follows

variable {ids more : List String} {states : InsertionMap String RevisionState} {id : String}
  {s : RevisionState}

theorem get (h : Follows ids states id s) : states.get id = some s := by
  obtain ⟨before, after, hsplit, -⟩ := h
  rw [InsertionMap.get_eq_some_iff, hsplit]
  simp

theorem mono (h : Follows ids states id s) (hsub : ids ⊆ more) : Follows more states id s := by
  obtain ⟨before, after, hsplit, hafter⟩ := h
  exact ⟨before, after, hsplit, fun e he htomb => hsub (hafter e he htomb)⟩

theorem filter (h : Follows ids states id s) {p : String → RevisionState → Bool}
    (hp : p id s = true) : Follows ids (states.filter p) id s := by
  obtain ⟨before, after, hsplit, hafter⟩ := h
  refine ⟨before.filter fun e => p e.1 e.2, after.filter fun e => p e.1 e.2, ?_, ?_⟩
  · simp [InsertionMap.filter, hsplit, hp]
  · intro e he htomb
    exact hafter e (List.mem_of_mem_filter he) htomb

theorem delete (h : Follows ids states id s) {k : String} (hk : k ≠ id) :
    Follows ids (states.delete k) id s :=
  h.filter (by simpa using fun heq => hk heq.symm)

/-- Writing another id puts its entry behind the followed one. -/
theorem delete_set (h : Follows ids states id s) {k : String} (hk : k ≠ id)
    {v : RevisionState} (hv : v.isTombstone = true → k ∈ ids) :
    Follows ids ((states.delete k).set k v) id s := by
  obtain ⟨before, after, hsplit, hafter⟩ := h.delete hk
  refine ⟨before, after ++ [(k, v)], ?_, ?_⟩
  · rw [InsertionMap.entries_delete_set, hsplit]
    simp
  · intro e he htomb
    rcases List.mem_append.1 he with hin | hlast
    · exact hafter e hin htomb
    · obtain rfl : e = (k, v) := by simpa using hlast
      exact hv htomb

/-- A followed tombstone is in excess only once `maximum` other ids stand behind it. -/
theorem le_card_of_mem_surplus (h : Follows ids states id s) (htomb : s.isTombstone = true)
    {maximum : ℕ} (hsurplus : id ∈ surplus maximum states) : maximum ≤ ids.toFinset.card := by
  obtain ⟨before, after, hsplit, hafter⟩ := h
  have htombs : tombstones states = before.filter (fun e => e.2.isTombstone) ++
      (id, s) :: after.filter (fun e => e.2.isTombstone) := by
    simp [tombstones, hsplit, htomb]
  have hnodup := nodup_keys_tombstones states
  rw [htombs, List.map_append, List.map_cons, List.nodup_append] at hnodup
  obtain ⟨-, hafterNodup, hdisjoint⟩ := hnodup
  -- the excess reaches past everything recorded before the followed tombstone
  have hreach : (before.filter fun e => e.2.isTombstone).length <
      (tombstones states).length - maximum := by
    by_contra hshort
    have htake : ∀ k, k ≤ (before.filter fun e => e.2.isTombstone).length →
        (tombstones states).take k = (before.filter fun e => e.2.isTombstone).take k := by
      intro k hk
      rw [htombs]
      exact List.take_append_of_le_length hk
    obtain ⟨e, he, hid⟩ := List.mem_map.1 hsurplus
    rw [htake _ (Nat.le_of_not_lt hshort)] at he
    have hbefore : e.1 ∈ (before.filter fun e => e.2.isTombstone).map Prod.fst :=
      List.mem_map_of_mem (List.mem_of_mem_take he)
    exact hdisjoint e.1 hbefore id List.mem_cons_self hid
  have hlength := congrArg List.length htombs
  rw [List.length_append, List.length_cons] at hlength
  have hmany : maximum ≤ (after.filter fun e => e.2.isTombstone).length := by omega
  have hsubset : ((after.filter fun e => e.2.isTombstone).map Prod.fst).toFinset ⊆
      ids.toFinset := by
    intro k hk
    obtain ⟨e, he, rfl⟩ := List.mem_map.1 (List.mem_toFinset.1 hk)
    obtain ⟨hin, htomb'⟩ := List.mem_filter.1 he
    exact List.mem_toFinset.2 (hafter e hin htomb')
  have hcard := Finset.card_le_card hsubset
  rw [List.toFinset_card_of_nodup (List.nodup_cons.1 hafterNodup).2, List.length_map] at hcard
  exact hmany.trans hcard

/-- A pruning keeps a followed tombstone that is neither old nor in excess. -/
theorem prune {r : SubscriptionRevisions} (h : Follows ids r.states id s)
    (htomb : s.isTombstone = true) {now : ℤ} (hfresh : s.expired now = false)
    (hfew : ids.toFinset.card < r.maximumTombstones) :
    Follows ids (r.prune now).states id s := by
  have hlive : Follows ids (r.unexpired now) id s := h.filter (by simp [hfresh])
  refine hlive.filter ?_
  rw [decide_eq_true_iff]
  intro hsurplus
  exact absurd (hlive.le_card_of_mem_surplus htomb hsurplus) (Nat.not_le.2 hfew)

end Follows

section Following

variable {r : SubscriptionRevisions} {id : String} {n : ℕ} {t : ℤ} {ids : List String}

/-- An unsubscribe that records no tombstone of `id` keeps following it. -/
theorem Follows.unsubscribe (h : Follows ids r.states id (.tombstone n t)) {queryId : String}
    {revision : Option ℕ} {now : ℤ} (hfresh : now - t < retentionMs)
    (hother : (r.unsubscribe queryId revision now).2 = true → revision ≠ none →
      queryId ≠ id ∧ queryId ∈ ids)
    (hfew : ids.toFinset.card < r.maximumTombstones) :
    Follows ids (r.unsubscribe queryId revision now).1.states id (.tombstone n t) := by
  have hexpired : (RevisionState.tombstone n t).expired now = false := by
    rw [Bool.eq_false_iff]
    intro hold
    exact absurd (RevisionState.expired_tombstone.1 hold) (not_le.2 hfresh)
  have hpruned := h.prune rfl hexpired hfew
  rcases r.unsubscribe_eq queryId revision now with ⟨-, heq⟩ | ⟨hobeyed, ⟨hnone, heq⟩ | ⟨m, hsome, heq⟩⟩
  · rw [heq]
    exact hpruned
  · rw [heq]
    -- without a revision only a legacy entry is removed, and `id` has a revision
    refine hpruned.delete ?_
    rintro rfl
    have hrefused : refusesUnsubscribe (some (.tombstone n t)) revision = true :=
      refusesUnsubscribe_of_lt rfl (by simp [hnone])
    rw [hpruned.get, hrefused] at hobeyed
    cases hobeyed
  · obtain ⟨hne, hmem⟩ := hother (by rw [heq]) (by simp [hsome])
    rw [heq]
    have hset := hpruned.delete_set hne (v := .tombstone m now) fun _ => hmem
    exact Follows.prune (r := ⟨r.maximumTombstones, _⟩) hset rfl hexpired hfew

/-- A subscribe that is not an accepted newer one of `id` keeps following it. -/
theorem Follows.subscribe (h : Follows ids r.states id (.tombstone n t)) {queryId : String}
    {revision : Option ℕ} {requestKey : String} {now : ℤ} (hfresh : now - t < retentionMs)
    (hnewer : (r.subscribe queryId revision requestKey now).2 = true → queryId = id →
      ∀ m ∈ revision, m ≤ n)
    (hfew : ids.toFinset.card < r.maximumTombstones) :
    Follows ids (r.subscribe queryId revision requestKey now).1.states id (.tombstone n t) := by
  have hexpired : (RevisionState.tombstone n t).expired now = false := by
    rw [Bool.eq_false_iff]
    intro hold
    exact absurd (RevisionState.expired_tombstone.1 hold) (not_le.2 hfresh)
  have hpruned := h.prune rfl hexpired hfew
  rcases r.subscribe_eq queryId revision requestKey now with ⟨-, heq⟩ | ⟨hobeyed, heq⟩
  · rw [heq]
    exact hpruned
  · have hne : queryId ≠ id := by
      rintro rfl
      have hle := hnewer (by rw [heq]) rfl
      have hrefused : refusesSubscribe (some (.tombstone n t)) revision requestKey = true :=
        refusesSubscribe_of_le requestKey rfl hle
      rw [hpruned.get, hrefused] at hobeyed
      cases hobeyed
    rw [heq]
    exact hpruned.delete_set hne fun htomb => by cases htomb

/-- One operation keeps following a tombstone it neither supersedes, records
again, outlives nor crowds out. -/
theorem Follows.perform (h : Follows ids r.states id (.tombstone n t)) {op : Operation}
    (hfresh : op.now - t < retentionMs)
    (hagain : (r.perform op).2 = true → op.recorded.map Prod.fst ≠ some id)
    (hnewer : (r.perform op).2 = true → ∀ m requestKey now,
      op = .subscribe id (some m) requestKey now → m ≤ n)
    (hids : (r.perform op).2 = true → ∀ k ∈ op.recorded.map Prod.fst, k ∈ ids)
    (hfew : ids.toFinset.card < r.maximumTombstones) :
    Follows ids (r.perform op).1.states id (.tombstone n t) := by
  have hunsubscribe : ∀ queryId revision now,
      (op.recorded = revision.map fun n => (queryId, RevisionState.tombstone n now)) →
      r.perform op = r.unsubscribe queryId revision now → now - t < retentionMs →
      Follows ids (r.unsubscribe queryId revision now).1.states id (.tombstone n t) := by
    intro queryId revision now hrecorded heq hnow
    refine h.unsubscribe hnow ?_ hfew
    intro hobeyed hsome
    obtain ⟨m, rfl⟩ := Option.ne_none_iff_exists'.1 hsome
    have hfst : op.recorded.map Prod.fst = some queryId := by simp [hrecorded]
    rw [heq, hfst] at hagain hids
    exact ⟨fun hid => hagain hobeyed (by rw [hid]), hids hobeyed queryId rfl⟩
  cases op with
  | subscribe queryId revision requestKey now =>
      refine h.subscribe hfresh ?_ hfew
      rintro hobeyed rfl m rfl
      exact hnewer hobeyed m requestKey now rfl
  | unsubscribe queryId revision now =>
      exact hunsubscribe queryId revision now rfl rfl hfresh
  | complete queryId revision now =>
      rcases r.complete_eq queryId revision now with heq | heq
      · simpa [SubscriptionRevisions.perform, heq] using h
      · simp only [SubscriptionRevisions.perform, heq]
        exact hunsubscribe queryId revision now rfl (by simp [SubscriptionRevisions.perform, heq])
          hfresh

theorem mem_accepted_cons {op q : Operation} {ops : List Operation} :
    q ∈ r.accepted (op :: ops) ↔
      ((r.perform op).2 = true ∧ q = op) ∨ q ∈ (r.perform op).1.accepted ops := by
  by_cases h : (r.perform op).2 = true <;> simp [accepted, h]

/-- A whole run keeps following a tombstone that it neither supersedes, records
again, outlives nor crowds out. -/
theorem Follows.run {ops : List Operation} (h : Follows ids r.states id (.tombstone n t))
    (hfresh : ∀ op ∈ ops, op.now - t < retentionMs)
    (hagain : id ∉ recordedIds (r.accepted ops))
    (hnewer : ∀ m requestKey now,
      Operation.subscribe id (some m) requestKey now ∈ r.accepted ops → m ≤ n)
    (hids : recordedIds (r.accepted ops) ⊆ ids)
    (hfew : ids.toFinset.card < r.maximumTombstones) :
    Follows ids (r.run ops).states id (.tombstone n t) := by
  induction ops generalizing r with
  | nil => exact h
  | cons op ops ih =>
      have hhead : (r.perform op).2 = true → ∀ k ∈ op.recorded.map Prod.fst,
          k ∈ recordedIds (r.accepted (op :: ops)) := by
        intro hobeyed k hk
        exact List.mem_filterMap.2 ⟨op, mem_accepted_cons.2 (Or.inl ⟨hobeyed, rfl⟩), hk⟩
      have htail : recordedIds ((r.perform op).1.accepted ops) ⊆
          recordedIds (r.accepted (op :: ops)) := by
        intro k hk
        obtain ⟨q, hq, hrec⟩ := List.mem_filterMap.1 hk
        exact List.mem_filterMap.2 ⟨q, mem_accepted_cons.2 (Or.inr hq), hrec⟩
      have hstep := h.perform (hfresh op List.mem_cons_self)
        (fun hobeyed hrec => hagain (hhead hobeyed id hrec))
        (fun hobeyed m requestKey now heq =>
          hnewer m requestKey now (mem_accepted_cons.2 (Or.inl ⟨hobeyed, heq.symm⟩)))
        (fun hobeyed k hk => hids (hhead hobeyed k hk)) hfew
      exact ih hstep (fun q hq => hfresh q (List.mem_cons_of_mem _ hq))
        (fun hmem => hagain (htail hmem))
        (fun m requestKey now hmem =>
          hnewer m requestKey now (mem_accepted_cons.2 (Or.inr hmem)))
        (fun k hk => hids (htail hk)) (by simpa using hfew)

end Following

/-- An accepted unsubscribe leaves its tombstone with nothing behind it. -/
theorem follows_of_recorded {r : SubscriptionRevisions} {op : Operation} {id : String}
    {s : RevisionState} (hrecorded : op.recorded = some (id, s))
    (hobeyed : (r.perform op).2 = true) (hpos : 0 < r.maximumTombstones) :
    ∃ n, s = .tombstone n op.now ∧ Follows [] (r.perform op).1.states id s := by
  have hunsubscribe : ∀ queryId revision now,
      (revision.map fun n => (queryId, RevisionState.tombstone n now)) = some (id, s) →
      (r.unsubscribe queryId revision now).2 = true →
      ∃ n, s = .tombstone n now ∧ Follows [] (r.unsubscribe queryId revision now).1.states id s := by
    intro queryId revision now hmap hyes
    obtain ⟨n, rfl, heq⟩ := Option.map_eq_some_iff.1 hmap
    obtain ⟨rfl, rfl⟩ := Prod.mk.inj heq
    refine ⟨n, rfl, ?_⟩
    have hexpired : (RevisionState.tombstone n now).expired now = false := by
      rw [Bool.eq_false_iff]
      intro hold
      have hage := RevisionState.expired_tombstone.1 hold
      rw [Int.sub_self] at hage
      exact absurd hage (by decide)
    rcases r.unsubscribe_eq queryId (some n) now with ⟨-, heq'⟩ | ⟨-, ⟨hnone, -⟩ | ⟨m, hsome, heq'⟩⟩
    · rw [heq'] at hyes
      cases hyes
    · cases hnone
    · obtain rfl : n = m := Option.some.inj hsome
      rw [heq']
      have hlast : Follows [] (((r.prune now).states.delete queryId).set queryId
          (.tombstone n now)) queryId (.tombstone n now) :=
        ⟨_, [], InsertionMap.entries_delete_set _ _ _, by simp⟩
      exact Follows.prune (r := ⟨r.maximumTombstones, _⟩) hlast rfl hexpired (by simpa using hpos)
  cases op with
  | subscribe queryId revision requestKey now => cases hrecorded
  | unsubscribe queryId revision now => exact hunsubscribe queryId revision now hrecorded hobeyed
  | complete queryId revision now =>
      rcases r.complete_eq queryId revision now with heq | heq
      · rw [perform, heq] at hobeyed
        cases hobeyed
      · rw [perform, heq] at hobeyed ⊢
        exact hunsubscribe queryId revision now hrecorded hobeyed

/-! ### The stored revision is the last accepted one -/

/-- Every entry stores the revision of the last operation accepted for its id. -/
def StoresLast (history : List Operation) (r : SubscriptionRevisions) : Prop :=
  ∀ id s, r.states.get id = some s → lastRevision id history = some s.revision

theorem lastRevision_append_singleton (id : String) (history : List Operation) (op : Operation) :
    lastRevision id (history ++ [op]) =
      if op.queryId = id then some op.revision else lastRevision id history := by
  by_cases h : op.queryId = id <;> simp [lastRevision, List.filter_append, h]

theorem StoresLast.prune {history : List Operation} {r : SubscriptionRevisions}
    (h : StoresLast history r) (now : ℤ) : StoresLast history (r.prune now) :=
  fun id s hget => h id s (get_of_get_prune hget)

/-- Deleting the entry of the operation's id keeps every other entry's last revision. -/
theorem StoresLast.delete {history : List Operation} {r : SubscriptionRevisions}
    (h : StoresLast history r) (op : Operation) (maximum : ℕ) :
    StoresLast (history ++ [op]) ⟨maximum, r.states.delete op.queryId⟩ := by
  intro id s hget
  have hne : id ≠ op.queryId := by
    rintro rfl
    simp at hget
  rw [lastRevision_append_singleton, if_neg (Ne.symm hne)]
  exact h id s ((r.states.get_delete_of_ne hne).symm.trans hget)

/-- Storing the revision of the operation under its id. -/
theorem StoresLast.set {history : List Operation} {r : SubscriptionRevisions}
    (h : StoresLast history r) (op : Operation) (maximum : ℕ) {v : RevisionState}
    (hv : v.revision = op.revision) :
    StoresLast (history ++ [op])
      ⟨maximum, (r.states.delete op.queryId).set op.queryId v⟩ := by
  intro id s hget
  by_cases hid : id = op.queryId
  · subst hid
    have hs : v = s := by simpa using hget
    rw [lastRevision_append_singleton, if_pos rfl, ← hs, hv]
  · refine (h.delete op maximum) id s ?_
    rw [← InsertionMap.get_set_of_ne _ v hid]
    exact hget

theorem StoresLast.unsubscribe {history : List Operation} {r : SubscriptionRevisions}
    (h : StoresLast history r) (op : Operation) {now : ℤ} :
    StoresLast (history ++ if (r.unsubscribe op.queryId op.revision now).2 then [op] else [])
      (r.unsubscribe op.queryId op.revision now).1 := by
  rcases r.unsubscribe_eq op.queryId op.revision now with
    ⟨-, heq⟩ | ⟨-, ⟨-, heq⟩ | ⟨n, hsome, heq⟩⟩
  · simpa [heq] using h.prune now
  · simpa [heq] using (h.prune now).delete op r.maximumTombstones
  · simp only [heq, if_true]
    exact ((h.prune now).set op _ (by rw [hsome]; rfl)).prune now

theorem StoresLast.perform {history : List Operation} {r : SubscriptionRevisions}
    (h : StoresLast history r) (op : Operation) :
    StoresLast (history ++ if (r.perform op).2 then [op] else []) (r.perform op).1 := by
  cases op with
  | subscribe queryId revision requestKey now =>
      rcases r.subscribe_eq queryId revision requestKey now with ⟨-, heq⟩ | ⟨-, heq⟩
      · simpa [SubscriptionRevisions.perform, heq] using h.prune now
      · simp only [SubscriptionRevisions.perform, heq, if_true]
        exact (h.prune now).set (.subscribe queryId revision requestKey now) _ rfl
  | unsubscribe queryId revision now =>
      exact h.unsubscribe (.unsubscribe queryId revision now)
  | complete queryId revision now =>
      rcases r.complete_eq queryId revision now with heq | heq
      · simpa [SubscriptionRevisions.perform, heq] using h
      · simp only [SubscriptionRevisions.perform, heq]
        exact h.unsubscribe (.complete queryId revision now)

theorem StoresLast.run {history : List Operation} {r : SubscriptionRevisions}
    (h : StoresLast history r) (ops : List Operation) :
    StoresLast (history ++ r.accepted ops) (r.run ops) := by
  induction ops generalizing history r with
  | nil => simpa [accepted, SubscriptionRevisions.run] using h
  | cons op ops ih =>
      rw [accepted, ← List.append_assoc]
      exact ih (h.perform op)

theorem storesLast_run_new (maximum : ℕ) (ops : List Operation) :
    StoresLast ((new maximum).accepted ops) ((new maximum).run ops) := by
  have hnew : StoresLast [] (new maximum) := by
    intro id s hget
    cases hget
  simpa using hnew.run ops

@[simp] theorem maximumTombstones_run (r : SubscriptionRevisions) (ops : List Operation) :
    (r.run ops).maximumTombstones = r.maximumTombstones := by
  induction ops generalizing r with
  | nil => rfl
  | cons op ops ih => rw [run, ih, maximumTombstones_perform]

/-- A tombstone that is gone was superseded by a newer subscribe, outlived its
retention, or was crowded out by `maximumTombstones` other ids. -/
theorem tombstone_gone {r : SubscriptionRevisions} {op : Operation} {after : List Operation}
    {id : String} {s : RevisionState} {n : ℕ}
    (hrecorded : op.recorded = some (id, s)) (hrevision : s.revision = some n)
    (hobeyed : (r.perform op).2 = true)
    (hlast : id ∉ recordedIds ((r.perform op).1.accepted after))
    (hgone : ((r.perform op).1.run after).states.get id ≠ some s) :
    (∃ m requestKey now, n < m ∧
        Operation.subscribe id (some m) requestKey now ∈ (r.perform op).1.accepted after) ∨
      (∃ q ∈ after, retentionMs ≤ q.now - op.now) ∨
      r.maximumTombstones ≤ (recordedIds ((r.perform op).1.accepted after)).toFinset.card := by
  by_contra hnone
  push Not at hnone
  obtain ⟨hnewer, hfresh, hfew⟩ := hnone
  obtain ⟨n', rfl, hfollows⟩ := follows_of_recorded hrecorded hobeyed (by omega)
  obtain rfl : n' = n := Option.some.inj hrevision
  have hrun := (hfollows.mono (List.nil_subset _)).run hfresh hlast
    (fun m requestKey now hmem => by
      by_contra hlt
      exact hnewer m requestKey now (by omega) hmem)
    (List.Subset.refl _) (by simpa using hfew)
  exact hgone hrun.get

/-- Revision precedence with bounded tombstones, after every sequence of
operations: what is not newer than a live revision or a retained tombstone is
refused; a tombstone disappears for one of three reasons; an accepted
unsubscribe leaves at most `maximum` tombstones; pruning spares active entries. -/
theorem revision_precedence (maximum : ℕ) (ops : List Operation) :
    (∀ id last now, ((new maximum).run ops).Retains id last now →
      lastRevision id ((new maximum).accepted ops) = some (some last) ∧
      (∀ revision requestKey, (∀ n ∈ revision, n ≤ last) →
        (((new maximum).run ops).subscribe id revision requestKey now).2 = false ∧
        (((new maximum).run ops).subscribe id revision requestKey now).1.states.get id =
          ((new maximum).run ops).states.get id) ∧
      (∀ revision, (∀ n ∈ revision, n < last) →
        (((new maximum).run ops).unsubscribe id revision now).2 = false ∧
        (((new maximum).run ops).unsubscribe id revision now).1.states.get id =
          ((new maximum).run ops).states.get id)) ∧
    (∀ before op after id s n, ops = before ++ op :: after →
      op.recorded = some (id, s) → s.revision = some n →
      (((new maximum).run before).perform op).2 = true →
      id ∉ recordedIds (((new maximum).run (before ++ [op])).accepted after) →
      ((new maximum).run ops).states.get id ≠ some s →
      (∃ m requestKey now, n < m ∧ Operation.subscribe id (some m) requestKey now ∈
          ((new maximum).run (before ++ [op])).accepted after) ∨
        (∃ q ∈ after, retentionMs ≤ q.now - op.now) ∨
        maximum ≤
          (recordedIds (((new maximum).run (before ++ [op])).accepted after)).toFinset.card) ∧
    (∀ id revision now, (((new maximum).run ops).unsubscribe id revision now).2 = true →
      (tombstones (((new maximum).run ops).unsubscribe id revision now).1.states).length ≤
        maximum) ∧
    (∀ id s now, ((new maximum).run ops).states.get id = some s → s.active = true →
      (((new maximum).run ops).prune now).states.get id = some s) := by
  have hmaximum : ∀ ops, ((new maximum).run ops).maximumTombstones = maximum := fun ops => by
    rw [maximumTombstones_run]
    rfl
  refine ⟨?_, ?_, ?_, ?_⟩
  · intro id last now hretains
    refine ⟨?_, fun revision requestKey hle => hretains.subscribe_refused requestKey hle,
      fun revision hlt => hretains.unsubscribe_refused hlt⟩
    obtain ⟨s, hget, hlast, -⟩ := hretains
    rw [storesLast_run_new maximum ops id s hget, hlast]
  · rintro before op after id s n rfl hrecorded hrevision hobeyed hlast hgone
    have hsnoc : (new maximum).run (before ++ [op]) = (((new maximum).run before).perform op).1 :=
      run_append _ _ _
    rw [hsnoc] at hlast ⊢
    rw [run_append] at hgone
    have h := tombstone_gone hrecorded hrevision hobeyed hlast hgone
    rwa [hmaximum before] at h
  · intro id revision now _
    have h := length_tombstones_unsubscribe_le ((new maximum).run ops) id revision now
    rwa [hmaximum ops] at h
  · intro id s now hget hactive
    exact get_prune_of_active hget hactive

/-- A delayed subscribe stays refused behind its own unsubscribe, and a single
slot of tombstones gives up the older of two ids. -/
theorem revision_precedence_delayed :
    (((new 1).run [.subscribe "a" (some 1) "all" 0, .unsubscribe "a" (some 2) 10]).subscribe
        "a" (some 1) "all" 20).2 = false ∧
      1 ≤ (recordedIds (((new 1).run ([] ++ [.unsubscribe "a" (some 1) 0])).accepted
        [.unsubscribe "b" (some 1) 5])).toFinset.card := by
  constructor
  · have hretains : ((new 1).run
        [.subscribe "a" (some 1) "all" 0, .unsubscribe "a" (some 2) 10]).Retains "a" 2 20 :=
      ⟨.tombstone 2 10, by decide, rfl, Or.inr (by decide)⟩
    have hrefused := ((revision_precedence 1
      [.subscribe "a" (some 1) "all" 0, .unsubscribe "a" (some 2) 10]).1 "a" 2 20 hretains).2.1
    exact (hrefused (some 1) "all" (by decide)).1
  · have hgone := (revision_precedence 1 [.unsubscribe "a" (some 1) 0,
      .unsubscribe "b" (some 1) 5]).2.1 [] (.unsubscribe "a" (some 1) 0)
      [.unsubscribe "b" (some 1) 5] "a" (.tombstone 1 0) 1 rfl rfl rfl (by decide) (by decide)
      (by decide)
    rcases hgone with ⟨m, requestKey, now, -, hmem⟩ | ⟨q, hq, hage⟩ | hcrowded
    · exact absurd hmem (by simp [accepted, perform, unsubscribe, refusesUnsubscribe, run, new])
    · obtain rfl : q = .unsubscribe "b" (some 1) 5 := by simpa using hq
      exact absurd hage (by decide)
    · exact hcrowded

end SubscriptionRevisions

end Arc.Observable
