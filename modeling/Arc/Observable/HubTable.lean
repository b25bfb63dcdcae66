import Arc.Observable.HubConnection

/-!
# The subscription table of a hub connection

`HubTable` is what the two data structures of a connection are for: which
generation is live under which id, and which revision is active. It has four
operations, `accept`, `release`, `complete` and `shut`, and every event of the
connection is one of them or none (`table_step`): runners suspend, answer and
send without touching the table.

The invariant `HubTable.Agrees` says that a table that is not shut has a live
generation under an id exactly when the revision table has the id active, with
the same revision, and that the limit holds.
-/

namespace Arc.Observable

/-- The part of a connection that decides which generation is current. -/
structure HubTable where
  limit : ℕ
  states : SubscriptionRevisions
  subscriptions : InsertionMap String ℕ
  identities : List (String × Option ℕ)
  shut : Bool

namespace HubTable

def registered (t : HubTable) (g : ℕ) : Bool :=
  t.identities[g]?.any fun s =>
    decide (t.subscriptions.get s.1 = some g) && t.states.isActive s.1 s.2

/-- Shut the table, if asked to. -/
def shutIf (t : HubTable) (closes : Bool) : HubTable := { t with shut := t.shut || closes }

/-- A generation completes: it leaves the table if it is still the stored one. -/
def complete (t : HubTable) (g : ℕ) (now : ℤ) : HubTable :=
  match t.identities[g]? with
  | none => t
  | some s =>
      if t.subscriptions.get s.1 = some g then
        { t with
          subscriptions := t.subscriptions.delete s.1
          states := (t.states.complete s.1 s.2 now).1 }
      else t

/-- A new generation takes the id over. -/
def accept (t : HubTable) (states : SubscriptionRevisions) (id : String)
    (revision : Option ℕ) : HubTable :=
  { t with
    states := states
    subscriptions := t.subscriptions.set id t.identities.length
    identities := t.identities ++ [(id, revision)] }

/-- The revision table has changed, and the id is free if the change was obeyed. -/
def release (t : HubTable) (states : SubscriptionRevisions) (id : String) (obeyed : Bool) :
    HubTable :=
  { t with
    states := states
    subscriptions := if obeyed then t.subscriptions.delete id else t.subscriptions }

@[simp] theorem shutIf_false (t : HubTable) : t.shutIf false = t := by
  simp [shutIf]

end HubTable

namespace HubConnection

variable {ν : Type*}

/-- The table of a connection. -/
def table (c : HubConnection ν) : HubTable where
  limit := c.hubSubscriptionsPerConnection
  states := c.states
  subscriptions := c.subscriptions
  identities := c.generations.map fun s => (s.queryId, s.revision)
  shut := c.closed

/-! ### The runner does not touch the table -/

theorem map_modify_of_eq {α β : Type*} (l : List α) (g : ℕ) (f : α → α) (p : α → β)
    (h : ∀ a, p (f a) = p a) : (l.modify g f).map p = l.map p := by
  induction l generalizing g with
  | nil => cases g <;> rfl
  | cons a l ih => cases g <;> simp [h, ih]

theorem table_update (c : HubConnection ν) (g : ℕ) (f : HubSubscription ν → HubSubscription ν)
    (h : ∀ s, ((f s).queryId, (f s).revision) = (s.queryId, s.revision)) :
    (c.update g f).table = c.table := by
  simp only [table, update, closed]
  rw [map_modify_of_eq _ _ _ _ h]

@[simp] theorem table_enter (c : HubConnection ν) (g : ℕ) (phase : Phase ν) :
    (c.enter g phase).table = c.table := c.table_update g _ fun _ => rfl

@[simp] theorem table_answer (c : HubConnection ν) (g : ℕ) (outcome : HubSubscriptionOutcome) :
    (c.answer g outcome).table = c.table := c.table_update g _ fun _ => rfl

@[simp] theorem table_send (c : HubConnection ν) (g : ℕ) (type : HubFrameType)
    (payload : HubPayload ν) : (c.send g type payload).table = c.table := by
  rw [send]
  split <;> rfl

@[simp] theorem table_closeOutput (c : HubConnection ν) :
    c.closeOutput.table = c.table.shutIf true := by
  simp [table, closeOutput, HubTable.shutIf, closed]

@[simp] theorem table_completed (c : HubConnection ν) (g : ℕ) (now : ℤ) :
    (c.completed g now).table = c.table.complete g now := by
  simp only [completed, HubTable.complete, table, List.getElem?_map]
  cases hg : c.generations[g]? with
  | none => rfl
  | some s => by_cases hlive : c.subscriptions.get s.queryId = some g <;> simp [hlive, closed]

@[simp] theorem table_finishAdmission (c : HubConnection ν) (g : ℕ)
    (outcome : HubSubscriptionOutcome) (now : ℤ) :
    (c.finishAdmission g outcome now).table = c.table.complete g now := by
  simp [finishAdmission]

@[simp] theorem table_sendFailure (c : HubConnection ν) (g : ℕ) (error : HubFailure) :
    (c.sendFailure g error).table = c.table := by
  simp [sendFailure]

@[simp] theorem table_admissionFailed (c : HubConnection ν) (g : ℕ) (error : HubFailure) :
    (c.admissionFailed g error).table = c.table := by
  simp only [admissionFailed]
  split_ifs <;> simp

@[simp] theorem table_admitSync (c : HubConnection ν) (g : ℕ) (lookup : Lookup) :
    (c.admitSync g lookup).table = c.table := by
  cases lookup <;> simp [admitSync]

@[simp] theorem table_opened (c : HubConnection ν) (g : ℕ) (rejection : Option Bool) :
    (c.opened g rejection).table = c.table := by
  have hsession : (c.update g fun s => { s with session := true }).table = c.table :=
    c.table_update g _ fun _ => rfl
  simp only [opened]
  split_ifs
  · simpa using hsession
  · rcases rejection with _ | _ | _ <;> simpa using hsession

@[simp] theorem table_reportDelivery (c : HubConnection ν) (g : ℕ) :
    (c.reportDelivery g).table = c.table := by
  simp only [reportDelivery]
  split_ifs <;> simp

@[simp] theorem table_deliveryFailed (c : HubConnection ν) (g : ℕ) (error : HubFailure) :
    (c.deliveryFailed g error).table = c.table := by
  simp only [deliveryFailed]
  split_ifs <;> simp

@[simp] theorem table_emitted (c : HubConnection ν) (g : ℕ) (result : Queries.QueryResult Json ν)
    (preparable : Bool) : (c.emitted g result preparable).table = c.table := by
  simp only [emitted]
  split
  · rfl
  · split_ifs <;> simp

@[simp] theorem table_written (c : HubConnection ν) (g : ℕ) (prepared : Prepared ν) :
    (c.written g prepared).table = c.table := by
  simp only [written]
  split_ifs
  · simp
  · rw [table_enter]
    exact c.table_update g _ fun _ => rfl

theorem table_closeFailedAdmission (c : HubConnection ν) (g : ℕ) (error : HubFailure) (now : ℤ) :
    (c.closeFailedAdmission g error now).table = c.table ∨
      (c.closeFailedAdmission g error now).table = c.table.complete g now := by
  simp only [closeFailedAdmission]
  split_ifs
  · exact Or.inl (by simp)
  · exact Or.inr (by simp)

/-- A runner that is resumed at most completes its own generation and closes the
connection. -/
theorem table_settle {c t : HubConnection ν} {g : ℕ} {answered : Settlement ν} {now : ℤ}
    (h : c.settle g answered now = some t) :
    ∃ closes, t.table = c.table.shutIf closes ∨
      t.table = (c.table.shutIf closes).complete g now := by
  have hquiet : t.table = c.table → ∃ closes, t.table = c.table.shutIf closes ∨
      t.table = (c.table.shutIf closes).complete g now := fun heq => ⟨false, Or.inl (by simpa)⟩
  have hcompletes : t.table = c.table.complete g now → ∃ closes, t.table = c.table.shutIf closes ∨
      t.table = (c.table.shutIf closes).complete g now := fun heq => ⟨false, Or.inr (by simpa)⟩
  have hcloses : ∀ error, t = c.closeOutput.closeFailedAdmission g error now →
      ∃ closes, t.table = c.table.shutIf closes ∨
        t.table = (c.table.shutIf closes).complete g now := by
    rintro error rfl
    exact ⟨true, by simpa using c.closeOutput.table_closeFailedAdmission g error now⟩
  unfold settle at h
  split at h
  all_goals cases h
  all_goals first
    | exact hcloses _ rfl
    | exact (c.table_closeFailedAdmission g _ now).elim hquiet hcompletes
    | (apply hquiet; simp; done)
    | (apply hcompletes; simp [finishDelivery]; done)
    | exact ⟨true, Or.inl (by simp)⟩

end HubConnection

/-! ### The invariant of the table -/

namespace HubTable

/-- The live generations are the active entries of the revision table, with the same
revision, and no more than the limit. -/
structure Agrees (t : HubTable) : Prop where
  live : ∀ id g, t.subscriptions.get id = some g →
    ∃ revision, t.identities[g]? = some (id, revision) ∧
      t.states.activeRevision id = some revision
  idle : ∀ id, t.subscriptions.get id = none → t.states.activeRevision id = none
  bounded : t.subscriptions.size ≤ t.limit

/-- A table that is not shut agrees. -/
def Consistent (t : HubTable) : Prop := t.shut = false → t.Agrees

namespace Agrees

variable {t : HubTable}

theorem size_eq_activeCount (h : t.Agrees) : t.subscriptions.size = t.states.activeCount := by
  rw [SubscriptionRevisions.activeCount_eq]
  refine InsertionMap.size_eq_of_keys fun id => ?_
  rw [SubscriptionRevisions.mem_keys_filter_active, InsertionMap.mem_keys_iff]
  constructor
  · rintro ⟨g, hg⟩
    obtain ⟨revision, -, hactive⟩ := h.live id g hg
    exact ⟨revision, hactive⟩
  · rintro ⟨revision, hactive⟩
    by_contra hnone
    have hidle := h.idle id
      (Option.eq_none_iff_forall_ne_some.2 fun g hg => hnone ⟨g, hg⟩)
    rw [hidle] at hactive
    cases hactive

/-- Only the active entries matter to the agreement. -/
theorem of_activeRevision (h : t.Agrees) {states : SubscriptionRevisions}
    (hsame : ∀ id, states.activeRevision id = t.states.activeRevision id) :
    Agrees { t with states := states } where
  live id g hg := by
    obtain ⟨revision, hidentity, hactive⟩ := h.live id g hg
    exact ⟨revision, hidentity, (hsame id).trans hactive⟩
  idle id hnone := (hsame id).trans (h.idle id hnone)
  bounded := h.bounded

theorem shutIf (h : t.Agrees) (closes : Bool) : (t.shutIf closes).Agrees :=
  ⟨h.live, h.idle, h.bounded⟩

/-- Freeing an id in both structures. -/
theorem delete (h : t.Agrees) {states : SubscriptionRevisions} {queryId : String}
    (hactive : ∀ id, states.activeRevision id =
      if id = queryId then none else t.states.activeRevision id) :
    Agrees { t with states := states, subscriptions := t.subscriptions.delete queryId } where
  live id g hg := by
    have hne : id ≠ queryId := by
      rintro rfl
      simp at hg
    obtain ⟨revision, hidentity, hrevision⟩ :=
      h.live id g ((t.subscriptions.get_delete_of_ne hne).symm.trans hg)
    exact ⟨revision, hidentity, by rw [hactive, if_neg hne, hrevision]⟩
  idle id hnone := by
    by_cases hid : id = queryId
    · rw [hactive, if_pos hid]
    · rw [hactive, if_neg hid]
      exact h.idle id ((t.subscriptions.get_delete_of_ne hid).symm.trans hnone)
  bounded := (t.subscriptions.size_delete_le queryId).trans h.bounded

/-- The stored generation is active with its own revision. -/
theorem activeRevision_of_stored (h : t.Agrees) {g : ℕ} {s : String × Option ℕ}
    (hidentity : t.identities[g]? = some s) (hlive : t.subscriptions.get s.1 = some g) :
    t.states.activeRevision s.1 = some s.2 := by
  obtain ⟨revision, hsame, hactive⟩ := h.live s.1 g hlive
  have heq : s = (s.1, revision) := Option.some.inj (hidentity.symm.trans hsame)
  rw [hactive, congrArg Prod.snd heq]

theorem complete (h : t.Agrees) (g : ℕ) (now : ℤ) : (t.complete g now).Agrees := by
  rw [HubTable.complete]
  cases hidentity : t.identities[g]? with
  | none => exact h
  | some s =>
      dsimp only
      split_ifs with hlive
      · have hactive := h.activeRevision_of_stored hidentity hlive
        exact h.delete (SubscriptionRevisions.activeRevision_complete hactive now)
      · exact h

/-- The completion of a generation leaves the entry of every other one. -/
theorem complete_other (h : t.Agrees) {g other : ℕ} (now : ℤ) {id : String}
    (hother : t.subscriptions.get id = some other) (hne : other ≠ g) :
    (t.complete g now).subscriptions.get id = some other ∧
      (t.complete g now).states.activeRevision id = t.states.activeRevision id := by
  rw [HubTable.complete]
  cases hidentity : t.identities[g]? with
  | none => exact ⟨hother, rfl⟩
  | some s =>
      dsimp only
      split_ifs with hlive
      · have hid : id ≠ s.1 := by
          rintro rfl
          exact hne (Option.some.inj (hother.symm.trans hlive))
        have hactive := h.activeRevision_of_stored hidentity hlive
        refine ⟨(t.subscriptions.get_delete_of_ne hid).trans hother, ?_⟩
        rw [SubscriptionRevisions.activeRevision_complete hactive, if_neg hid]
      · exact ⟨hother, rfl⟩

theorem release (h : t.Agrees) (queryId : String) (revision : Option ℕ) (now : ℤ) :
    (t.release (t.states.unsubscribe queryId revision now).1 queryId
      (t.states.unsubscribe queryId revision now).2).Agrees := by
  have hactive := t.states.activeRevision_unsubscribe queryId revision now
  cases hobeyed : (t.states.unsubscribe queryId revision now).2 with
  | false =>
      simp only [hobeyed, Bool.false_eq_true, false_and, if_false] at hactive
      exact h.of_activeRevision hactive
  | true =>
      simp only [hobeyed, true_and] at hactive
      exact h.delete hactive

/-- A new generation takes a live id over, or a free one below the limit. -/
theorem accept (h : t.Agrees) {queryId : String} {revision : Option ℕ} {requestKey : String}
    {now : ℤ} (hobeyed : (t.states.subscribe queryId revision requestKey now).2 = true)
    (hroom : (∃ g, t.subscriptions.get queryId = some g) ∨ t.states.activeCount < t.limit) :
    (t.accept (t.states.subscribe queryId revision requestKey now).1 queryId revision).Agrees := by
  have hactive := t.states.activeRevision_subscribe queryId revision requestKey now
  simp only [hobeyed, true_and] at hactive
  refine ⟨?_, ?_, ?_⟩
  · intro id g hg
    by_cases hid : id = queryId
    · subst hid
      obtain rfl : t.identities.length = g := by simpa [HubTable.accept] using hg
      exact ⟨revision, by simp [HubTable.accept], by simp [HubTable.accept, hactive]⟩
    · have hold := (t.subscriptions.get_set_of_ne t.identities.length hid).symm.trans hg
      obtain ⟨revision', hidentity, hrevision⟩ := h.live id g hold
      refine ⟨revision', ?_, by simp [HubTable.accept, hactive, hid, hrevision]⟩
      exact List.getElem?_append_left (List.getElem?_eq_some_iff.1 hidentity).1 ▸ hidentity
  · intro id hnone
    have hid : id ≠ queryId := by
      rintro rfl
      simp [HubTable.accept] at hnone
    have hold := (t.subscriptions.get_set_of_ne t.identities.length hid).symm.trans hnone
    simp [HubTable.accept, hactive, hid, h.idle id hold]
  · rcases hroom with ⟨g, hg⟩ | hroom
    · exact (InsertionMap.size_set_of_mem hg).le.trans h.bounded
    · cases hfree : t.subscriptions.get queryId with
      | some g => exact (InsertionMap.size_set_of_mem hfree).le.trans h.bounded
      | none =>
          refine (InsertionMap.size_set_of_not_mem hfree).le.trans ?_
          rw [h.size_eq_activeCount]
          exact hroom

end Agrees

theorem complete_shut (t : HubTable) (g : ℕ) (now : ℤ) : (t.complete g now).shut = t.shut := by
  rw [complete]
  cases t.identities[g]? with
  | none => rfl
  | some s =>
      dsimp only
      split_ifs <;> rfl

theorem complete_limit (t : HubTable) (g : ℕ) (now : ℤ) : (t.complete g now).limit = t.limit := by
  rw [complete]
  cases t.identities[g]? with
  | none => rfl
  | some s =>
      dsimp only
      split_ifs <;> rfl

theorem Consistent.complete {t : HubTable} (h : t.Consistent) (g : ℕ) (now : ℤ) :
    (t.complete g now).Consistent := by
  intro hopen
  rw [complete_shut] at hopen
  exact (h hopen).complete g now

theorem Consistent.shutIf {t : HubTable} (h : t.Consistent) (closes : Bool) :
    (t.shutIf closes).Consistent := by
  intro hopen
  simp only [HubTable.shutIf, Bool.or_eq_false_iff] at hopen
  exact (h hopen.1).shutIf closes

end HubTable

/-! ### The connection -/

namespace HubConnection

variable {ν : Type*}

/-- An event other than a resumed runner changes the table by one of its operations. -/
theorem table_subscribe (c : HubConnection ν) (queryId : String) (revision : Option ℕ)
    (payload : Option HubRequest) (lookup : Lookup) (now : ℤ) :
    (c.subscribe queryId revision payload lookup now).1.table = c.table ∨
      ∃ key, ((c.table.states.subscribe queryId revision key now).2 = false ∧
          (c.subscribe queryId revision payload lookup now).1.table =
            c.table.release (c.table.states.subscribe queryId revision key now).1 queryId false) ∨
        ((c.table.states.subscribe queryId revision key now).2 = true ∧
          ((∃ g, c.table.subscriptions.get queryId = some g) ∨
            c.table.states.activeCount < c.table.limit) ∧
          (c.subscribe queryId revision payload lookup now).1.table =
            c.table.accept (c.table.states.subscribe queryId revision key now).1 queryId
              revision) := by
  cases payload with
  | none =>
      refine Or.inl ?_
      simp only [subscribe]
      split_ifs <;> rfl
  | some request =>
      simp only [subscribe]
      split_ifs with hclosed hinvalid hfull hobeyed
      · exact Or.inl rfl
      · exact Or.inl rfl
      · exact Or.inl rfl
      · refine Or.inr ⟨request.key, Or.inr ⟨hobeyed, ?_, ?_⟩⟩
        · rw [Bool.and_eq_true, not_and_or, decide_eq_true_iff, Nat.not_le,
            Option.isNone_iff_eq_none] at hfull
          exact hfull.imp_left Option.ne_none_iff_exists'.1
        · rw [table_admitSync]
          simp [register, table, HubTable.accept, closed]
      · exact Or.inr ⟨request.key, Or.inl ⟨by simpa [table] using hobeyed, rfl⟩⟩

theorem table_unsubscribe (c : HubConnection ν) (queryId : String) (revision : Option ℕ)
    (now : ℤ) :
    (c.unsubscribe queryId revision now).table = c.table ∨
      (c.unsubscribe queryId revision now).table =
        c.table.release (c.table.states.unsubscribe queryId revision now).1 queryId
          (c.table.states.unsubscribe queryId revision now).2 := by
  simp only [unsubscribe]
  split_ifs with hinvalid hobeyed
  · exact Or.inl rfl
  · exact Or.inr (by simp [hobeyed, HubTable.release, table, closed])
  · exact Or.inr (by simp [hobeyed, HubTable.release, table, closed])

/-- One event keeps the limit and the consistency of the table. -/
theorem consistent_step {c t : HubConnection ν} {e : HubEvent ν} (h : c.table.Consistent)
    (hstep : c.step e = some t) : t.table.limit = c.table.limit ∧ t.table.Consistent := by
  cases e with
  | subscribe queryId revision payload lookup now =>
      obtain rfl : (c.subscribe queryId revision payload lookup now).1 = t :=
        Option.some.inj hstep
      rcases c.table_subscribe queryId revision payload lookup now with
        heq | ⟨key, ⟨hrefused, heq⟩ | ⟨hobeyed, hroom, heq⟩⟩
      · rw [heq]
        exact ⟨rfl, h⟩
      · rw [heq]
        refine ⟨rfl, fun hopen => (h hopen).of_activeRevision fun id => ?_⟩
        rw [SubscriptionRevisions.activeRevision_subscribe, hrefused]
        simp
      · rw [heq]
        exact ⟨rfl, fun hopen => (h hopen).accept hobeyed hroom⟩
  | unsubscribe queryId revision now =>
      obtain rfl : c.unsubscribe queryId revision now = t := Option.some.inj hstep
      rcases c.table_unsubscribe queryId revision now with heq | heq
      · rw [heq]
        exact ⟨rfl, h⟩
      · rw [heq]
        exact ⟨rfl, fun hopen => (h hopen).release queryId revision now⟩
  | settle g answered now =>
      obtain ⟨closes, heq | heq⟩ := table_settle hstep
      · rw [heq]
        exact ⟨rfl, h.shutIf closes⟩
      · rw [heq]
        exact ⟨HubTable.complete_limit _ g now, (h.shutIf closes).complete g now⟩
  | close =>
      obtain rfl : c.close = t := Option.some.inj hstep
      exact ⟨rfl, fun hopen => by simp [table, close, closed] at hopen⟩
  | clearSubscriptions =>
      simp only [step] at hstep
      split_ifs at hstep
      obtain rfl : c.clearSubscriptions = t := Option.some.inj hstep
      exact ⟨rfl, fun hopen => by simp [table, clearSubscriptions, closeOutput, closed] at hopen⟩
  | releaseTransport =>
      obtain rfl : c.releaseTransport = t := Option.some.inj hstep
      rw [releaseTransport]
      split_ifs with hclosed
      · exact ⟨rfl, h⟩
      · exact ⟨rfl, fun hopen => by simp [table, closeOutput, closed] at hopen⟩
  | abortOutput =>
      obtain rfl : c.closeOutput = t := Option.some.inj hstep
      exact ⟨rfl, fun hopen => by simp [table, closeOutput, closed] at hopen⟩

theorem agrees_of_reachable {tombstones limit : ℕ} {c : HubConnection ν}
    (hc : (machine ν tombstones limit).Reachable c) (hopen : c.closed = false) :
    c.table.limit = limit ∧ c.table.Agrees := by
  have hinv : c.table.limit = limit ∧ c.table.Consistent := by
    refine Machine.Reachable.invariant _
      (P := fun c : HubConnection ν => c.table.limit = limit ∧ c.table.Consistent) ?_ ?_ hc
    · refine ⟨rfl, fun _ => ⟨?_, fun _ _ => rfl, Nat.zero_le _⟩⟩
      intro id g hg
      cases hg
    · rintro c e t ⟨hlimit, hconsistent⟩ hstep
      obtain ⟨hsame, h⟩ := consistent_step hconsistent hstep
      exact ⟨hsame.trans hlimit, h⟩
  exact ⟨hinv.1, hinv.2 hopen⟩

/-- In every reachable state of a connection that is not closed, the live
subscriptions are the active entries of the revision table with the same revision,
they are counted by it and within the limit, and resuming the runner of one
generation leaves the entry of every other one alone. -/
theorem subscription_table {tombstones limit : ℕ} {c : HubConnection ν}
    (hc : (machine ν tombstones limit).Reachable c) (hopen : c.closed = false) :
    (∀ id revision, (∃ g s, c.subscriptions.get id = some g ∧ c.generations[g]? = some s ∧
        s.queryId = id ∧ s.revision = revision) ↔ c.states.isActive id revision = true) ∧
    (∀ id, (∃ g, c.subscriptions.get id = some g) ↔
        ∃ revision, c.states.isActive id revision = true) ∧
    c.subscriptions.size = c.states.activeCount ∧ c.states.activeCount ≤ limit ∧
    ∀ g answered now t, c.settle g answered now = some t →
      ∀ id other, c.subscriptions.get id = some other → other ≠ g →
        t.subscriptions.get id = some other ∧
          ∀ revision, t.states.isActive id revision = c.states.isActive id revision := by
  obtain ⟨hlimit, hagrees⟩ := agrees_of_reachable hc hopen
  have hlive : ∀ id g, c.subscriptions.get id = some g →
      ∃ s, c.generations[g]? = some s ∧ s.queryId = id ∧
        c.states.isActive id s.revision = true := by
    intro id g hg
    obtain ⟨revision, hidentity, hactive⟩ := hagrees.live id g hg
    obtain ⟨s, hs, heq⟩ : ∃ s, c.generations[g]? = some s ∧
        (s.queryId, s.revision) = (id, revision) := by
      simpa [table, List.getElem?_map] using hidentity
    obtain ⟨rfl, rfl⟩ := Prod.mk.inj heq
    exact ⟨s, hs, rfl, SubscriptionRevisions.isActive_iff.2 hactive⟩
  have hidle : ∀ id revision, c.states.isActive id revision = true →
      ∃ g, c.subscriptions.get id = some g := by
    intro id revision hactive
    rw [SubscriptionRevisions.isActive_iff] at hactive
    by_contra hnone
    have hfree : c.states.activeRevision id = none := hagrees.idle id
      (Option.eq_none_iff_forall_ne_some.2 fun g hg => hnone ⟨g, hg⟩)
    exact absurd (hfree.symm.trans hactive) (by simp)
  refine ⟨?_, ?_, hagrees.size_eq_activeCount, ?_, ?_⟩
  · intro id revision
    constructor
    · rintro ⟨g, s, hg, hs, -, rfl⟩
      obtain ⟨s', hs', -, hactive⟩ := hlive id g hg
      obtain rfl : s = s' := Option.some.inj (hs.symm.trans hs')
      exact hactive
    · intro hactive
      obtain ⟨g, hg⟩ := hidle id revision hactive
      obtain ⟨s, hs, hid, hactive'⟩ := hlive id g hg
      rw [SubscriptionRevisions.isActive_iff] at hactive hactive'
      exact ⟨g, s, hg, hs, hid, Option.some.inj (hactive'.symm.trans hactive)⟩
  · intro id
    constructor
    · rintro ⟨g, hg⟩
      obtain ⟨s, -, -, hactive⟩ := hlive id g hg
      exact ⟨s.revision, hactive⟩
    · rintro ⟨revision, hactive⟩
      exact hidle id revision hactive
  · rw [← hlimit]
    exact hagrees.size_eq_activeCount.symm.trans_le hagrees.bounded
  · intro g answered now t hsettle id other hother hne
    have hkept : t.table.subscriptions.get id = some other ∧
        t.table.states.activeRevision id = c.table.states.activeRevision id := by
      obtain ⟨closes, heq | heq⟩ := table_settle hsettle
      · rw [heq]
        exact ⟨hother, rfl⟩
      · rw [heq]
        exact (hagrees.shutIf closes).complete_other now hother hne
    refine ⟨hkept.1, fun revision => ?_⟩
    rw [Bool.eq_iff_iff, SubscriptionRevisions.isActive_iff, SubscriptionRevisions.isActive_iff]
    exact iff_of_eq (congrArg (· = some revision) hkept.2)

/-- A legacy subscription is replaced by a revisioned one. -/
def replaced : List (HubEvent Unit) :=
  [.subscribe "a" none (some ⟨"all", none⟩) .opens 0,
    .subscribe "a" (some 1) (some ⟨"all", none⟩) .opens 1]

/-- The replaced generation fails after its replacement has been registered: the
table keeps the replacement. -/
theorem subscription_table_replaced :
    ∃ c t, (machine Unit 4 2).exec (machine Unit 4 2).init replaced = some c ∧
      c.settle 0 (.failed .badRequest) 2 = some t ∧
      c.subscriptions.size = c.states.activeCount ∧
      t.subscriptions.get "a" = some 1 := by
  have hreachable : ∀ c, (machine Unit 4 2).exec (machine Unit 4 2).init replaced = some c →
      (machine Unit 4 2).Reachable c := fun c hc => ⟨replaced, hc⟩
  refine ⟨_, _, rfl, rfl, (subscription_table (hreachable _ rfl) rfl).2.2.1, ?_⟩
  exact ((subscription_table (hreachable _ rfl) rfl).2.2.2.2 0 (.failed .badRequest) 2 _ rfl
    "a" 1 rfl (by decide)).1

end HubConnection

end Arc.Observable
