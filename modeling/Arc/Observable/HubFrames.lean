import Arc.Observable.HubTable

/-!
# The frames of a hub connection

`Sends c t g` says that between `c` and `t` at most one frame was given to the
output, for `g`, and that `g` was registered at that moment. Every continuation
of a runner satisfies it because it asks `isCurrent` before it sends, except one:
after the admission of `g` has failed, its error is logged and then sent without
asking again.
-/

namespace Arc.Observable.HubConnection

variable {ν : Type*}

@[simp] theorem handed_update (c : HubConnection ν) (g : ℕ)
    (f : HubSubscription ν → HubSubscription ν) : (c.update g f).handed = c.handed := rfl

@[simp] theorem handed_enter (c : HubConnection ν) (g : ℕ) (phase : Phase ν) :
    (c.enter g phase).handed = c.handed := rfl

@[simp] theorem handed_answer (c : HubConnection ν) (g : ℕ) (outcome : HubSubscriptionOutcome) :
    (c.answer g outcome).handed = c.handed := rfl

@[simp] theorem handed_closeOutput (c : HubConnection ν) : c.closeOutput.handed = c.handed := rfl

@[simp] theorem handed_completed (c : HubConnection ν) (g : ℕ) (now : ℤ) :
    (c.completed g now).handed = c.handed := by
  rw [completed]
  split
  · rfl
  · split_ifs <;> rfl

@[simp] theorem handed_finishAdmission (c : HubConnection ν) (g : ℕ)
    (outcome : HubSubscriptionOutcome) (now : ℤ) :
    (c.finishAdmission g outcome now).handed = c.handed := by
  simp [finishAdmission]

@[simp] theorem handed_closeFailedAdmission (c : HubConnection ν) (g : ℕ) (error : HubFailure)
    (now : ℤ) : (c.closeFailedAdmission g error now).handed = c.handed := by
  simp only [closeFailedAdmission]
  split_ifs <;> simp

theorem registered_of_isCurrent {c : HubConnection ν} {g : ℕ} (h : c.isCurrent g = true) :
    c.registered g = true := by
  simp only [isCurrent, Bool.and_eq_true] at h
  exact h.2

/-- A registered generation exists. -/
theorem exists_of_registered {c : HubConnection ν} {g : ℕ} (h : c.registered g = true) :
    ∃ s, c.generations[g]? = some s := by
  rw [registered, Option.any_eq_true] at h
  obtain ⟨s, hs, -⟩ := h
  exact ⟨s, hs⟩

theorem handed_send {c : HubConnection ν} {g : ℕ} {s : HubSubscription ν}
    (hs : c.generations[g]? = some s) (type : HubFrameType) (payload : HubPayload ν) :
    (c.send g type payload).handed = c.handed ++
      [⟨⟨type, s.queryId, s.revision, payload⟩, some g, c.registered g⟩] := by
  simp [send, hs]

/-- At most one frame was sent, for a generation registered at that moment. -/
def Sends (c t : HubConnection ν) (g : ℕ) : Prop :=
  t.handed = c.handed ∨
    ∃ f, t.handed = c.handed ++ [f] ∧ f.generation = some g ∧ f.registered = true

namespace Sends

variable {c t : HubConnection ν} {g : ℕ}

theorem of_handed (h : t.handed = c.handed) : Sends c t g := Or.inl h

theorem enter (h : Sends c t g) (phase : Phase ν) : Sends c (t.enter g phase) g := h

theorem send (h : c.registered g = true) (type : HubFrameType) (payload : HubPayload ν) :
    Sends c (c.send g type payload) g := by
  obtain ⟨s, hs⟩ := exists_of_registered h
  exact Or.inr ⟨_, handed_send hs type payload, rfl, h⟩

theorem sendFailure (h : c.registered g = true) (error : HubFailure) :
    Sends c (c.sendFailure g error) g :=
  (send h _ _).enter _

theorem admissionFailed (error : HubFailure) : Sends c (c.admissionFailed g error) g := by
  simp only [HubConnection.admissionFailed]
  split_ifs with hstale
  · exact of_handed rfl
  · exact of_handed rfl
  · exact sendFailure (registered_of_isCurrent (by simp_all)) error
  · exact of_handed rfl

theorem admitSync (h : c.registered g = true) (lookup : Lookup) :
    Sends c (c.admitSync g lookup) g := by
  cases lookup with
  | unknown => exact (send h _ _).enter _
  | failing error => exact admissionFailed error
  | opens => exact of_handed rfl

theorem opened (rejection : Option Bool) : Sends c (c.opened g rejection) g := by
  simp only [HubConnection.opened]
  split_ifs with hstale
  · exact of_handed rfl
  · have hcurrent := registered_of_isCurrent (by simpa using hstale)
    rcases rejection with _ | _ | _
    · exact of_handed rfl
    · exact (send hcurrent _ _).enter _
    · exact (send hcurrent _ _).enter _

theorem reportDelivery : Sends c (c.reportDelivery g) g := by
  simp only [HubConnection.reportDelivery]
  split_ifs with hcurrent
  · rw [Bool.and_eq_true] at hcurrent
    exact (send (registered_of_isCurrent hcurrent.1) _ _).enter _
  · exact of_handed rfl

theorem deliveryFailed (error : HubFailure) : Sends c (c.deliveryFailed g error) g := by
  simp only [HubConnection.deliveryFailed]
  split_ifs
  · exact of_handed rfl
  · exact reportDelivery

theorem emitted (result : Queries.QueryResult Json ν) (preparable : Bool) :
    Sends c (c.emitted g result preparable) g := by
  simp only [HubConnection.emitted]
  split
  · exact of_handed rfl
  · split_ifs with hstale
    · exact of_handed rfl
    all_goals
      have hcurrent := registered_of_isCurrent (by simpa using hstale)
    · exact (send hcurrent _ _).enter _
    · exact (send hcurrent _ _).enter _
    · exact of_handed rfl
    · exact (send hcurrent _ _).enter _

theorem written (prepared : Prepared ν) : Sends c (c.written g prepared) g := by
  simp only [HubConnection.written]
  split_ifs <;> exact of_handed rfl

end Sends

/-- Resuming a runner sends for its registered generation, unless the failure of its
admission has just been logged. -/
theorem sends_settle {c t : HubConnection ν} {g : ℕ} {answered : Settlement ν} {now : ℤ}
    (h : c.settle g answered now = some t) :
    Sends c t g ∨ ∃ error,
      c.generations[g]?.map HubSubscription.phase = some (.loggingFailure error) ∧
        answered = .fulfilled ∧ t = c.sendFailure g error := by
  unfold settle at h
  split at h
  all_goals cases h
  all_goals first
    | exact Or.inl (Sends.of_handed (by simp [finishDelivery]))
    | exact Or.inl (Sends.admissionFailed _)
    | exact Or.inl (Sends.opened _)
    | exact Or.inl (Sends.emitted _ _)
    | exact Or.inl (Sends.deliveryFailed _)
    | exact Or.inl (Sends.written _)
    | exact Or.inl Sends.reportDelivery
    | exact Or.inr ⟨_, by assumption, rfl, rfl⟩

/-- A new generation is registered when its runner starts. -/
theorem registered_register {c : HubConnection ν} {queryId : String} {revision : Option ℕ}
    {request : HubRequest} (h : c.states.isActive queryId revision = true) :
    (c.register queryId revision request).registered c.generations.length = true := by
  simp [registered, register, h]

/-- A subscribe sends for the generation it registers, or for none. -/
theorem sends_subscribe (c : HubConnection ν) (queryId : String) (revision : Option ℕ)
    (payload : Option HubRequest) (lookup : Lookup) (now : ℤ) :
    Sends c (c.subscribe queryId revision payload lookup now).1 c.generations.length ∨
      ∃ f, (c.subscribe queryId revision payload lookup now).1.handed = c.handed ++ [f] ∧
        f.generation = none := by
  cases payload with
  | none =>
      refine Or.inl (Sends.of_handed ?_)
      simp only [subscribe]
      split_ifs <;> rfl
  | some request =>
      simp only [subscribe]
      split_ifs with hclosed hinvalid hfull hobeyed
      · exact Or.inl (Sends.of_handed rfl)
      · exact Or.inl (Sends.of_handed rfl)
      · exact Or.inr ⟨_, rfl, rfl⟩
      · have hactive : (c.states.subscribe queryId revision request.key now).1.isActive queryId
            revision = true := by
          rw [SubscriptionRevisions.isActive_iff, SubscriptionRevisions.activeRevision_subscribe,
            if_pos ⟨hobeyed, rfl⟩]
        exact Or.inl (Sends.admitSync (registered_register hactive) lookup)
      · exact Or.inl (Sends.of_handed rfl)

/-! ### Runs -/

/-- Every frame sent for a generation found it registered. -/
def AllRegistered (c : HubConnection ν) : Prop :=
  ∀ f ∈ c.handed, f.generation ≠ none → f.registered = true

theorem AllRegistered.of_handed {c t : HubConnection ν} (h : t.handed = c.handed) :
    AllRegistered t ↔ AllRegistered c := by
  rw [AllRegistered, h, AllRegistered]

theorem allRegistered_append {c t : HubConnection ν} {f : Handed ν}
    (h : t.handed = c.handed ++ [f]) :
    AllRegistered t ↔ AllRegistered c ∧ (f.generation ≠ none → f.registered = true) := by
  rw [AllRegistered, h, AllRegistered]
  simp only [List.mem_append, List.mem_singleton]
  constructor
  · exact fun hall => ⟨fun f' hf' => hall f' (Or.inl hf'), hall f (Or.inr rfl)⟩
  · rintro ⟨hall, hlast⟩ f' (hf' | rfl)
    · exact hall f' hf'
    · exact hlast

theorem Sends.allRegistered {c t : HubConnection ν} {g : ℕ} (h : Sends c t g) :
    AllRegistered t ↔ AllRegistered c := by
  rcases h with h | ⟨f, h, -, hregistered⟩
  · exact AllRegistered.of_handed h
  · rw [allRegistered_append h]
    exact and_iff_left fun _ => hregistered

/-- When the logging of a failed admission ends, its generation is still registered. -/
def LogsRegistered (c : HubConnection ν) : HubEvent ν → Prop
  | .settle g .fulfilled _ => ∀ error,
      c.generations[g]?.map HubSubscription.phase = some (.loggingFailure error) →
        c.registered g = true
  | _ => True

/-- One event sends only for registered generations exactly when it does not end the
logging of a failed admission whose generation is gone. -/
theorem allRegistered_step {c t : HubConnection ν} {e : HubEvent ν} (h : c.step e = some t) :
    AllRegistered t ↔ AllRegistered c ∧ LogsRegistered c e := by
  cases e with
  | subscribe queryId revision payload lookup now =>
      obtain rfl : (c.subscribe queryId revision payload lookup now).1 = t := Option.some.inj h
      rcases c.sends_subscribe queryId revision payload lookup now with hsends | ⟨f, hf, hnone⟩
      · rw [hsends.allRegistered]
        exact (and_iff_left trivial).symm
      · rw [allRegistered_append hf]
        exact and_congr_right fun _ => iff_of_true (fun hsome => absurd hnone hsome) trivial
  | unsubscribe queryId revision now =>
      obtain rfl : c.unsubscribe queryId revision now = t := Option.some.inj h
      have hsame : (c.unsubscribe queryId revision now).handed = c.handed := by
        simp only [unsubscribe]
        split_ifs <;> rfl
      rw [AllRegistered.of_handed hsame]
      exact (and_iff_left trivial).symm
  | settle g answered now =>
      by_cases hlogged : answered = .fulfilled ∧ ∃ error,
          c.generations[g]?.map HubSubscription.phase = some (.loggingFailure error)
      · obtain ⟨rfl, error, hphase⟩ := hlogged
        obtain ⟨s, hs, -⟩ := Option.map_eq_some_iff.1 hphase
        obtain rfl : c.sendFailure g error = t := by simpa [step, settle, hphase] using h
        have hsent : (c.sendFailure g error).handed = c.handed ++ [_] := handed_send hs _ _
        rw [allRegistered_append hsent]
        refine and_congr_right fun _ => ⟨fun hsome _ _ => hsome (by simp), fun hall _ => ?_⟩
        exact hall error hphase
      · have hlogs : LogsRegistered c (.settle g answered now) := by
          cases answered with
          | fulfilled => exact fun error hphase => absurd ⟨rfl, error, hphase⟩ hlogged
          | _ => trivial
        rcases sends_settle h with hsends | ⟨error, hphase, rfl, -⟩
        · rw [hsends.allRegistered]
          exact (and_iff_left hlogs).symm
        · exact absurd ⟨rfl, error, hphase⟩ hlogged
  | close =>
      obtain rfl : c.close = t := Option.some.inj h
      exact (and_iff_left trivial).symm
  | clearSubscriptions =>
      simp only [step] at h
      split_ifs at h
      obtain rfl : c.clearSubscriptions = t := Option.some.inj h
      exact (and_iff_left trivial).symm
  | releaseTransport =>
      obtain rfl : c.releaseTransport = t := Option.some.inj h
      have hsame : c.releaseTransport.handed = c.handed := by
        rw [releaseTransport]
        split_ifs <;> rfl
      rw [AllRegistered.of_handed hsame]
      exact (and_iff_left trivial).symm
  | abortOutput =>
      obtain rfl : c.closeOutput = t := Option.some.inj h
      exact (and_iff_left trivial).symm

/-- Every frame of a run was handed over while its generation was registered in the
connection and active in the revision table, exactly when in that run no logging of a
failed admission ends after its generation is gone. -/
theorem frames_current (tombstones limit : ℕ) (events : List (HubEvent ν))
    (c : HubConnection ν)
    (hrun : (machine ν tombstones limit).exec (machine ν tombstones limit).init events = some c) :
    (∀ f ∈ c.handed, f.generation ≠ none → f.registered = true) ↔
      (machine ν tombstones limit).Within LogsRegistered
        (machine ν tombstones limit).init events := by
  have hinit : AllRegistered (machine ν tombstones limit).init := by
    intro f hf
    cases hf
  have hiff := (machine ν tombstones limit).exec_iff (I := fun _ => True) (P := AllRegistered)
    (fun _ _ _ _ _ => trivial) (fun s e t _ ht => allRegistered_step ht) trivial hrun
  exact hiff.trans (and_iff_right hinit)

/-- A subscription is replaced while its first frame is being written. -/
def replacedWhileWriting : List (HubEvent Unit) :=
  [.subscribe "a" none (some ⟨"all", none⟩) .opens 0,
    .settle 0 (.opened none) 1,
    .settle 0 (.emitted (Queries.queryResult "c" { data := some (.number 1) }) true) 2,
    .subscribe "a" (some 1) (some ⟨"all", none⟩) .opens 3,
    .settle 0 .fulfilled 4,
    .settle 1 (.opened (some false)) 5]

theorem frames_current_replaced :
    (machine Unit 4 2).Within LogsRegistered (machine Unit 4 2).init replacedWhileWriting := by
  refine (frames_current 4 2 replacedWhileWriting _ rfl).1 ?_
  decide +kernel

/-- An unsubscribe while the failure of an admission is being logged: the error is
sent for a subscription that is gone. -/
theorem frame_after_unsubscribe :
    ((machine Unit 4 2).exec (machine Unit 4 2).init
      [.subscribe "a" none (some ⟨"all", none⟩) .opens 0,
        .settle 0 (.failed .other) 1,
        .unsubscribe "a" none 2,
        .settle 0 .fulfilled 3]).map
      (fun c => c.handed.map fun f => (f.generation, f.registered)) =
    some [(some 0, false)] := by
  decide +kernel

end Arc.Observable.HubConnection
