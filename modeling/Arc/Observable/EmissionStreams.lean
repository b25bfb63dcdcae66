import Arc.Observable.EmissionGuards

/-!
# Emission guards over a stream

`Decided` says what stands before and after an evaluation in the log of a whole
stream. The log after a refusal is the unauthorized result and then whatever the
catch block adds: the guards are obeyed exactly when no refusal ends in the catch
block, by a failing report or by a source that fails to close.
-/

namespace Arc.Observable

open Queries

namespace ObservableQuerySession

variable {δ ν : Type*} {session : ObservableQuerySession δ ν}

variable (session) in
/-- What the catch block adds to the log. -/
def aftermath (c : Caught) : Except Failure Unit → List (StreamEvent δ ν)
  | .ok _ => []
  | .error error => (session.caught c error).1

variable (session) in
/-- What the log holds after an emission. -/
def following (c : Caught) (e : Emission δ ν) (rest : List (Arrival δ ν)) :
    Next → List (StreamEvent δ ν)
  | .continues d => (session.guardedEmissions c d rest).1
  | .leaves => session.aftermath c e.release
  | .throws error => session.aftermath c (.error error)

theorem guardedEmissions_eq (c : Caught) (d : Bool) (arrivals : List (Arrival δ ν)) :
    (session.guardedEmissions c d arrivals).1 =
      (session.emissions d arrivals).1 ++ session.aftermath c (session.emissions d arrivals).2 := by
  rw [guardedEmissions]
  rcases session.emissions d arrivals with ⟨events, error | _⟩
  · rfl
  · exact (List.append_nil events).symm

theorem guardedEmissions_emission (c : Caught) (d : Bool) (e : Emission δ ν)
    (rest : List (Arrival δ ν)) :
    (session.guardedEmissions c d (.emission e :: rest)).1 =
      .received e :: ((session.deliver d e).1 ++
        session.following c e rest (session.deliver d e).2) := by
  rw [guardedEmissions_eq, emissions]
  rcases session.deliver d e with ⟨events, next⟩
  cases next with
  | continues d' => simp [following, guardedEmissions_eq]
  | leaves => simp [following]
  | throws error => simp [following]

theorem evaluated_not_mem_aftermath (c : Caught) (outcome : Except Failure Unit)
    (e : Emission δ ν) (first : Bool) : .evaluated e first ∉ session.aftermath c outcome := by
  cases outcome with
  | ok _ => simp [aftermath]
  | error error =>
      simp only [aftermath, caught]
      split_ifs
      · simp
      · simp
      · cases c.report <;> simp

/-- Where an element that starts `l` or does not occur in it can stand in `y :: l ++ tail`. -/
theorem split_head {α : Type*} {x y : α} {l tail pre post : List α} (hx : x ∉ l.tail)
    (hne : y ≠ x) (h : y :: (l ++ tail) = pre ++ x :: post) :
    (∃ l', l = x :: l' ∧ pre = [y] ∧ post = l' ++ tail) ∨
      ∃ pre', pre = y :: (l ++ pre') ∧ tail = pre' ++ x :: post := by
  cases pre with
  | nil => exact absurd (List.cons.inj h).1 hne
  | cons z pre =>
      obtain ⟨rfl, hrest⟩ := List.cons.inj h
      rcases List.append_eq_append_iff.1 hrest with ⟨mid, rfl, htail⟩ | ⟨mid, rfl, hpost⟩
      · exact Or.inr ⟨mid, rfl, htail⟩
      · cases mid with
        | nil => exact Or.inr ⟨[], by simp, hpost.symm⟩
        | cons w mid =>
            obtain ⟨rfl, rfl⟩ := List.cons.inj hpost
            cases pre with
            | nil => exact Or.inl ⟨mid, rfl, rfl, rfl⟩
            | cons z' pre => exact absurd (by simp) hx

variable (session) in
/-- How leaving the loop at a refused emission ends. -/
def escape (e : Emission δ ν) : Except Failure Unit :=
  match session.reported e with
  | .ok _ => e.release
  | .error error => .error error

variable (session) in
/-- The answer to a refused emission. -/
def answer (e : Emission δ ν) : List (StreamEvent δ ν) :=
  match session.reported e with
  | .ok _ => if e.stopped then [] else [.yielded (some e) (session.redact session.denied)]
  | .error _ => []

variable (session) in
/-- The emission is at this place of the source, and nothing before it ends the stream. -/
def Reaches (arrivals before : List (Arrival δ ν)) (e : Emission δ ν)
    (rest : List (Arrival δ ν)) : Prop :=
  arrivals = before ++ .emission e :: rest ∧
    (∀ a ∈ before, ∃ e', a = .emission e' ∧ session.Passes e') ∧ Judged e

variable (session) in
/-- What stands around an evaluation in the log. -/
structure Decided (c : Caught) (d : Bool) (arrivals : List (Arrival δ ν))
    (pre : List (StreamEvent δ ν)) (e : Emission δ ν) (first : Bool)
    (post : List (StreamEvent δ ν)) : Prop where
  place : ∃ before rest, session.Reaches arrivals before e rest ∧
    (session.Suppressed e → e.stopped = false →
      post = (session.guardedEmissions c (!first) rest).1)
  first : first = true ↔ d = false ∧ ∀ o r, .yielded o r ∈ pre → r.isSuccess = false
  refused : session.Refused e → post = session.answer e ++ session.aftermath c (session.escape e)

/-- The evaluation of the emission the loop is at. -/
theorem Delivered.decided {d first : Bool} {e e' : Emission δ ν}
    {events : List (StreamEvent δ ν)} {next : Next} (h : Delivered session d e' (.evaluated e first :: events) next)
    (c : Caught) (rest : List (Arrival δ ν)) :
    session.Decided c d (.emission e' :: rest) [.received e'] e first
      (events ++ session.following c e' rest next) := by
  have hfirst : (!d) = true ↔ d = false ∧ ∀ (o : Option (Emission δ ν)) (r : QueryResult δ ν),
      .yielded o r ∈ [StreamEvent.received e'] → r.isSuccess = false := by
    simp
  have hplace : Judged e' → session.Reaches (.emission e' :: rest) [] e' rest :=
    fun hjudged => ⟨rfl, fun a ha => absurd ha List.not_mem_nil, hjudged⟩
  generalize hevents : StreamEvent.evaluated e first :: events = all at h
  cases h with
  | stopping | failing | unjudged | unjudgedStopped => cases hevents
  | allowed h hsuccess hallowed hrefused hstopped =>
      cases hevents
      refine ⟨⟨[], rest, hplace ⟨_, h, hsuccess⟩, fun hsuppressed => ?_⟩, hfirst, fun h => ?_⟩
      · exact absurd hallowed (not_allowed_of_suppressed hsuppressed)
      · exact absurd h hrefused
  | suppressed h hsuppressed hstopped =>
      cases hevents
      refine ⟨⟨[], rest, hplace h, fun _ _ => ?_⟩, hfirst, fun h => absurd h hsuppressed.1⟩
      rw [Bool.not_not]
      rfl
  | stopped h hrefused hstopped =>
      cases hevents
      refine ⟨⟨[], rest, hplace h, fun _ hrunning => ?_⟩, hfirst, fun h => absurd h hrefused⟩
      cases hstopped.symm.trans hrunning
  | unreported h hrefused hreported =>
      cases hevents
      refine ⟨⟨[], rest, hplace h, fun hsuppressed => absurd hrefused hsuppressed.1⟩, hfirst,
        fun _ => ?_⟩
      simp [answer, escape, hreported, following]
  | refusedStopped h hrefused hreported hstopped =>
      cases hevents
      refine ⟨⟨[], rest, hplace h, fun hsuppressed => absurd hrefused hsuppressed.1⟩, hfirst,
        fun _ => ?_⟩
      simp [answer, escape, hreported, hstopped, following]
  | refused h hrefused hreported hstopped =>
      cases hevents
      refine ⟨⟨[], rest, hplace h, fun hsuppressed => absurd hrefused hsuppressed.1⟩, hfirst,
        fun _ => ?_⟩
      simp [answer, escape, hreported, hstopped, following]

theorem Delivered.evaluated_not_mem_tail {d : Bool} {e : Emission δ ν}
    {events : List (StreamEvent δ ν)} {next : Next} (h : Delivered session d e events next)
    (e' : Emission δ ν) (first : Bool) : .evaluated e' first ∉ events.tail := by
  cases h <;> simp

/-- Every evaluation in the log of a stream is decided by the guards. -/
theorem decided (hguards : 0 < session.guards) (c : Caught) (d : Bool)
    (arrivals : List (Arrival δ ν)) {pre post : List (StreamEvent δ ν)} {e : Emission δ ν}
    {first : Bool}
    (h : (session.guardedEmissions c d arrivals).1 = pre ++ .evaluated e first :: post) :
    session.Decided c d arrivals pre e first post := by
  induction arrivals generalizing d pre with
  | nil => simp [guardedEmissions, emissions] at h
  | cons a rest ih =>
      cases a with
      | failed error =>
          have hmem : .evaluated e first ∈ session.aftermath c (.error error) := by
            rw [guardedEmissions_eq, emissions, List.nil_append] at h
            rw [h]
            simp
          exact absurd hmem (evaluated_not_mem_aftermath c _ e first)
      | emission e' =>
          have hdelivered := delivered hguards d e'
          rw [guardedEmissions_emission] at h
          rcases split_head (hdelivered.evaluated_not_mem_tail e first) (by simp) h with
            ⟨events, hevents, rfl, rfl⟩ | ⟨pre', rfl, htail⟩
          · rw [hevents] at hdelivered
            exact hdelivered.decided c rest
          · cases hnext : (session.deliver d e').2 with
            | continues d' =>
                rw [hnext] at htail
                obtain ⟨⟨before, rest', hreaches, hsuppressed⟩, hfirst, hrefused⟩ := ih d' htail
                obtain ⟨hpasses, hdelivers⟩ := hdelivered.continues hnext
                refine ⟨⟨.emission e' :: before, rest', ⟨?_, ?_, hreaches.2.2⟩, hsuppressed⟩, ?_,
                  hrefused⟩
                · rw [hreaches.1, List.cons_append]
                · intro a ha
                  rcases List.mem_cons.1 ha with rfl | ha
                  · exact ⟨e', rfl, hpasses⟩
                  · exact hreaches.2.1 a ha
                · rw [hfirst, hdelivers, and_assoc]
                  refine and_congr_right fun _ => ?_
                  simp only [List.mem_cons, List.mem_append, reduceCtorEq, false_or]
                  constructor
                  · rintro ⟨hevents, hpre⟩ o r (hmem | hmem)
                    · exact hevents o r hmem
                    · exact hpre o r hmem
                  · exact fun hall => ⟨fun o r hmem => hall o r (Or.inl hmem),
                      fun o r hmem => hall o r (Or.inr hmem)⟩
            | leaves =>
                have hmem : .evaluated e first ∈ session.aftermath c e'.release := by
                  rw [← following, ← hnext, htail]
                  simp
                exact absurd hmem (evaluated_not_mem_aftermath c _ e first)
            | throws error =>
                have hmem : .evaluated e first ∈ session.aftermath c (.error error) := by
                  rw [← following, ← hnext, htail]
                  simp
                exact absurd hmem (evaluated_not_mem_aftermath c _ e first)

/-- A reached emission that is put to the guards is evaluated. -/
theorem evaluated_of_reaches (hguards : 0 < session.guards) (c : Caught) (d : Bool)
    {arrivals before rest : List (Arrival δ ν)} {e : Emission δ ν}
    (h : session.Reaches arrivals before e rest) :
    ∃ pre first post,
      (session.guardedEmissions c d arrivals).1 = pre ++ .evaluated e first :: post := by
  obtain ⟨rfl, hpasses, hjudged⟩ := h
  induction before generalizing d with
  | nil =>
      rw [List.nil_append, guardedEmissions_emission]
      have hdelivered := delivered hguards d e
      have hhead : ∃ events, (session.deliver d e).1 = .evaluated e (!d) :: events := by
        obtain ⟨rendered, hpresented, hsuccess⟩ := hjudged
        generalize (session.deliver d e).1 = events, (session.deliver d e).2 = next at hdelivered
        cases hdelivered with
        | stopping h => cases h.symm.trans hpresented.1
        | failing error h => exact absurd hpresented (h rendered)
        | unjudged h hfailed hstopped | unjudgedStopped h hfailed hstopped =>
            cases hfailed.symm.trans (hpresented.unique h ▸ hsuccess)
        | _ => exact ⟨_, rfl⟩
      obtain ⟨events, hevents⟩ := hhead
      exact ⟨[.received e], !d, _, by rw [hevents]; rfl⟩
  | cons a before ih =>
      obtain ⟨e', rfl, he'⟩ := hpasses a List.mem_cons_self
      obtain ⟨d', hnext⟩ := (delivered hguards d e').of_passes he'
      obtain ⟨pre, first, post, hrest⟩ := ih d' fun a ha => hpasses a (List.mem_cons_of_mem _ ha)
      rw [List.cons_append, guardedEmissions_emission, hnext, following, hrest]
      exact ⟨.received e' :: ((session.deliver d e').1 ++ pre), first, post, by simp⟩

variable (session) in
/-- What a yielded result is: an emission as it was rendered, which the guards have
allowed, or a failure that belongs to no emission they have suppressed. -/
def Yieldable (events : List (StreamEvent δ ν)) (o : Option (Emission δ ν))
    (r : QueryResult δ ν) : Prop :=
  (∃ e rendered first, o = some e ∧ e.render = .ok rendered ∧
      r = session.redact rendered.result ∧ session.Allowed e ∧ .evaluated e first ∈ events) ∨
    (r.isSuccess = false ∧ ∀ e, o = some e → Judged e → session.Refused e)

theorem Yieldable.mono {events events' : List (StreamEvent δ ν)} {o : Option (Emission δ ν)}
    {r : QueryResult δ ν} (h : session.Yieldable events o r) (hsub : events ⊆ events') :
    session.Yieldable events' o r := by
  rcases h with ⟨e, rendered, first, ho, hrender, hr, hallowed, hmem⟩ | h
  · exact Or.inl ⟨e, rendered, first, ho, hrender, hr, hallowed, hsub hmem⟩
  · exact Or.inr h

theorem isSuccess_denied : session.denied.isSuccess = false := rfl

theorem Delivered.yieldable {d : Bool} {e : Emission δ ν} {events : List (StreamEvent δ ν)}
    {next : Next} (h : Delivered session d e events next) {o : Option (Emission δ ν)}
    {r : QueryResult δ ν} (hmem : .yielded o r ∈ events) : session.Yieldable events o r := by
  cases h with
  | unjudged h hfailed hstopped =>
      obtain ⟨rfl, rfl⟩ : o = some e ∧ r = _ := by simpa using hmem
      refine Or.inr ⟨by rw [isSuccess_redact, hfailed], fun e' he' hjudged => ?_⟩
      obtain rfl := Option.some.inj he'
      cases hfailed.symm.trans (hjudged.isSuccess h)
  | allowed h hsuccess hallowed hrefused hstopped =>
      obtain ⟨rfl, rfl⟩ : o = some e ∧ r = _ := by simpa using hmem
      exact Or.inl ⟨e, _, !d, rfl, h.2.1, rfl, hallowed, List.mem_cons_self⟩
  | refused h hrefused hreported hstopped =>
      obtain ⟨rfl, rfl⟩ : o = some e ∧ r = _ := by simpa using hmem
      refine Or.inr ⟨by rw [isSuccess_redact, isSuccess_denied], fun e' he' _ => ?_⟩
      exact Option.some.inj he' ▸ hrefused
  | _ => simp at hmem

theorem yieldable_of_mem_caught {c : Caught} {error : Failure} {events : List (StreamEvent δ ν)}
    {o : Option (Emission δ ν)} {r : QueryResult δ ν}
    (hmem : .yielded o r ∈ (session.caught c error).1) : session.Yieldable events o r := by
  rw [caught] at hmem
  split_ifs at hmem
  · simp at hmem
  · simp at hmem
  · cases hreport : c.report with
    | error failure => simp [hreport] at hmem
    | ok _ =>
        obtain ⟨rfl, rfl⟩ : o = none ∧ r = session.unexpected error := by
          simpa [hreport] using hmem
        exact Or.inr ⟨rfl, fun e he => nomatch he⟩

theorem yieldable_of_mem_aftermath {c : Caught} {outcome : Except Failure Unit}
    {events : List (StreamEvent δ ν)} {o : Option (Emission δ ν)} {r : QueryResult δ ν}
    (hmem : .yielded o r ∈ session.aftermath c outcome) : session.Yieldable events o r := by
  cases outcome with
  | ok _ => simp [aftermath] at hmem
  | error error => exact yieldable_of_mem_caught hmem

/-- Whatever a stream yields may be yielded. -/
theorem yieldable (hguards : 0 < session.guards) {c : Caught} {d : Bool}
    {arrivals : List (Arrival δ ν)} {o : Option (Emission δ ν)} {r : QueryResult δ ν}
    (hmem : .yielded o r ∈ (session.guardedEmissions c d arrivals).1) :
    session.Yieldable (session.guardedEmissions c d arrivals).1 o r := by
  induction arrivals generalizing d with
  | nil => simp [guardedEmissions, emissions] at hmem
  | cons a rest ih =>
      cases a with
      | failed error =>
          rw [guardedEmissions_eq, emissions, List.nil_append] at hmem
          exact yieldable_of_mem_aftermath hmem
      | emission e =>
          rw [guardedEmissions_emission] at hmem ⊢
          rcases List.mem_append.1 ((List.mem_cons.1 hmem).resolve_left (by simp)) with hmem | hmem
          · exact ((delivered hguards d e).yieldable hmem).mono
              (List.subset_cons_of_subset _ (List.subset_append_left _ _))
          · cases hnext : (session.deliver d e).2 with
            | continues d' =>
                rw [hnext] at hmem
                exact (ih hmem).mono
                  (List.subset_cons_of_subset _ (List.subset_append_right _ _))
            | leaves =>
                rw [hnext, following] at hmem
                exact yieldable_of_mem_aftermath hmem
            | throws error =>
                rw [hnext, following] at hmem
                exact yieldable_of_mem_aftermath hmem

/-! ### The guards are obeyed -/

variable (session) in
/-- What the guards of a session promise about the log of its stream. -/
structure Obeyed (c : Caught) (arrivals : List (Arrival δ ν)) (events : List (StreamEvent δ ν)) :
    Prop where
  allowed : ∀ o r, .yielded o r ∈ events → r.isSuccess = true →
    ∃ e rendered first, o = some e ∧ e.render = .ok rendered ∧
      r = session.redact rendered.result ∧ session.Allowed e ∧ .evaluated e first ∈ events
  suppressed : ∀ pre e first post, events = pre ++ .evaluated e first :: post →
    session.Suppressed e → (∀ r, .yielded (some e) r ∉ events) ∧
      (e.stopped = false → ∃ before rest, arrivals = before ++ .emission e :: rest ∧
        post = (session.guardedEmissions c (!first) rest).1)
  denied : ∀ pre e first post, events = pre ++ .evaluated e first :: post →
    session.Refused e → post = [] ∨
      ∃ r, post = [.yielded (some e) r] ∧ r.isAuthorized = false ∧ r.data = none
  first : ∀ pre e first post, events = pre ++ .evaluated e first :: post →
    (first = true ↔ ∀ o r, .yielded o r ∈ pre → r.isSuccess = false)

variable (session) in
/-- What the guards of a session promise about its current value. -/
structure CurrentObeyed (present : Except Failure Bool) (e : Emission δ ν) : Prop where
  allowed : ∀ r, session.current present e = .ok (some r) → r.isSuccess = true →
    session.Allowed e ∧ ∃ rendered, e.render = .ok rendered ∧ r = rendered.result
  suppressed : session.Suppressed e → ∀ rendered, e.render = .ok rendered →
    rendered.result.isSuccess = true → ∀ r, session.current present e ≠ .ok (some r)
  denied : session.Refused e → ∀ rendered, e.render = .ok rendered →
    rendered.result.isSuccess = true → ∀ r, session.current present e = .ok (some r) →
      r.isAuthorized = false ∧ r.data = none

variable (session) in
/-- No refused emission the stream gets to leaves it by throwing into a catch block that
is able to report what it caught. -/
def Contained (c : Caught) (arrivals : List (Arrival δ ν)) : Prop :=
  session.rejection = none → session.source = true → c.aborted = false → c.report = .ok () →
    ∀ before e rest, session.Reaches arrivals before e rest → session.Refused e →
      session.escape e = .ok ()

@[simp] theorem redact_denied : session.redact session.denied = session.denied := by
  simp [redact, denied, queryResult]

theorem Obeyed.of_not_evaluated (c : Caught) (arrivals : List (Arrival δ ν))
    {events : List (StreamEvent δ ν)} (hevaluated : ∀ e first, .evaluated e first ∉ events)
    (hyielded : ∀ o r, .yielded o r ∈ events → r.isSuccess = false) :
    session.Obeyed c arrivals events where
  allowed := by
    intro o r hmem hsuccess
    cases (hyielded o r hmem).symm.trans hsuccess
  suppressed := by
    intro pre e first post h
    exact absurd (h ▸ by simp) (hevaluated e first)
  denied := by
    intro pre e first post h
    exact absurd (h ▸ by simp) (hevaluated e first)
  first := by
    intro pre e first post h
    exact absurd (h ▸ by simp) (hevaluated e first)

theorem aftermath_of_caught {c : Caught} {outcome : Except Failure Unit}
    (h : c.aborted = false → c.report = .ok () → outcome = .ok ()) :
    session.aftermath c outcome = [] := by
  cases outcome with
  | ok _ => rfl
  | error error =>
      simp only [aftermath, caught]
      cases haborted : c.aborted with
      | true =>
          simp only [if_true]
          split_ifs <;> rfl
      | false =>
          cases hreport : c.report with
          | error failure => rfl
          | ok _ => cases h haborted hreport

variable (session) in
theorem answer_cases (e : Emission δ ν) :
    session.answer e = [] ∨ session.answer e = [.yielded (some e) session.denied] := by
  rw [answer]
  cases session.reported e with
  | error error => exact Or.inl rfl
  | ok _ =>
      cases e.stopped with
      | true => exact Or.inl rfl
      | false => exact Or.inr (by simp)

theorem obeyed_guardedEmissions (hguards : 0 < session.guards) (c : Caught)
    (arrivals : List (Arrival δ ν)) :
    session.Obeyed c arrivals (session.guardedEmissions c false arrivals).1 ↔
      (c.aborted = false → c.report = .ok () →
        ∀ before e rest, session.Reaches arrivals before e rest → session.Refused e →
          session.escape e = .ok ()) := by
  constructor
  · intro hobeyed haborted hreport before e rest hreaches hrefused
    obtain ⟨pre, first, post, hlog⟩ := evaluated_of_reaches hguards c false hreaches
    have hpost := (decided hguards c false arrivals hlog).refused hrefused
    cases hescape : session.escape e with
    | ok _ => rfl
    | error error =>
        have hafter : session.aftermath c (.error error) =
            [.yielded none (session.unexpected error)] := by
          simp [aftermath, caught, haborted, hreport]
        rw [hescape, hafter] at hpost
        rcases hobeyed.denied pre e first post hlog hrefused with rfl | ⟨r, rfl, -, -⟩
        · simp at hpost
        · rcases session.answer_cases e with hanswer | hanswer
          · simp [hanswer] at hpost
          · simp [hanswer] at hpost
  · intro hcontained
    refine ⟨?_, ?_, ?_, ?_⟩
    · intro o r hmem hsuccess
      rcases yieldable hguards hmem with h | ⟨hfailed, -⟩
      · exact h
      · cases hfailed.symm.trans hsuccess
    · intro pre e first post hlog hsuppressed
      obtain ⟨⟨before, rest, hreaches, hpost⟩, -, -⟩ := decided hguards c false arrivals hlog
      refine ⟨fun r hmem => ?_, fun hstopped => ⟨before, rest, hreaches.1, hpost hsuppressed hstopped⟩⟩
      rcases yieldable hguards hmem with ⟨e', rendered, -, he', -, -, hallowed, -⟩ | ⟨-, hrefused⟩
      · obtain rfl := Option.some.inj he'
        exact not_allowed_of_suppressed hsuppressed hallowed
      · exact hsuppressed.1 (hrefused e rfl hreaches.2.2)
    · intro pre e first post hlog hrefused
      obtain ⟨⟨before, rest, hreaches, -⟩, -, hpost⟩ := decided hguards c false arrivals hlog
      have hafter : session.aftermath c (session.escape e) = [] :=
        aftermath_of_caught fun haborted hreport =>
          hcontained haborted hreport before e rest hreaches hrefused
      rw [hpost hrefused, hafter, List.append_nil]
      rcases session.answer_cases e with hanswer | hanswer
      · exact Or.inl hanswer
      · exact Or.inr ⟨_, hanswer, rfl, rfl⟩
    · intro pre e first post hlog
      rw [(decided hguards c false arrivals hlog).first]
      exact and_iff_right rfl

/-- The stream of a session, opened or not, obeys its guards exactly when no refusal
escapes into the catch block. -/
theorem obeyed_streamResults (hguards : 0 < session.guards) (c : Caught)
    (arrivals : List (Arrival δ ν)) :
    session.Obeyed c arrivals (session.streamResults c arrivals).1 ↔
      session.Contained c arrivals := by
  rw [streamResults, Contained]
  cases hrejection : session.rejection with
  | some result =>
      refine iff_of_true (Obeyed.of_not_evaluated c arrivals (by simp) ?_)
        (fun h => nomatch h)
      have hfailed : result.isSuccess = false := by
        rw [rejection, Option.filter_eq_some_iff] at hrejection
        simpa using hrejection.2
      intro o r hmem
      obtain ⟨rfl, rfl⟩ : o = none ∧ r = session.redact result := by simpa using hmem
      rw [isSuccess_redact, hfailed]
  | none =>
      cases hsource : session.source with
      | false =>
          refine iff_of_true (Obeyed.of_not_evaluated c arrivals ?_ ?_) (by simp)
          · exact evaluated_not_mem_aftermath c (.error sourceNotInitialized)
          · intro o r hmem
            have hyieldable : session.Yieldable [] _ _ := yieldable_of_mem_caught hmem
            rcases hyieldable with
              ⟨e, rendered, first, -, -, -, -, hmem⟩ | ⟨hfailed, -⟩
            · cases hmem
            · exact hfailed
      | true =>
          simp only [if_true, forall_const]
          exact obeyed_guardedEmissions hguards c arrivals

theorem currentObeyed (hguards : 0 < session.guards) (present : Except Failure Bool)
    (e : Emission δ ν) : session.CurrentObeyed present e := by
  have hcurrent : ∀ r, session.current present e = .ok (some r) →
      ∃ rendered, e.render = .ok rendered ∧
        session.guarded e rendered.result = .ok (some r) := by
    intro r h
    unfold current at h
    split_ifs at h
    · split at h
      · cases h
      · cases h
      · split at h
        · cases h
        · rename_i rendered hrender
          split at h
          · cases h
          · exact ⟨rendered, hrender, h⟩
    · cases h
  have hevaluates : ∀ {result : QueryResult δ ν}, result.isSuccess = true →
      session.evaluates result = true := by
    intro result hsuccess
    simp [evaluates, hsuccess, Nat.ne_of_gt hguards]
  refine ⟨?_, ?_, ?_⟩
  · intro r h hsuccess
    obtain ⟨rendered, hrender, hguarded⟩ := hcurrent r h
    cases hrendered : rendered.result.isSuccess with
    | false =>
        rw [guarded_of_not_evaluates (by simp [evaluates, hrendered])] at hguarded
        obtain rfl : rendered.result = r := by simpa using hguarded
        cases hrendered.symm.trans hsuccess
    | true =>
        by_cases hrefused : session.Refused e
        · rw [guarded_of_refused (hevaluates hrendered) hrefused] at hguarded
          cases hreported : session.reported e with
          | error error => simp [hreported, Except.map] at hguarded
          | ok _ =>
              obtain rfl : session.denied = r := by simpa [hreported, Except.map] using hguarded
              cases hsuccess
        · by_cases hsuppressed : session.Suppressed e
          · rw [guarded_of_suppressed (hevaluates hrendered) hsuppressed] at hguarded
            simp at hguarded
          · rw [guarded_of_allowed (hevaluates hrendered) hrefused hsuppressed] at hguarded
            exact ⟨allowed_of_not hrefused hsuppressed, rendered, hrender, by simpa using hguarded.symm⟩
  · intro hsuppressed rendered hrender hsuccess r h
    obtain ⟨rendered', hrender', hguarded⟩ := hcurrent r h
    obtain rfl := Except.ok.inj (hrender.symm.trans hrender')
    rw [guarded_of_suppressed (hevaluates hsuccess) hsuppressed] at hguarded
    simp at hguarded
  · intro hrefused rendered hrender hsuccess r h
    obtain ⟨rendered', hrender', hguarded⟩ := hcurrent r h
    obtain rfl := Except.ok.inj (hrender.symm.trans hrender')
    rw [guarded_of_refused (hevaluates hsuccess) hrefused] at hguarded
    cases hreported : session.reported e with
    | error error => simp [hreported, Except.map] at hguarded
    | ok _ =>
        obtain rfl : session.denied = r := by simpa [hreported, Except.map] using hguarded
        exact ⟨rfl, rfl⟩

/-- The current value always obeys the guards, and a stream does exactly when no emission
they refuse escapes into a catch block that can report it. -/
theorem emission_guards (session : ObservableQuerySession δ ν) (hguards : 0 < session.guards) :
    (∀ present e, session.CurrentObeyed present e) ∧
      ∀ c arrivals, session.Obeyed c arrivals (session.streamResults c arrivals).1 ↔
        session.Contained c arrivals :=
  ⟨currentObeyed hguards, obeyed_streamResults hguards⟩

/-- A session with one guard, and an emission about which it decides. -/
def numbers : ObservableQuerySession ℕ Unit where
  correlationId := "c"
  guards := 1
  exposeExceptionDetails := false
  result := some (queryResult "c" {})
  source := true

def number (n : ℕ) (decision : ObservableEmissionDecision) : Emission ℕ Unit where
  render := .ok ⟨queryResult "c" { data := some n }, none⟩
  check := fun _ => .decided decision

theorem emission_guards_numbers :
    numbers.Obeyed {}
      [.emission (number 1 .suppress), .emission (number 2 .allow),
        .emission (number 3 .denyAndTerminate)]
      (numbers.streamResults {}
        [.emission (number 1 .suppress), .emission (number 2 .allow),
          .emission (number 3 .denyAndTerminate)]).1 := by
  refine ((emission_guards numbers (by decide)).2 _ _).2 ?_
  intro _ _ _ _ before e rest hreaches _
  have hmem : Arrival.emission e ∈ [Arrival.emission (number 1 .suppress),
      .emission (number 2 .allow), .emission (number 3 .denyAndTerminate)] := by
    rw [hreaches.1]
    simp
  simp only [List.mem_cons, Arrival.emission.injEq, List.not_mem_nil, or_false] at hmem
  rcases hmem with rfl | rfl | rfl <;> rfl

/-- A denial that cannot be logged: the logger fails on the denial and on its own failure,
and works again for the catch block of the stream. -/
def unlogged : Emission ℕ Unit :=
  { number 1 .denyAndTerminate with
    reportDenied := .error { text := "Error: logger" }
    reportError := .error { text := "Error: logger" } }

/-- A denial whose source fails to close. -/
def unclosed : Emission ℕ Unit :=
  { number 1 .denyAndTerminate with release := .error { text := "Error: source" } }

theorem refused_of_denies {e : Emission ℕ Unit} (h : e.check 0 = .decided .denyAndTerminate) :
    numbers.Refused e :=
  Or.inr ⟨0, by decide, by rw [h]; decide⟩

/-- The stream answers a denial with an authorized result that carries an exception, or
adds one to the unauthorized result. -/
theorem denial_escapes :
    ¬ numbers.Obeyed {} [.emission unlogged] (numbers.streamResults {} [.emission unlogged]).1 ∧
      ¬ numbers.Obeyed {} [.emission unclosed]
        (numbers.streamResults {} [.emission unclosed]).1 := by
  constructor
  · intro hobeyed
    have hafter := hobeyed.denied [.received unlogged] unlogged true
      [.yielded none (numbers.unexpected { text := "Error: logger" })] rfl (refused_of_denies rfl)
    simp at hafter
  · intro hobeyed
    have hafter := hobeyed.denied [.received unclosed] unclosed true
      [.yielded (some unclosed) numbers.denied,
        .yielded none (numbers.unexpected { text := "Error: source" })] rfl (refused_of_denies rfl)
    simp at hafter

end ObservableQuerySession

end Arc.Observable
