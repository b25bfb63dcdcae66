import Arc.Observable.ObservableQuerySession
import Mathlib.Data.List.Basic

/-!
# Emission guards

What the guards say of an emission is a predicate on their answers; `guarded` answers
accordingly, with an unauthorized result for a refusal whose reporting does not fail.
`Delivered` lists how one emission can pass through the loop of a stream.
-/

namespace Arc.Observable

open Queries

/-- The outcome denies, or is no decision at all. -/
def GuardOutcome.refuses (o : GuardOutcome) : Bool :=
  decide (o ≠ .decided .allow) && decide (o ≠ .decided .suppress)

theorem checkGuards_of_not_refuses {os : List GuardOutcome}
    (h : ∀ o ∈ os, o.refuses = false) (most : ObservableEmissionDecision) :
    checkGuards most os =
      .ok (if .decided .suppress ∈ os then .suppress else most) := by
  induction os generalizing most with
  | nil => rfl
  | cons o os ih =>
      have hrest := fun o ho => h o (List.mem_cons_of_mem _ ho)
      have hfirst := h o List.mem_cons_self
      match o with
      | .decided .allow => simp [checkGuards, ih hrest]
      | .decided .suppress => simp [checkGuards, ih hrest]
      | .decided .denyAndTerminate => cases hfirst
      | .invalid => cases hfirst
      | .throws error => simp [GuardOutcome.refuses] at hfirst

theorem checkGuards_of_refuses {os : List GuardOutcome} {first : GuardOutcome}
    (h : os.find? GuardOutcome.refuses = some first) (most : ObservableEmissionDecision) :
    (first = .decided .denyAndTerminate ∧ checkGuards most os = .ok .denyAndTerminate) ∨
      (first ≠ .decided .denyAndTerminate ∧ ∃ error, checkGuards most os = .error error) := by
  induction os generalizing most with
  | nil => cases h
  | cons o os ih =>
      match o with
      | .decided .allow => exact ih h most
      | .decided .suppress => exact ih h .suppress
      | .decided .denyAndTerminate =>
          obtain rfl : .decided .denyAndTerminate = first := Option.some.inj h
          exact Or.inl ⟨rfl, rfl⟩
      | .invalid =>
          obtain rfl : .invalid = first := Option.some.inj h
          exact Or.inr ⟨by decide, _, rfl⟩
      | .throws error =>
          obtain rfl : .throws error = first := Option.some.inj h
          exact Or.inr ⟨by simp, _, rfl⟩

namespace ObservableQuerySession

variable {δ ν : Type*} (session : ObservableQuerySession δ ν)

/-! ### What the guards say of an emission -/

def Allowed (e : Emission δ ν) : Prop := ∀ i < session.guards, e.check i = .decided .allow

/-- A guard denies, fails or answers nonsense, or the guards cannot be asked at all. -/
def Refused (e : Emission δ ν) : Prop :=
  (∃ error, e.preflight = .error error) ∨ ∃ i < session.guards, (e.check i).refuses = true

/-- Some guard withholds the emission and none refuses it. -/
def Suppressed (e : Emission δ ν) : Prop :=
  ¬ session.Refused e ∧ ∃ i < session.guards, e.check i = .decided .suppress

/-- The first outcome that refuses an emission, when the guards can be asked. -/
def refusal (e : Emission δ ν) : Option GuardOutcome :=
  match e.preflight with
  | .error _ => none
  | .ok _ => (session.outcomes e).find? GuardOutcome.refuses

/-- How reporting the refusal of an emission ends: a denial is reported twice when the
first report fails. -/
def reported (e : Emission δ ν) : Except Failure Unit :=
  if session.refusal e = some (.decided .denyAndTerminate) then
    match e.reportDenied with
    | .ok _ => .ok ()
    | .error _ => e.reportError
  else e.reportError

variable {session}

theorem mem_outcomes {e : Emission δ ν} {o : GuardOutcome} :
    o ∈ session.outcomes e ↔ ∃ i < session.guards, e.check i = o := by
  simp [outcomes]

theorem decision_of_not_refused {e : Emission δ ν} (h : ¬ session.Refused e) :
    session.decision e =
      .ok (if .decided .suppress ∈ session.outcomes e then .suppress else .allow) := by
  have hcheck : ∀ o ∈ session.outcomes e, o.refuses = false := by
    intro o ho
    obtain ⟨i, hi, rfl⟩ := mem_outcomes.1 ho
    by_contra hrefuses
    exact h (Or.inr ⟨i, hi, by simpa using hrefuses⟩)
  rw [decision]
  cases hpreflight : e.preflight with
  | error error => exact absurd (Or.inl ⟨error, hpreflight⟩) h
  | ok _ => exact checkGuards_of_not_refuses hcheck .allow

theorem decision_of_refused {e : Emission δ ν} (h : session.Refused e) :
    (session.refusal e = some (.decided .denyAndTerminate) ∧
        session.decision e = .ok .denyAndTerminate) ∨
      (session.refusal e ≠ some (.decided .denyAndTerminate) ∧
        ∃ error, session.decision e = .error error) := by
  rw [decision, refusal]
  cases hpreflight : e.preflight with
  | error error => exact Or.inr ⟨by simp, error, rfl⟩
  | ok _ =>
      have hfound : ∃ o ∈ session.outcomes e, o.refuses = true := by
        rcases h with ⟨error, herror⟩ | ⟨i, hi, hrefuses⟩
        · cases hpreflight.symm.trans herror
        · exact ⟨_, mem_outcomes.2 ⟨i, hi, rfl⟩, hrefuses⟩
      obtain ⟨first, hfirst⟩ := Option.isSome_iff_exists.1 (List.find?_isSome.2 hfound)
      rcases checkGuards_of_refuses hfirst .allow with ⟨rfl, hcheck⟩ | ⟨hne, error, hcheck⟩
      · exact Or.inl ⟨hfirst, hcheck⟩
      · refine Or.inr ⟨?_, error, hcheck⟩
        rw [hfirst]
        exact fun hsome => hne (Option.some.inj hsome)

theorem allowed_of_not {e : Emission δ ν} (hrefused : ¬ session.Refused e)
    (hsuppressed : ¬ session.Suppressed e) : session.Allowed e := by
  intro i hi
  by_contra hne
  refine hrefused (Or.inr ⟨i, hi, ?_⟩)
  have hother : e.check i ≠ .decided .suppress := fun h => hsuppressed ⟨hrefused, i, hi, h⟩
  simp [GuardOutcome.refuses, hne, hother]

theorem guarded_of_not_evaluates {e : Emission δ ν} {result : QueryResult δ ν}
    (h : session.evaluates result = false) : session.guarded e result = .ok (some result) := by
  simp [guarded, h]

theorem guarded_of_suppressed {e : Emission δ ν} {result : QueryResult δ ν}
    (h : session.evaluates result = true) (hsuppressed : session.Suppressed e) :
    session.guarded e result = .ok none := by
  have hmem : .decided .suppress ∈ session.outcomes e := mem_outcomes.2 hsuppressed.2
  rw [guarded, if_pos h, decision_of_not_refused hsuppressed.1, if_pos hmem]

theorem guarded_of_allowed {e : Emission δ ν} {result : QueryResult δ ν}
    (h : session.evaluates result = true) (hrefused : ¬ session.Refused e)
    (hsuppressed : ¬ session.Suppressed e) : session.guarded e result = .ok (some result) := by
  have hmem : .decided .suppress ∉ session.outcomes e :=
    fun hmem => hsuppressed ⟨hrefused, mem_outcomes.1 hmem⟩
  rw [guarded, if_pos h, decision_of_not_refused hrefused, if_neg hmem]

/-- A refused emission is answered as unauthorized, unless reporting the refusal fails. -/
theorem guarded_of_refused {e : Emission δ ν} {result : QueryResult δ ν}
    (h : session.evaluates result = true) (hrefused : session.Refused e) :
    session.guarded e result = (session.reported e).map fun _ => some session.denied := by
  rw [guarded, if_pos h, reported]
  rcases decision_of_refused hrefused with ⟨hrefusal, hdecision⟩ | ⟨hrefusal, error, hdecision⟩
  · rw [hdecision, if_pos hrefusal]
    cases hdenied : e.reportDenied with
    | ok _ => rfl
    | error _ =>
        simp only [refuse]
        cases e.reportError <;> rfl
  · rw [hdecision, if_neg hrefusal]
    simp only [refuse]
    cases e.reportError <;> rfl

/-! ### One emission in the loop -/

/-- The emission is rendered as a result, and what is recorded for it is reported. -/
def Presented (e : Emission δ ν) (rendered : Rendered δ ν) : Prop :=
  e.stopping = false ∧ e.render = .ok rendered ∧ reportResult e rendered = .ok ()

/-- The emission is put to the guards. -/
def Judged (e : Emission δ ν) : Prop :=
  ∃ rendered, Presented e rendered ∧ rendered.result.isSuccess = true

/-- What the stream does after it has yielded a result. -/
def resume (firstEmissionDelivered : Bool) (e : Emission δ ν) (result : QueryResult δ ν) : Next :=
  if e.consumer = .returns then .leaves
  else if goesOn result then .continues (firstEmissionDelivered || result.isSuccess)
  else .leaves

variable (session) in
/-- The ways an emission passes through the loop: what it adds to the log and how the loop
goes on. -/
inductive Delivered (d : Bool) (e : Emission δ ν) : List (StreamEvent δ ν) → Next → Prop
  | stopping (h : e.stopping = true) : Delivered d e [] .leaves
  | failing (error : Failure) (h : ∀ rendered, ¬ Presented e rendered) :
      Delivered d e [] (.throws error)
  | unjudged {rendered : Rendered δ ν} (h : Presented e rendered)
      (hfailed : rendered.result.isSuccess = false) (hstopped : e.stopped = false) :
      Delivered d e [.yielded (some e) (session.redact rendered.result)]
        (resume d e rendered.result)
  | unjudgedStopped {rendered : Rendered δ ν} (h : Presented e rendered)
      (hfailed : rendered.result.isSuccess = false) (hstopped : e.stopped = true) :
      Delivered d e [] .leaves
  | allowed {rendered : Rendered δ ν} (h : Presented e rendered)
      (hsuccess : rendered.result.isSuccess = true) (hallowed : session.Allowed e)
      (hrefused : ¬ session.Refused e) (hstopped : e.stopped = false) :
      Delivered d e [.evaluated e !d, .yielded (some e) (session.redact rendered.result)]
        (resume d e rendered.result)
  | suppressed (h : Judged e) (hsuppressed : session.Suppressed e) (hstopped : e.stopped = false) :
      Delivered d e [.evaluated e !d] (.continues d)
  | stopped (h : Judged e) (hrefused : ¬ session.Refused e) (hstopped : e.stopped = true) :
      Delivered d e [.evaluated e !d] .leaves
  | unreported (h : Judged e) (hrefused : session.Refused e) {error : Failure}
      (hreported : session.reported e = .error error) :
      Delivered d e [.evaluated e !d] (.throws error)
  | refusedStopped (h : Judged e) (hrefused : session.Refused e)
      (hreported : session.reported e = .ok ()) (hstopped : e.stopped = true) :
      Delivered d e [.evaluated e !d] .leaves
  | refused (h : Judged e) (hrefused : session.Refused e)
      (hreported : session.reported e = .ok ()) (hstopped : e.stopped = false) :
      Delivered d e [.evaluated e !d, .yielded (some e) (session.redact session.denied)] .leaves

@[simp] theorem isSuccess_redact (result : QueryResult δ ν) :
    (session.redact result).isSuccess = result.isSuccess := by
  rw [redact]
  split_ifs <;> rfl

theorem goesOn_denied : goesOn session.denied = false := rfl

/-- The loop body does one of these. -/
theorem delivered (hguards : 0 < session.guards) (d : Bool) (e : Emission δ ν) :
    Delivered session d e (session.deliver d e).1 (session.deliver d e).2 := by
  rw [deliver]
  cases hstopping : e.stopping with
  | true => exact .stopping hstopping
  | false =>
      simp only [Bool.false_eq_true, if_false]
      cases hrender : e.render with
      | error error =>
          exact .failing error fun rendered h => by simp [Presented, hrender] at h
      | ok rendered =>
          cases hreport : reportResult e rendered with
          | error error =>
              simp only [hreport]
              refine .failing error fun other h => ?_
              obtain rfl : rendered = other := by simpa [hrender] using h.2.1
              cases hreport.symm.trans h.2.2
          | ok _ =>
              have hpresented : Presented e rendered := ⟨hstopping, hrender, hreport⟩
              simp only [hreport]
              cases hsuccess : rendered.result.isSuccess with
              | false =>
                  have hevaluates : session.evaluates rendered.result = false := by
                    simp [evaluates, hsuccess]
                  simp only [guarded_of_not_evaluates hevaluates, hevaluates, Bool.false_eq_true,
                    if_false]
                  cases hstopped : e.stopped with
                  | true => exact .unjudgedStopped hpresented hsuccess hstopped
                  | false => exact .unjudged hpresented hsuccess hstopped
              | true =>
                  have hevaluates : session.evaluates rendered.result = true := by
                    simp [evaluates, hsuccess, Nat.ne_of_gt hguards]
                  have hjudged : Judged e := ⟨rendered, hpresented, hsuccess⟩
                  rw [if_pos hevaluates]
                  by_cases hrefused : session.Refused e
                  · rw [guarded_of_refused hevaluates hrefused]
                    cases hreported : session.reported e with
                    | error error => exact .unreported hjudged hrefused hreported
                    | ok _ =>
                        simp only [Except.map]
                        cases hstopped : e.stopped with
                        | true => exact .refusedStopped hjudged hrefused hreported hstopped
                        | false =>
                            simp only [Bool.false_eq_true, if_false, goesOn_denied, ite_self]
                            exact .refused hjudged hrefused hreported hstopped
                  · by_cases hsuppressed : session.Suppressed e
                    · rw [guarded_of_suppressed hevaluates hsuppressed]
                      cases hstopped : e.stopped with
                      | true => exact .stopped hjudged hrefused hstopped
                      | false => exact .suppressed hjudged hsuppressed hstopped
                    · rw [guarded_of_allowed hevaluates hrefused hsuppressed]
                      cases hstopped : e.stopped with
                      | true => exact .stopped hjudged hrefused hstopped
                      | false =>
                          exact .allowed hpresented hsuccess
                            (allowed_of_not hrefused hsuppressed) hrefused hstopped

variable (session) in
/-- The loop goes on to the next emission after this one. -/
def Passes (e : Emission δ ν) : Prop :=
  e.stopped = false ∧ ∃ rendered, Presented e rendered ∧
    (rendered.result.isSuccess = true → ¬ session.Refused e) ∧
      ((rendered.result.isSuccess = true ∧ session.Suppressed e) ∨
        (e.consumer = .next ∧ goesOn rendered.result = true))

theorem resume_eq_continues {d d' : Bool} {e : Emission δ ν} {result : QueryResult δ ν} :
    resume d e result = .continues d' ↔
      e.consumer = .next ∧ goesOn result = true ∧ d' = (d || result.isSuccess) := by
  rw [resume]
  cases e.consumer with
  | returns => simp
  | next =>
      cases goesOn result with
      | false => simp
      | true => simp [eq_comm]

theorem Presented.unique {e : Emission δ ν} {r r' : Rendered δ ν} (h : Presented e r)
    (h' : Presented e r') : r = r' := by
  have hsame := h.2.1.symm.trans h'.2.1
  exact Except.ok.inj hsame

theorem Judged.isSuccess {e : Emission δ ν} {r : Rendered δ ν} (h : Judged e)
    (hr : Presented e r) : r.result.isSuccess = true := by
  obtain ⟨r', hr', hsuccess⟩ := h
  exact hr.unique hr' ▸ hsuccess

theorem not_allowed_of_suppressed {e : Emission δ ν} (h : session.Suppressed e) :
    ¬ session.Allowed e := by
  obtain ⟨-, i, hi, hcheck⟩ := h
  intro hallowed
  cases (hallowed i hi).symm.trans hcheck

/-- What lets the loop go on, and what it then knows about the first emission. -/
theorem Delivered.continues {d d' : Bool} {e : Emission δ ν} {events : List (StreamEvent δ ν)}
    {next : Next} (h : Delivered session d e events next) (hnext : next = .continues d') :
    session.Passes e ∧
      (d' = false ↔ d = false ∧ ∀ o r, .yielded o r ∈ events → r.isSuccess = false) := by
  cases h with
  | unjudged h hfailed hstopped =>
      obtain ⟨hconsumer, hgoes, rfl⟩ := resume_eq_continues.1 hnext
      refine ⟨⟨hstopped, _, h, by simp [hfailed], Or.inr ⟨hconsumer, hgoes⟩⟩, ?_⟩
      simp [hfailed]
  | allowed h hsuccess hallowed hrefused hstopped =>
      obtain ⟨hconsumer, hgoes, rfl⟩ := resume_eq_continues.1 hnext
      refine ⟨⟨hstopped, _, h, fun _ => hrefused, Or.inr ⟨hconsumer, hgoes⟩⟩, ?_⟩
      simp [hsuccess]
  | suppressed h hsuppressed hstopped =>
      obtain ⟨rendered, hpresented, hsuccess⟩ := h
      obtain rfl := Next.continues.inj hnext
      refine ⟨⟨hstopped, _, hpresented, fun _ => hsuppressed.1, Or.inl ⟨hsuccess, hsuppressed⟩⟩, ?_⟩
      simp
  | _ => cases hnext

/-- An emission that lets the loop go on does not end it. -/
theorem Delivered.of_passes {d : Bool} {e : Emission δ ν} {events : List (StreamEvent δ ν)}
    {next : Next} (h : Delivered session d e events next) (hpasses : session.Passes e) :
    ∃ d', next = .continues d' := by
  obtain ⟨hrunning, rendered, hpresented, hrefusal, hgoes⟩ := hpasses
  have hresume : ∀ {r}, Presented e r → ¬ session.Suppressed e →
      ∃ d', resume d e r.result = .continues d' := by
    intro r hr hsuppressed
    obtain rfl := hpresented.unique hr
    obtain ⟨hconsumer, hgoes⟩ := hgoes.resolve_left fun h => hsuppressed h.2
    exact ⟨_, resume_eq_continues.2 ⟨hconsumer, hgoes, rfl⟩⟩
  cases h with
  | stopping h => cases h.symm.trans hpresented.1
  | failing error h => exact absurd hpresented (h rendered)
  | unjudged h hfailed hstopped =>
      obtain rfl := hpresented.unique h
      have hconsumes := hgoes.resolve_left fun h => by simp [hfailed] at h
      exact ⟨_, resume_eq_continues.2 ⟨hconsumes.1, hconsumes.2, rfl⟩⟩
  | allowed h hsuccess hallowed hrefused hstopped =>
      exact hresume h fun hsuppressed => not_allowed_of_suppressed hsuppressed hallowed
  | suppressed => exact ⟨d, rfl⟩
  | unjudgedStopped h hfailed hstopped => cases hstopped.symm.trans hrunning
  | stopped h hrefused hstopped => cases hstopped.symm.trans hrunning
  | refusedStopped h hrefused hreported hstopped => cases hstopped.symm.trans hrunning
  | unreported h hrefused hreported => exact absurd hrefused (hrefusal (h.isSuccess hpresented))
  | refused h hrefused hreported hstopped =>
      exact absurd hrefused (hrefusal (h.isSuccess hpresented))

end ObservableQuerySession

end Arc.Observable
