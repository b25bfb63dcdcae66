import Mathlib.Data.List.Basic
import Mathlib.Data.List.Count
import Mathlib.Data.List.Induction
import Mathlib.Data.Nat.Notation

/-!
# Histories

A history is a list of events in the order in which they happened. A rule
`allowed before e` says what must, or must not, have happened before `e`; a history
is `Ordered` by the rule when every event in it was allowed at its moment. An
ordered history is extended one event at a time.
-/

namespace Arc

namespace History

variable {ε : Type*}

/-- Every event was allowed by what had happened before it. -/
def Ordered (allowed : List ε → ε → Prop) (log : List ε) : Prop :=
  ∀ before e after, log = before ++ e :: after → allowed before e

variable {allowed : List ε → ε → Prop} {log : List ε}

@[simp] theorem ordered_nil : Ordered allowed [] := by
  intro before e after h
  simp at h

/-- A history grows by an event that is allowed after it. -/
theorem ordered_concat {e : ε} :
    Ordered allowed (log ++ [e]) ↔ Ordered allowed log ∧ allowed log e := by
  constructor
  · refine fun h => ⟨fun before e' after hlog => h before e' (after ++ [e]) ?_, h log e [] rfl⟩
    rw [hlog, List.append_assoc, List.cons_append]
  · rintro ⟨hlog, he⟩ before e' after h
    rcases List.eq_nil_or_concat' after with rfl | ⟨after, last, rfl⟩
    · obtain ⟨rfl, hlast⟩ := List.append_inj' h rfl
      obtain rfl : e = e' := by simpa using hlast
      exact he
    · have hsplit : log ++ [e] = (before ++ e' :: after) ++ [last] := by
        rw [h, List.append_assoc, List.cons_append]
      obtain ⟨rfl, -⟩ := List.append_inj' hsplit rfl
      exact hlog before e' after rfl

/-- A history grows by several events, each of them allowed after those before it. -/
theorem Ordered.append {later : List ε} (h : Ordered allowed log)
    (hlater : ∀ before e after, later = before ++ e :: after → allowed (log ++ before) e) :
    Ordered allowed (log ++ later) := by
  induction later using List.reverseRecOn with
  | nil => rwa [List.append_nil]
  | append_singleton later e ih =>
      rw [← List.append_assoc]
      refine ordered_concat.2 ⟨ih fun before e' after hsplit => ?_, hlater later e [] rfl⟩
      exact hlater before e' (after ++ [e]) (by rw [hsplit, List.append_assoc, List.cons_append])

/-- An event that is only allowed while it has not happened happens at most once. -/
theorem Ordered.count_le_one [DecidableEq ε] (h : Ordered allowed log) {e : ε}
    (honce : ∀ before, allowed before e → e ∉ before) : log.count e ≤ 1 := by
  induction log using List.reverseRecOn with
  | nil => exact Nat.zero_le 1
  | append_singleton log e' ih =>
      obtain ⟨hlog, he'⟩ := ordered_concat.1 h
      rw [List.count_append, List.count_singleton]
      by_cases hsame : e' = e
      · subst hsame
        rw [List.count_eq_zero.2 (honce log he')]
        simp
      · simpa [hsame] using ih hlog

/-! ### Requests and answers -/

/-- After every request there is an answer. -/
def Answered (request answer : ε → Prop) (log : List ε) : Prop :=
  ∀ before e after, log = before ++ e :: after → request e → ∃ a ∈ after, answer a

variable {request answer : ε → Prop}

theorem answered_nil : Answered request answer [] := by
  intro before e after h
  simp at h

/-- An answer is one to every request before it. -/
theorem answered_of_answer {e : ε} (he : answer e) (hnot : ¬ request e) :
    Answered request answer (log ++ [e]) := by
  intro before e' after h hrequest
  rcases List.eq_nil_or_concat' after with rfl | ⟨after, last, rfl⟩
  · obtain ⟨-, hlast⟩ := List.append_inj' h rfl
    obtain rfl : e = e' := by simpa using hlast
    exact absurd hrequest hnot
  · have hsplit : log ++ [e] = (before ++ e' :: after) ++ [last] := by
      rw [h, List.append_assoc, List.cons_append]
    obtain ⟨-, hlast⟩ := List.append_inj' hsplit rfl
    obtain rfl : e = last := by simpa using hlast
    exact ⟨e, by simp, he⟩

/-- What is no request needs no answer. -/
theorem Answered.concat {e : ε} (h : Answered request answer log) (hnot : ¬ request e) :
    Answered request answer (log ++ [e]) := by
  intro before e' after hlog hrequest
  rcases List.eq_nil_or_concat' after with rfl | ⟨after, last, rfl⟩
  · obtain ⟨-, hlast⟩ := List.append_inj' hlog rfl
    obtain rfl : e = e' := by simpa using hlast
    exact absurd hrequest hnot
  · have hsplit : log ++ [e] = (before ++ e' :: after) ++ [last] := by
      rw [hlog, List.append_assoc, List.cons_append]
    obtain ⟨hbefore, -⟩ := List.append_inj' hsplit rfl
    obtain ⟨a, ha, hanswer⟩ := h before e' after hbefore hrequest
    exact ⟨a, List.mem_append_left _ ha, hanswer⟩

theorem Answered.append {later : List ε} (h : Answered request answer log)
    (hnot : ∀ e ∈ later, ¬ request e) : Answered request answer (log ++ later) := by
  induction later generalizing log with
  | nil => rwa [List.append_nil]
  | cons e later ih =>
      have hnext := ih (h.concat (hnot e List.mem_cons_self))
        fun e' he' => hnot e' (List.mem_cons_of_mem e he')
      rwa [List.append_assoc, List.singleton_append] at hnext

end History

end Arc
