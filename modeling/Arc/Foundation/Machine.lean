import Mathlib.Data.List.Basic

/-!
# Machines with named events

A `Machine` is an initial state and a partial step: `step s e = none` says that
the event `e` cannot happen in `s`. A run is a list of events performed in
order, so a concrete run is evaluated rather than derived.

`Within C s es` says that every step of the run `es` from `s` meets the
condition `C`, a predicate on the state before the step and the event, and
`Always P s es` that every state of the run satisfies `P`. The unconditional
rules are the case `C = fun _ _ => True`.
-/

namespace Arc

/-- An initial state together with a partial step labelled by events. -/
structure Machine (σ ε : Type*) where
  init : σ
  step : σ → ε → Option σ

namespace Machine

variable {σ ε : Type*} (M : Machine σ ε)

/-- Perform the events in order, `none` as soon as one of them cannot happen. -/
def exec : σ → List ε → Option σ
  | s, [] => some s
  | s, e :: es => (M.step s e).bind fun t => exec t es

/-- Every step of the run from `s` meets the condition `C`. -/
def Within (C : σ → ε → Prop) : σ → List ε → Prop
  | _, [] => True
  | s, e :: es => C s e ∧ ∀ t, M.step s e = some t → Within C t es

/-- Whether every step meets a decidable condition is decided by performing the run. -/
instance decidableWithin (C : σ → ε → Prop) [∀ s e, Decidable (C s e)] :
    ∀ s es, Decidable (M.Within C s es)
  | _, [] => isTrue trivial
  | s, e :: es =>
      match h : M.step s e with
      | none => decidable_of_iff (C s e)
          ⟨fun hC => ⟨hC, fun _ ht => nomatch h.symm.trans ht⟩, fun hC => hC.1⟩
      | some t =>
          have := decidableWithin C t es
          decidable_of_iff (C s e ∧ M.Within C t es)
            ⟨fun hC => ⟨hC.1, fun _ hu => Option.some.inj (h.symm.trans hu) ▸ hC.2⟩,
              fun hC => ⟨hC.1, hC.2 t h⟩⟩

/-- Every state the run from `s` passes through satisfies `P`, the first one included. -/
def Always (P : σ → Prop) : σ → List ε → Prop
  | s, [] => P s
  | s, e :: es => P s ∧ ∀ t, M.step s e = some t → Always P t es

/-- The states some run of the machine ends in. -/
def Reachable (s : σ) : Prop := ∃ es, M.exec M.init es = some s

theorem exec_cons (s : σ) (e : ε) (es : List ε) :
    M.exec s (e :: es) = (M.step s e).bind fun t => M.exec t es := rfl

theorem exec_cons_eq_some_iff {s u : σ} {e : ε} {es : List ε} :
    M.exec s (e :: es) = some u ↔ ∃ t, M.step s e = some t ∧ M.exec t es = some u := by
  rw [exec_cons, Option.bind_eq_some_iff]

theorem exec_append (s : σ) (es fs : List ε) :
    M.exec s (es ++ fs) = (M.exec s es).bind fun t => M.exec t fs := by
  induction es generalizing s with
  | nil => rfl
  | cons e es ih =>
      rw [List.cons_append, exec_cons, exec_cons]
      cases M.step s e with
      | none => rfl
      | some t => exact ih t

/-- A step after a run is a longer run. -/
theorem exec_concat {s t u : σ} {e : ε} {es : List ε} (hrun : M.exec s es = some t)
    (hstep : M.step t e = some u) : M.exec s (es ++ [e]) = some u := by
  induction es generalizing s with
  | nil =>
      obtain rfl : s = t := Option.some.inj hrun
      rw [List.nil_append, exec_cons, hstep]
      rfl
  | cons f es ih =>
      obtain ⟨v, hv, hrest⟩ := (M.exec_cons_eq_some_iff).1 hrun
      exact (M.exec_cons_eq_some_iff).2 ⟨v, hv, ih hrest⟩

/-- A predicate preserved by every step that meets `C` holds along every run
whose steps meet `C`. -/
theorem exec_preserves {C : σ → ε → Prop} {P : σ → Prop}
    (hstep : ∀ s e t, P s → C s e → M.step s e = some t → P t)
    {s u : σ} {es : List ε} (hs : P s) (hC : M.Within C s es)
    (hrun : M.exec s es = some u) : P u := by
  induction es generalizing s with
  | nil =>
      obtain rfl : s = u := Option.some.inj hrun
      exact hs
  | cons e es ih =>
      obtain ⟨t, ht, hrest⟩ := (M.exec_cons_eq_some_iff).1 hrun
      exact ih (hstep s e t hs hC.1 ht) (hC.2 t ht) hrest

/-- Under an invariant `I`, a predicate that a step keeps exactly when it meets `C` holds at
the end of a run exactly when every step of the run meets `C`. -/
theorem exec_iff {C : σ → ε → Prop} {I P : σ → Prop}
    (hinv : ∀ s e t, I s → M.step s e = some t → I t)
    (hstep : ∀ s e t, I s → M.step s e = some t → (P t ↔ P s ∧ C s e))
    {s u : σ} {es : List ε} (hI : I s) (hrun : M.exec s es = some u) :
    P u ↔ P s ∧ M.Within C s es := by
  induction es generalizing s with
  | nil =>
      obtain rfl : s = u := Option.some.inj hrun
      exact ⟨fun h => ⟨h, trivial⟩, fun h => h.1⟩
  | cons e es ih =>
      obtain ⟨t, ht, hrest⟩ := (M.exec_cons_eq_some_iff).1 hrun
      have hrest' : (∀ t', M.step s e = some t' → M.Within C t' es) ↔ M.Within C t es :=
        ⟨fun h => h t ht, fun h t' ht' => Option.some.inj (ht.symm.trans ht') ▸ h⟩
      rw [ih (hinv s e t hI ht) hrest, hstep s e t hI ht, Within, hrest', and_assoc]

/-- Under an invariant `I`, a predicate that a step keeps exactly when it meets `C` holds all
along a run exactly when every step of the run meets `C`. -/
theorem always_iff {C : σ → ε → Prop} {I P : σ → Prop}
    (hinv : ∀ s e t, I s → M.step s e = some t → I t)
    (hstep : ∀ s e t, I s → P s → M.step s e = some t → (P t ↔ C s e))
    {s u : σ} {es : List ε} (hI : I s) (hP : P s) (hrun : M.exec s es = some u) :
    M.Always P s es ↔ M.Within C s es := by
  induction es generalizing s with
  | nil => exact iff_of_true hP trivial
  | cons e es ih =>
      obtain ⟨t, ht, hrest⟩ := (M.exec_cons_eq_some_iff).1 hrun
      have hreached : ∀ t', M.step s e = some t' → t' = t :=
        fun t' ht' => Option.some.inj (ht'.symm.trans ht)
      have hfirst : ∀ fs, M.Always P t fs → P t := by
        intro fs h
        cases fs with
        | nil => exact h
        | cons f fs => exact h.1
      constructor
      · rintro ⟨-, hall⟩
        have hPt := hfirst es (hall t ht)
        refine ⟨(hstep s e t hI hP ht).1 hPt, fun t' ht' => ?_⟩
        rw [hreached t' ht']
        exact (ih (hinv s e t hI ht) hPt hrest).1 (hall t ht)
      · rintro ⟨hC, hall⟩
        have hPt := (hstep s e t hI hP ht).2 hC
        refine ⟨hP, fun t' ht' => ?_⟩
        rw [hreached t' ht']
        exact (ih (hinv s e t hI ht) hPt hrest).2 (hall t ht)

/-- Steps that each use up work: their number is bounded by the work there is. -/
theorem exec_length_le {C : σ → ε → Prop} {I : σ → Prop} (work : σ → ℕ)
    (hinv : ∀ s e t, I s → C s e → M.step s e = some t → I t)
    (hwork : ∀ s e t, I s → C s e → M.step s e = some t → work t < work s)
    {s u : σ} {es : List ε} (hI : I s) (hC : M.Within C s es) (hrun : M.exec s es = some u) :
    es.length + work u ≤ work s := by
  induction es generalizing s with
  | nil =>
      obtain rfl : s = u := Option.some.inj hrun
      exact Nat.le_of_eq (Nat.zero_add _)
  | cons e es ih =>
      obtain ⟨t, ht, hrest⟩ := (M.exec_cons_eq_some_iff).1 hrun
      have hle := ih (hinv s e t hI hC.1 ht) (hC.2 t ht) hrest
      have hlt := hwork s e t hI hC.1 ht
      rw [List.length_cons]
      omega

/-- A condition that the events of a run meet in every state. -/
theorem within_of_forall {C : σ → ε → Prop} {es : List ε} (h : ∀ e ∈ es, ∀ s, C s e) (s : σ) :
    M.Within C s es := by
  induction es generalizing s with
  | nil => trivial
  | cons e es ih =>
      exact ⟨h e List.mem_cons_self s, fun t _ => ih (fun f hf => h f (List.mem_cons_of_mem e hf)) t⟩

theorem within_true (s : σ) (es : List ε) : M.Within (fun _ _ => True) s es := by
  induction es generalizing s with
  | nil => trivial
  | cons e es ih => exact ⟨trivial, fun t _ => ih t⟩

/-- The invariant rule: what holds initially and is kept by every step holds of
every reachable state. -/
theorem Reachable.invariant {P : σ → Prop} (hinit : P M.init)
    (hstep : ∀ s e t, P s → M.step s e = some t → P t)
    {s : σ} (hs : M.Reachable s) : P s := by
  obtain ⟨es, hrun⟩ := hs
  exact M.exec_preserves (C := fun _ _ => True)
    (fun s e t hP _ ht => hstep s e t hP ht) hinit (M.within_true M.init es) hrun

end Machine

end Arc
