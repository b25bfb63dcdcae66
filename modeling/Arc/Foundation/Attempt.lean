import Mathlib.Data.List.Basic

/-!
# Attempts

An `Attempt` changes a state and then returns or throws; what it has changed stays changed when
it throws. An attempt is evaluated by what its steps answer, with `follow` for the steps after an
answer.
-/

namespace Arc

/-- A computation over `σ` that returns an `α` or throws an `ε`. -/
def Attempt (σ ε α : Type*) := σ → Except ε α × σ

namespace Attempt

universe u v w

variable {σ : Type v} {ε : Type w} {α β : Type u}

/-- What comes after an answer: an error ends the computation. -/
def follow (f : α → Attempt σ ε β) : Except ε α × σ → Except ε β × σ
  | (.ok a, s) => f a s
  | (.error e, s) => (.error e, s)

instance : Monad (Attempt σ ε) where
  pure a := fun s => (.ok a, s)
  bind x f := fun s => follow f (x s)

@[simp] theorem pure_apply (a : α) (s : σ) : (pure a : Attempt σ ε α) s = (.ok a, s) := rfl

@[simp] theorem bind_apply (x : Attempt σ ε α) (f : α → Attempt σ ε β) (s : σ) :
    (x >>= f) s = follow f (x s) := rfl

@[simp] theorem follow_ok (f : α → Attempt σ ε β) (a : α) (s : σ) : follow f (.ok a, s) = f a s :=
  rfl

@[simp] theorem follow_error (f : α → Attempt σ ε β) (e : ε) (s : σ) :
    follow f (.error e, s) = (.error e, s) := rfl

/-- An answer of two steps has an answer of the first one. -/
theorem bind_eq_ok {x : Attempt σ ε α} {f : α → Attempt σ ε β} {s t : σ} {b : β} :
    (x >>= f) s = (.ok b, t) ↔ ∃ a u, x s = (.ok a, u) ∧ f a u = (.ok b, t) := by
  rw [bind_apply]
  constructor
  · intro h
    rcases hx : x s with ⟨e | a, u⟩
    · rw [hx, follow_error] at h
      cases h
    · rw [hx, follow_ok] at h
      exact ⟨a, u, rfl, h⟩
  · rintro ⟨a, u, hx, hf⟩
    rw [hx, follow_ok, hf]

/-- Throw. -/
def fail (e : ε) : Attempt σ ε α := fun s => (.error e, s)

@[simp] theorem fail_apply (e : ε) (s : σ) : (fail e : Attempt σ ε α) s = (.error e, s) := rfl

/-- The state. -/
def state : Attempt σ ε σ := fun s => (.ok s, s)

/-- Change the state. -/
def change (f : σ → σ) : Attempt σ ε PUnit := fun s => (.ok ⟨⟩, f s)

@[simp] theorem change_apply (f : σ → σ) (s : σ) :
    (change f : Attempt σ ε PUnit) s = (.ok ⟨⟩, f s) := rfl

/-- `try { x } finally { cleanup }`: an error of the cleanup is the one that is thrown. -/
def finishing (x : Attempt σ ε α) (cleanup : Attempt σ ε PUnit) : Attempt σ ε α := fun s =>
  match cleanup (x s).2 with
  | (.ok _, t) => ((x s).1, t)
  | (.error e, t) => (.error e, t)

theorem finishing_of_ok {x : Attempt σ ε α} {cleanup : Attempt σ ε PUnit} {s t : σ} {u : PUnit}
    (h : cleanup (x s).2 = (.ok u, t)) : x.finishing cleanup s = ((x s).1, t) := by
  unfold finishing
  rw [h]

theorem finishing_of_error {x : Attempt σ ε α} {cleanup : Attempt σ ε PUnit} {s t : σ} {e : ε}
    (h : cleanup (x s).2 = (.error e, t)) : x.finishing cleanup s = (.error e, t) := by
  unfold finishing
  rw [h]

/-- What is caught when it is thrown. -/
def catching (x : Attempt σ ε α) (handler : ε → Attempt σ ε α) : Attempt σ ε α := fun s =>
  match x s with
  | (.ok a, t) => (.ok a, t)
  | (.error e, t) => handler e t

theorem catching_of_ok {x : Attempt σ ε α} {handler : ε → Attempt σ ε α} {s t : σ} {a : α}
    (h : x s = (.ok a, t)) : x.catching handler s = (.ok a, t) := by
  unfold catching
  rw [h]

theorem catching_of_error {x : Attempt σ ε α} {handler : ε → Attempt σ ε α} {s t : σ} {e : ε}
    (h : x s = (.error e, t)) : x.catching handler s = handler e t := by
  unfold catching
  rw [h]

/-- One attempt for each item, up to the first that throws. -/
def forEach (body : α → Attempt σ ε PUnit) : List α → Attempt σ ε PUnit
  | [] => pure ⟨⟩
  | a :: items => body a >>= fun _ => forEach body items

@[simp] theorem forEach_nil (body : α → Attempt σ ε PUnit) (s : σ) :
    forEach body [] s = (.ok ⟨⟩, s) := rfl

@[simp] theorem forEach_cons (body : α → Attempt σ ε PUnit) (a : α) (items : List α) (s : σ) :
    forEach body (a :: items) s = follow (fun _ => forEach body items) (body a s) := rfl

end Attempt

end Arc
