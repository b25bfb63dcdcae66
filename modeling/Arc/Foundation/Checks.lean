import Mathlib.Data.List.Basic

/-!
# Computations that may refuse

A validator is a sequence of checks in `Except`: the first that fails decides the error. It
succeeds exactly when all of them do, which the lemmas below say of the ways to sequence them.
-/

namespace Arc

variable {ε α β γ : Type}

/-- Refuse with the error unless the condition holds. -/
def require (condition : Prop) [Decidable condition] (error : ε) : Except ε Unit :=
  if condition then .ok () else .error error

@[simp] theorem require_eq_ok {condition : Prop} [Decidable condition] {error : ε} :
    require condition error = .ok () ↔ condition := by
  rw [require]
  split_ifs with h
  · simp [h]
  · simp [h]

namespace Except

theorem bind_eq_ok {first : Except ε α} {next : α → Except ε β} {result : β} :
    (first >>= next) = .ok result ↔ ∃ value, first = .ok value ∧ next value = .ok result := by
  cases first with
  | error error => simp [bind, Except.bind]
  | ok value => simp [bind, Except.bind]

theorem bind_unit_eq_ok {first : Except ε Unit} {next : Unit → Except ε β} {result : β} :
    (first >>= next) = .ok result ↔ first = .ok () ∧ next () = .ok result := by
  rw [bind_eq_ok]
  constructor
  · rintro ⟨⟨⟩, hfirst, hnext⟩
    exact ⟨hfirst, hnext⟩
  · rintro ⟨hfirst, hnext⟩
    exact ⟨(), hfirst, hnext⟩

theorem forM_eq_ok {check : α → Except ε Unit} {list : List α} :
    list.forM check = .ok () ↔ ∀ value ∈ list, check value = .ok () := by
  induction list with
  | nil => simp [List.forM, pure, Except.pure]
  | cons value list ih =>
      have hcons : (value :: list).forM check = (check value >>= fun _ => list.forM check) := rfl
      rw [hcons, bind_unit_eq_ok, ih, List.forall_mem_cons]

theorem exists_ok {value : α} : (∃ result, (.ok value : Except ε α) = .ok result) ↔ True :=
  ⟨fun _ => trivial, fun _ => ⟨value, rfl⟩⟩

/-- A sequence whose second part succeeds whatever the first answers. -/
theorem exists_bind_eq_ok {first : Except ε α} {next : α → Except ε β} {succeeds : Prop}
    (h : ∀ value, (∃ result, next value = .ok result) ↔ succeeds) :
    (∃ result, (first >>= next) = .ok result) ↔ (∃ value, first = .ok value) ∧ succeeds := by
  cases first with
  | error error => simp [bind, Except.bind]
  | ok value => simpa [bind, Except.bind] using h value

theorem exists_mapM_eq_ok {call : α → Except ε β} {list : List α} :
    (∃ results, list.mapM call = .ok results) ↔
      ∀ item ∈ list, ∃ result, call item = .ok result := by
  induction list with
  | nil => simp [pure, Except.pure]
  | cons item list ih =>
      rw [List.mapM_cons, List.forall_mem_cons, ← ih]
      refine exists_bind_eq_ok fun result => ?_
      constructor
      · rintro ⟨results, hresults⟩
        obtain ⟨others, hothers, -⟩ := bind_eq_ok.1 hresults
        exact ⟨others, hothers⟩
      · rintro ⟨others, hothers⟩
        rw [hothers]
        exact ⟨_, rfl⟩

/-- A map whose successes are known: it succeeds where each of its calls does. -/
theorem mapM_eq_ok {call : α → Except ε β} {admits : α → Prop} {value : α → β} {list : List α}
    (h : ∀ item ∈ list, ∀ result, call item = .ok result ↔ admits item ∧ result = value item)
    {results : List β} :
    list.mapM call = .ok results ↔ (∀ item ∈ list, admits item) ∧ results = list.map value := by
  induction list generalizing results with
  | nil => simp [pure, Except.pure, eq_comm]
  | cons item list ih =>
      have hitem := h item List.mem_cons_self
      have hlist := fun results => @ih (fun item hmem => h item (List.mem_cons_of_mem _ hmem)) results
      rw [List.mapM_cons, bind_eq_ok, List.forall_mem_cons, List.map_cons]
      constructor
      · rintro ⟨first, hfirst, hrest⟩
        obtain ⟨rest, hmapped, hresults⟩ := bind_eq_ok.1 hrest
        obtain ⟨hadmits, rfl⟩ := (hitem first).1 hfirst
        obtain ⟨hall, rfl⟩ := (hlist _).1 hmapped
        cases hresults
        exact ⟨⟨hadmits, hall⟩, rfl⟩
      · rintro ⟨⟨hadmits, hall⟩, rfl⟩
        exact ⟨value item, (hitem _).2 ⟨hadmits, rfl⟩,
          bind_eq_ok.2 ⟨list.map value, (hlist _).2 ⟨hall, rfl⟩, rfl⟩⟩

/-- A map that succeeds has a result of each of its calls, in their order. -/
theorem forall₂_of_mapM {call : α → Except ε β} {list : List α} {results : List β}
    (h : list.mapM call = .ok results) :
    List.Forall₂ (fun item result => call item = .ok result) list results := by
  induction list generalizing results with
  | nil =>
      cases h
      exact .nil
  | cons item list ih =>
      rw [List.mapM_cons] at h
      obtain ⟨first, hfirst, hrest⟩ := bind_eq_ok.1 h
      obtain ⟨rest, hmapped, hresults⟩ := bind_eq_ok.1 hrest
      cases hresults
      exact .cons hfirst (ih hmapped)

end Except

end Arc
