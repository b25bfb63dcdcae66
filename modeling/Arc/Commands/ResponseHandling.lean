import Mathlib.Data.List.Perm.Subperm
import Arc.Commands.CompletedResponse
import Arc.Foundation.Checks

/-!
# Response values are handled once

A leaf and a handler that can handle it make an invocation. A successful processing makes
the invocations in the order of the leaves and, for each leaf, of the handlers; a command
that is canceled and acknowledged meanwhile succeeds only when none is left. The one thing
that passes a leaf over is the response of the context being the very value of the leaf,
and a handler may set that response: `HandledOnce` says what holds all the same.
-/

namespace Arc.Commands

open Arc.Validation

variable {α δ σ : Type}

/-! ### Invocations -/

/-- `canHandle`, which is a function of the value; one that throws handles nothing. -/
def CommandResponseValueHandler.handles (handler : CommandResponseValueHandler α δ σ)
    (value : PlainValue α) : Bool :=
  match handler.canHandle (.ordinary (.value value)) with
  | .ok canHandle => canHandle
  | .error _ => false

/-- The handlers of a value, in their order. -/
def handlersFor (handlers : List (CommandResponseValueHandler α δ σ)) (value : PlainValue α) :
    List (PlacedHandler α δ σ) :=
  handlers.zipIdx.filter fun placed => placed.1.handles value

/-- The invocations of the leaves from `index` on, where `matched` are the handlers of a value. -/
def invocationsFrom (matched : PlainValue α → List (PlacedHandler α δ σ)) :
    ℕ → List (OrdinaryLeaf α σ) → List (Invocation α)
  | _, [] => []
  | index, .control _ :: rest => invocationsFrom matched (index + 1) rest
  | index, .value value :: rest =>
      (matched value).map (fun placed => ⟨index, value, placed.2⟩) ++
        invocationsFrom matched (index + 1) rest

/-- Every leaf with every handler that can handle it. -/
def invocations (handlers : List (CommandResponseValueHandler α δ σ))
    (leaves : List (ResponseLeaf α δ σ)) : List (Invocation α) :=
  invocationsFrom (handlersFor handlers) 0 (ordinaryLeaves leaves)

/-- The values nobody can handle. -/
def unhandled (handlers : List (CommandResponseValueHandler α δ σ))
    (leaves : List (ResponseLeaf α δ σ)) : List (PlainValue α) :=
  (plainValues leaves).filter fun value => (handlersFor handlers value).isEmpty

/-- The response after the calls, each of which may set it. -/
def lastResponse (calls : List (HandledCall α)) (response : Option (PlainValue α)) :
    Option (PlainValue α) :=
  calls.foldl (fun response call => call.response.getD response) response

/-- A value the response of the context was set to by someone else than the processing. -/
def WasResponse (context : CommandContext α σ) (calls : List (HandledCall α))
    (value : PlainValue α) : Prop :=
  context.response = some value ∨ ∃ call ∈ calls, call.response = some (some value)

/-- The calls are invocations in order, each once, and miss none but those for a value the
response was set to. -/
structure HandledOnce (context : CommandContext α σ)
    (handlers : List (CommandResponseValueHandler α δ σ)) (leaves : List (ResponseLeaf α δ σ))
    (calls : List (HandledCall α)) : Prop where
  inOrder : (calls.map (·.invocation)).Sublist (invocations handlers leaves)
  once : (calls.map (·.invocation)).Nodup
  complete : ∀ invocation ∈ invocations handlers leaves,
    ¬ WasResponse context calls invocation.value → invocation ∈ calls.map (·.invocation)

theorem le_leaf_of_mem_invocationsFrom {matched : PlainValue α → List (PlacedHandler α δ σ)}
    {index : ℕ} {ordinary : List (OrdinaryLeaf α σ)} {invocation : Invocation α}
    (h : invocation ∈ invocationsFrom matched index ordinary) : index ≤ invocation.leaf := by
  induction ordinary generalizing index with
  | nil => exact absurd h List.not_mem_nil
  | cons leaf rest ih =>
      cases leaf with
      | control outcome => exact Nat.le_of_succ_le (ih h)
      | value value =>
          rcases List.mem_append.1 h with hleaf | hrest
          · obtain ⟨placed, -, rfl⟩ := List.mem_map.1 hleaf
            exact Nat.le_refl _
          · exact Nat.le_of_succ_le (ih hrest)

theorem ne_nil_of_mem_invocationsFrom {matched : PlainValue α → List (PlacedHandler α δ σ)}
    {index : ℕ} {ordinary : List (OrdinaryLeaf α σ)} {invocation : Invocation α}
    (h : invocation ∈ invocationsFrom matched index ordinary) : matched invocation.value ≠ [] := by
  induction ordinary generalizing index with
  | nil => exact absurd h List.not_mem_nil
  | cons leaf rest ih =>
      cases leaf with
      | control outcome => exact ih h
      | value value =>
          rcases List.mem_append.1 h with hleaf | hrest
          · obtain ⟨placed, hplaced, rfl⟩ := List.mem_map.1 hleaf
            exact List.ne_nil_of_mem hplaced
          · exact ih hrest

/-- No invocation is listed twice. -/
theorem nodup_invocationsFrom {matched : PlainValue α → List (PlacedHandler α δ σ)}
    (hmatched : ∀ value, ((matched value).map Prod.snd).Nodup) (index : ℕ)
    (ordinary : List (OrdinaryLeaf α σ)) : (invocationsFrom matched index ordinary).Nodup := by
  induction ordinary generalizing index with
  | nil => exact List.nodup_nil
  | cons leaf rest ih =>
      cases leaf with
      | control outcome => exact ih (index + 1)
      | value value =>
          refine List.nodup_append.2 ⟨?_, ih (index + 1), ?_⟩
          · have hplaced : (matched value).map (fun placed => (⟨index, value, placed.2⟩ :
                Invocation α)) = ((matched value).map Prod.snd).map (⟨index, value, ·⟩) := by
              rw [List.map_map]
              rfl
            rw [hplaced]
            refine (hmatched value).map fun first second heq => ?_
            exact congrArg Invocation.handler heq
          · rintro invocation hleaf other hrest rfl
            obtain ⟨placed, -, rfl⟩ := List.mem_map.1 hleaf
            exact absurd (le_leaf_of_mem_invocationsFrom hrest) (by simp)

theorem nodup_snd_handlersFor (handlers : List (CommandResponseValueHandler α δ σ))
    (value : PlainValue α) : ((handlersFor handlers value).map Prod.snd).Nodup := by
  have hsub : ((handlersFor handlers value).map Prod.snd).Sublist (handlers.zipIdx.map Prod.snd) :=
    (List.filter_sublist).map Prod.snd
  refine hsub.nodup ?_
  rw [List.zipIdx_map_snd]
  exact List.nodup_range'

theorem nodup_invocations (handlers : List (CommandResponseValueHandler α δ σ))
    (leaves : List (ResponseLeaf α δ σ)) : (invocations handlers leaves).Nodup :=
  nodup_invocationsFrom (nodup_snd_handlersFor handlers) 0 (ordinaryLeaves leaves)

/-- Where no handled leaf was set as the response, every invocation is made, in order. -/
theorem HandledOnce.calls_eq {context : CommandContext α σ}
    {handlers : List (CommandResponseValueHandler α δ σ)} {leaves : List (ResponseLeaf α δ σ)}
    {calls : List (HandledCall α)} (h : HandledOnce context handlers leaves calls)
    (hnot : ∀ invocation ∈ invocations handlers leaves,
      ¬ WasResponse context calls invocation.value) :
    calls.map (·.invocation) = invocations handlers leaves := by
  have hsubset : invocations handlers leaves ⊆ calls.map (·.invocation) :=
    fun invocation hmem => h.complete invocation hmem (hnot invocation hmem)
  have hsubperm := (nodup_invocations handlers leaves).subperm hsubset
  exact h.inOrder.eq_of_length_le hsubperm.length_le

theorem lastResponse_append (calls more : List (HandledCall α))
    (response : Option (PlainValue α)) :
    lastResponse (calls ++ more) response = lastResponse more (lastResponse calls response) :=
  List.foldl_append

/-- What the response ends as was there before, or some call has set it. -/
theorem lastResponse_eq_some {calls : List (HandledCall α)} {response : Option (PlainValue α)}
    {value : PlainValue α} (h : lastResponse calls response = some value) :
    response = some value ∨ ∃ call ∈ calls, call.response = some (some value) := by
  induction calls generalizing response with
  | nil => exact Or.inl h
  | cons call rest ih =>
      have hrest : lastResponse rest (call.response.getD response) = some value := h
      rcases ih hrest with hfirst | ⟨other, hmem, hother⟩
      · cases hset : call.response with
        | none =>
            rw [hset] at hfirst
            exact Or.inl hfirst
        | some set =>
            rw [hset] at hfirst
            have hvalue : set = some value := hfirst
            exact Or.inr ⟨call, List.mem_cons_self, by rw [hset, hvalue]⟩
      · exact Or.inr ⟨other, List.mem_cons_of_mem _ hmem, hother⟩

/-! ### Before the handlers -/

section Classification

variable [DecidableEq α]

omit [DecidableEq α] in
theorem not_aborted_of_throwIfCanceled {context : CommandContext α σ}
    (h : throwIfCanceled context = .ok ()) : context.aborted = false := by
  cases haborted : context.aborted with
  | false => rfl
  | true =>
      rw [throwIfCanceled, haborted] at h
      cases h

omit [DecidableEq α] in
/-- A call that goes on passed the check for a canceled command. -/
theorem of_throwIfCanceled_bind {ρ : Type} {context : CommandContext α σ}
    {next : Unit → Except (Thrown (ValidationResult σ)) ρ} {result : ρ}
    (h : (throwIfCanceled context >>= next) = .ok result) :
    context.aborted = false ∧ next () = .ok result := by
  rw [Except.bind_unit_eq_ok] at h
  exact ⟨not_aborted_of_throwIfCanceled h.1, h.2⟩

/-- Asked without a throw, the handlers of a value are those that can handle it. -/
theorem matchesFor_eq_ok {context : CommandContext α σ} {aborts : ℕ → Bool}
    {value : PlainValue α} {placed matched : List (PlacedHandler α δ σ)}
    (h : matchesFor context aborts value placed = .ok matched) :
    matched = placed.filter fun handler => handler.1.handles value := by
  induction placed generalizing matched with
  | nil =>
      cases h
      rfl
  | cons first rest ih =>
      obtain ⟨handler, index⟩ := first
      rw [matchesFor] at h
      obtain ⟨-, h⟩ := of_throwIfCanceled_bind h
      obtain ⟨canHandle, hcan, h⟩ := Except.bind_eq_ok.1 h
      obtain ⟨-, h⟩ := of_throwIfCanceled_bind h
      obtain ⟨others, hothers, h⟩ := Except.bind_eq_ok.1 h
      have hhandles : handler.handles value = canHandle := by
        rw [CommandResponseValueHandler.handles, hcan]
      rw [List.filter_cons, hhandles, ← ih hothers]
      injection h with h
      exact h.symm

/-- Every value of a leaf is stored with its handlers. -/
theorem classify_eq_ok {context : CommandContext α σ} {placed : List (PlacedHandler α δ σ)}
    {aborts : ℕ → ℕ → Bool} {index : ℕ} {ordinary : List (OrdinaryLeaf α σ)}
    {matching classified : Matching α δ σ}
    (h : classify context placed aborts index ordinary matching = .ok classified)
    (value : PlainValue α) :
    classified.handlers value =
      if value ∈ ordinary.filterMap OrdinaryLeaf.value? then
        placed.filter fun handler => handler.1.handles value
      else matching.handlers value := by
  induction ordinary generalizing index matching with
  | nil =>
      cases h
      rfl
  | cons leaf rest ih =>
      cases leaf with
      | control outcome => exact ih h
      | value first =>
          rw [classify] at h
          obtain ⟨matched, hmatched, h⟩ := Except.bind_eq_ok.1 h
          have hvalues : ((OrdinaryLeaf.value first : OrdinaryLeaf α σ) :: rest).filterMap
              OrdinaryLeaf.value? = first :: rest.filterMap OrdinaryLeaf.value? := rfl
          rw [ih h, hvalues, Matching.handlers_set, matchesFor_eq_ok hmatched]
          by_cases hrest : value ∈ rest.filterMap OrdinaryLeaf.value?
          · rw [if_pos hrest, if_pos (List.mem_cons_of_mem _ hrest)]
          · rw [if_neg hrest]
            by_cases heq : value = first
            · rw [if_pos heq, heq, if_pos List.mem_cons_self]
            · have hnot : value ∉ first :: rest.filterMap OrdinaryLeaf.value? := by
                rw [List.mem_cons]
                exact not_or.2 ⟨heq, hrest⟩
              rw [if_neg heq, if_neg hnot]

/-- At most one value without a handler, which becomes the response if there was none. -/
theorem selectResponse_eq_ok {matching : Matching α δ σ} {values : List (OrdinaryLeaf α σ)}
    {context selected : CommandContext α σ}
    (h : selectResponse matching values context = .ok selected) :
    ∃ alone : List (PlainValue α),
      alone = (values.filterMap OrdinaryLeaf.value?).filter
        (fun value => (matching.handlers value).isEmpty) ∧
      alone.length ≤ 1 ∧ (context.response.isSome = true → alone = []) ∧
      selected = { context with response := context.response.or alone.head? } := by
  refine ⟨_, rfl, ?_⟩
  induction values generalizing context with
  | nil =>
      cases h
      exact ⟨Nat.zero_le _, fun _ => rfl, by simp⟩
  | cons leaf rest ih =>
      cases leaf with
      | control outcome => exact ih (of_throwIfCanceled_bind h).2
      | value value =>
          rw [selectResponse] at h
          have h := (of_throwIfCanceled_bind h).2
          have hvalues : ((OrdinaryLeaf.value value : OrdinaryLeaf α σ) :: rest).filterMap
              OrdinaryLeaf.value? = value :: rest.filterMap OrdinaryLeaf.value? := rfl
          rw [hvalues, List.filter_cons]
          by_cases hempty : (matching.handlers value).isEmpty = true
          · rw [if_pos hempty] at h ⊢
            cases hresponse : context.response with
            | some response =>
                rw [hresponse] at h
                cases h
            | none =>
                rw [hresponse] at h
                have hrest : selectResponse matching rest
                    { context with response := some value } = .ok selected := h
                obtain ⟨-, hnil, hselected⟩ := ih hrest
                rw [hnil rfl] at hselected ⊢
                exact ⟨Nat.le_refl _, by simp, hselected⟩
          · rw [if_neg hempty] at h ⊢
            exact ih h

/-- Controls are settled in order, if nothing cancels the command. -/
theorem settleAll_eq_ok {values : List (OrdinaryLeaf α σ)} {processing settled : Processing α σ}
    (h : processing.settleAll values = .ok settled) :
    settled = (values.filterMap OrdinaryLeaf.control?).foldl Processing.settle processing := by
  induction values generalizing processing with
  | nil =>
      cases h
      rfl
  | cons leaf rest ih =>
      cases leaf with
      | control outcome => exact ih (of_throwIfCanceled_bind h).2
      | value value => exact ih (of_throwIfCanceled_bind h).2

end Classification

/-! ### The loops over the handlers -/

/-- Nothing is held against the command so far. -/
structure Processing.Clean (processing : Processing α σ) : Prop where
  authorized : processing.authorized = true
  validation : processing.validation = []
  failures : processing.failures = []

theorem Processing.clean_of_isSuccess {processing : Processing α σ}
    (h : processing.result.isSuccess = true) : processing.Clean := by
  obtain ⟨hauthorized, hvalidation, hfailures⟩ := commandResult_isSuccess_iff.1 h
  exact ⟨hauthorized, hvalidation, hfailures⟩

/-- `next` has made the calls `made` after `processing`. -/
structure Processing.Continues (processing next : Processing α σ) (made : List (HandledCall α)) :
    Prop where
  calls : next.calls = processing.calls ++ made
  response : next.context.response = lastResponse made processing.context.response

theorem Processing.Continues.trans {first second third : Processing α σ}
    {calls more : List (HandledCall α)} (h₁ : first.Continues second calls)
    (h₂ : second.Continues third more) : first.Continues third (calls ++ more) where
  calls := by rw [h₂.calls, h₁.calls, List.append_assoc]
  response := by rw [h₂.response, h₁.response, lastResponse_append]

theorem Processing.continues_called (processing : Processing α σ) (invocation : Invocation α)
    (call : HandleCall α σ) :
    processing.Continues (processing.called invocation call) [⟨invocation, call.response⟩] where
  calls := rfl
  response := rfl

/-- A turn that does not throw. -/
def Turn.Returns : Turn σ → Prop
  | .throw _ => False
  | _ => True

/-- An answer that leaves nothing against the command had nothing to say. -/
theorem answered_clean {processing next : Processing α σ} {handled : HandlerAnswer σ}
    {turn : Turn σ} (h : answered processing handled = (turn, next)) (hclean : next.Clean) :
    turn = .next ∧ processing.Clean ∧ next.calls = processing.calls ∧
      next.context = processing.context := by
  cases handled with
  | nothing =>
      cases h
      exact ⟨rfl, hclean, rfl, rfl⟩
  | response =>
      cases h
      exact absurd hclean.failures (by simp)
  | control outcome =>
      cases outcome with
      | denied reason =>
          cases h
          exact absurd hclean.authorized Bool.false_ne_true
      | validation results =>
          simp only [answered, Prod.mk.injEq] at h
          obtain ⟨hturn, hnext⟩ := h
          have hvalidation := hclean.validation
          rw [← hnext] at hvalidation hclean ⊢
          rw [hvalidation, List.isEmpty_nil, if_pos rfl] at hturn
          have hbefore := (List.append_eq_nil_iff.1 hvalidation).1
          exact ⟨hturn.symm, ⟨hclean.authorized, hbefore, hclean.failures⟩, rfl, rfl⟩

/-- A loop is left for good only after the last invocation. -/
theorem settled_clean {last : Option (PlainValue α) → Bool} {processing next : Processing α σ}
    {answer : Except (Thrown (ValidationResult σ)) (HandlerAnswer σ)} {turn : Turn σ}
    (h : settled last processing answer = (turn, next)) (hreturns : turn.Returns)
    (hclean : next.Clean) :
    (turn = .next ∨ (turn = .stop ∧ last processing.context.response = true)) ∧
      processing.Clean ∧ next.calls = processing.calls ∧ next.context = processing.context := by
  cases answer with
  | error error =>
      cases h
      exact hreturns.elim
  | ok handled =>
      unfold settled at h
      by_cases haborted : processing.context.aborted = true
      · simp only [haborted, if_true] at h
        cases handled with
        | nothing =>
            by_cases hlast : (processing.context.acknowledged &&
                last processing.context.response) = true
            · simp only [hlast, if_true] at h
              cases h
              rw [Bool.and_eq_true] at hlast
              exact ⟨Or.inr ⟨rfl, hlast.2⟩, hclean, rfl, rfl⟩
            · simp only [hlast] at h
              cases h
              exact hreturns.elim
        | response =>
            cases h
            exact hreturns.elim
        | control outcome =>
            cases h
            exact hreturns.elim
      · simp only [haborted] at h
        obtain ⟨hnext, hbefore, hcalls, hcontext⟩ := answered_clean h hclean
        exact ⟨Or.inl hnext, hbefore, hcalls, hcontext⟩

/-- A leaf whose handlers end clean was handled by all of them, in their order. -/
theorem handleValue_clean {remaining : Option (PlainValue α) → Bool} {leaf : ℕ}
    {value : PlainValue α} {placed : List (PlacedHandler α δ σ)}
    {processing ended : Processing α σ} {turn : Turn σ}
    (h : handleValue remaining leaf value placed processing = (turn, ended))
    (hreturns : turn.Returns) (hclean : ended.Clean) :
    ∃ calls, processing.Continues ended calls ∧ processing.Clean ∧
      calls.map (·.invocation) = placed.map (fun handler => ⟨leaf, value, handler.2⟩) ∧
      (turn = .next ∨ (turn = .stop ∧ remaining ended.context.response = false)) := by
  induction placed generalizing processing with
  | nil =>
      cases h
      exact ⟨[], ⟨by simp, rfl⟩, hclean, rfl, Or.inl rfl⟩
  | cons first rest ih =>
      obtain ⟨handler, index⟩ := first
      rw [handleValue] at h
      split_ifs at h with haborted
      · cases h
        exact hreturns.elim
      · have hcalled := processing.continues_called ⟨leaf, value, index⟩
          (handler.handle processing.calls processing.context value)
        rcases hsettled : settled (fun response => rest.isEmpty && !remaining response)
          (processing.called ⟨leaf, value, index⟩
            (handler.handle processing.calls processing.context value))
          (handler.handle processing.calls processing.context value).answer with ⟨answerTurn, next⟩
        simp only [hsettled] at h
        cases answerTurn with
        | next =>
            obtain ⟨calls, hcontinues, hnext, hmade, hturn⟩ := ih h
            obtain ⟨-, hbefore, hcalls, hcontext⟩ := settled_clean hsettled trivial hnext
            have hfrom : Processing.Continues (processing.called ⟨leaf, value, index⟩
                (handler.handle processing.calls processing.context value)) ended calls :=
              ⟨by rw [hcontinues.calls, hcalls], by rw [hcontinues.response, hcontext]⟩
            refine ⟨_, hcalled.trans hfrom, ⟨hbefore.authorized, hbefore.validation,
              hbefore.failures⟩, ?_, hturn⟩
            rw [List.map_append, hmade]
            rfl
        | stop =>
            cases h
            obtain ⟨hstop, hbefore, hcalls, hcontext⟩ := settled_clean hsettled trivial hclean
            have hlast := (hstop.resolve_left (fun heq => by cases heq)).2
            rw [Bool.and_eq_true, List.isEmpty_iff, Bool.not_eq_true'] at hlast
            obtain ⟨rfl, hremaining⟩ := hlast
            refine ⟨_, ⟨by rw [hcalls, hcalled.calls], by rw [hcontext, hcalled.response]⟩,
              ⟨hbefore.authorized, hbefore.validation, hbefore.failures⟩, rfl,
              Or.inr ⟨rfl, ?_⟩⟩
            rw [hcontext]
            exact hremaining
        | throw error =>
            cases h
            exact hreturns.elim

section Leaves

variable [DecidableEq α]

theorem eq_of_any_same {response : Option (PlainValue α)} {value : PlainValue α}
    (h : response.any value.same = true) : response = some value := by
  cases response with
  | none => cases h
  | some other =>
      cases value with
      | nan => cases h
      | value item =>
          cases other with
          | nan => cases h
          | value other =>
              have heq : item = other := of_decide_eq_true h
              rw [heq]

/-- When no leaf remains, every invocation left is for the response. -/
theorem eq_response_of_not_remains {matching : Matching α δ σ} {response : Option (PlainValue α)}
    {index : ℕ} {rest : List (OrdinaryLeaf α σ)} (h : remains matching response rest = false)
    {invocation : Invocation α} (hmem : invocation ∈ invocationsFrom matching.handlers index rest) :
    response = some invocation.value := by
  induction rest generalizing index with
  | nil => exact absurd hmem List.not_mem_nil
  | cons leaf rest ih =>
      cases leaf with
      | control outcome => exact ih h hmem
      | value value =>
          rw [remains, Bool.or_eq_false_iff] at h
          rcases List.mem_append.1 hmem with hleaf | hrest
          · obtain ⟨placed, hplaced, rfl⟩ := List.mem_map.1 hleaf
            have hnonempty : (!(matching.handlers value).isEmpty) = true := by
              rw [Bool.not_eq_true', List.isEmpty_eq_false_iff]
              exact List.ne_nil_of_mem hplaced
            rw [hnonempty, Bool.and_true, Bool.not_eq_false'] at h
            exact eq_of_any_same h.1
          · exact ih h.2 hrest

/-- Leaves that end clean: the calls are invocations in order, and miss none but those whose
value the response was at some time. -/
theorem handleLeaves_clean {matching : Matching α δ σ} {index : ℕ}
    {ordinary : List (OrdinaryLeaf α σ)} {processing ended : Processing α σ} {turn : Turn σ}
    (h : handleLeaves matching index ordinary processing = (turn, ended))
    (hreturns : turn.Returns) (hclean : ended.Clean) :
    ∃ calls, processing.Continues ended calls ∧ processing.Clean ∧
      (calls.map (·.invocation)).Sublist (invocationsFrom matching.handlers index ordinary) ∧
      ∀ invocation ∈ invocationsFrom matching.handlers index ordinary,
        invocation ∈ calls.map (·.invocation) ∨
          processing.context.response = some invocation.value ∨
          ∃ call ∈ calls, call.response = some (some invocation.value) := by
  induction ordinary generalizing index processing with
  | nil =>
      cases h
      exact ⟨[], ⟨by simp, rfl⟩, hclean, List.Sublist.refl _, fun _ hmem =>
        absurd hmem List.not_mem_nil⟩
  | cons leaf rest ih =>
      cases leaf with
      | control outcome => exact ih h
      | value value =>
          rw [handleLeaves] at h
          split_ifs at h with hsame
          · obtain ⟨calls, hcontinues, hbefore, hsub, hcomplete⟩ := ih h
            refine ⟨calls, hcontinues, hbefore, hsub.trans (List.sublist_append_right _ _), ?_⟩
            intro invocation hmem
            rcases List.mem_append.1 hmem with hleaf | hrest
            · obtain ⟨placed, -, rfl⟩ := List.mem_map.1 hleaf
              exact Or.inr (Or.inl (eq_of_any_same hsame))
            · exact hcomplete invocation hrest
          · rcases hvalue : handleValue (remains matching · rest) index value
              (matching.handlers value) processing with ⟨runTurn, next⟩
            simp only [hvalue] at h
            cases runTurn with
            | next =>
                obtain ⟨more, hmore, hnext, hsub, hcomplete⟩ := ih h
                obtain ⟨calls, hcalls, hbefore, hmade, -⟩ := handleValue_clean hvalue trivial hnext
                refine ⟨calls ++ more, hcalls.trans hmore, hbefore, ?_, ?_⟩
                · rw [List.map_append, hmade]
                  exact (List.Sublist.refl _).append hsub
                · intro invocation hmem
                  rw [List.map_append, List.mem_append, hmade]
                  rcases List.mem_append.1 hmem with hleaf | hrest
                  · exact Or.inl (Or.inl hleaf)
                  · rcases hcomplete invocation hrest with hcall | hheld | ⟨call, hcall, hset⟩
                    · exact Or.inl (Or.inr hcall)
                    · rw [hcalls.response] at hheld
                      rcases lastResponse_eq_some hheld with hfirst | ⟨call, hcall, hset⟩
                      · exact Or.inr (Or.inl hfirst)
                      · exact Or.inr (Or.inr ⟨call, List.mem_append_left _ hcall, hset⟩)
                    · exact Or.inr (Or.inr ⟨call, List.mem_append_right _ hcall, hset⟩)
            | stop =>
                cases h
                obtain ⟨calls, hcalls, hbefore, hmade, hstop⟩ :=
                  handleValue_clean hvalue trivial hclean
                have hremains := (hstop.resolve_left (fun heq => by cases heq)).2
                refine ⟨calls, hcalls, hbefore, ?_, ?_⟩
                · rw [hmade]
                  exact List.sublist_append_left _ _
                · intro invocation hmem
                  rw [hmade]
                  rcases List.mem_append.1 hmem with hleaf | hrest
                  · exact Or.inl hleaf
                  · have hheld := eq_response_of_not_remains hremains hrest
                    rw [hcalls.response] at hheld
                    exact Or.inr (lastResponse_eq_some hheld)
            | throw error =>
                cases h
                exact hreturns.elim

end Leaves

/-! ### A processed response -/

section Processed

variable [DecidableEq α]

omit [DecidableEq α] in
theorem invocationsFrom_congr {matched other : PlainValue α → List (PlacedHandler α δ σ)}
    {ordinary : List (OrdinaryLeaf α σ)}
    (h : ∀ value ∈ ordinary.filterMap OrdinaryLeaf.value?, matched value = other value)
    (index : ℕ) : invocationsFrom matched index ordinary = invocationsFrom other index ordinary := by
  induction ordinary generalizing index with
  | nil => rfl
  | cons leaf rest ih =>
      cases leaf with
      | control outcome => exact ih h (index + 1)
      | value value =>
          rw [invocationsFrom, invocationsFrom, h value List.mem_cons_self,
            ih (fun other hmem => h other (List.mem_cons_of_mem _ hmem)) (index + 1)]

/-- What is known of a response whose leaves could be classified. -/
structure Classified (context : CommandContext α σ)
    (handlers : List (CommandResponseValueHandler α δ σ)) (leaves : List (ResponseLeaf α δ σ))
    (matching : Matching α δ σ) (processing : Processing α σ) : Prop where
  matched : ∀ value ∈ plainValues leaves, matching.handlers value = handlersFor handlers value
  alone : (unhandled handlers leaves).length ≤ 1
  response : processing.context.response = context.response.or (unhandled handlers leaves).head?
  calls : processing.calls = []
  authorized : processing.authorized = (denialReasons leaves).isEmpty
  validation : processing.validation = (controls leaves).flatMap (Control.rejecting context)

theorem classified_of_ok {context : CommandContext α σ} {leaves : List (ResponseLeaf α δ σ)}
    {handlers : List (CommandResponseValueHandler α δ σ)} {operationsPresent : Bool}
    {aborts : ℕ → ℕ → Bool} {matching : Matching α δ σ} {processing : Processing α σ}
    (h : classifyLeaves context leaves handlers operationsPresent aborts =
      .ok (matching, processing)) :
    Classified context handlers leaves matching processing := by
  unfold classifyLeaves at h
  split_ifs at h with hcollection
  obtain ⟨classified, hclassify, h⟩ := Except.bind_eq_ok.1 h
  obtain ⟨selected, hselect, h⟩ := Except.bind_eq_ok.1 h
  obtain ⟨settled, hsettle, h⟩ := Except.bind_eq_ok.1 h
  cases h
  have hmatched : ∀ value ∈ plainValues leaves,
      matching.handlers value = handlersFor handlers value := by
    intro value hvalue
    rw [classify_eq_ok hclassify value]
    exact if_pos hvalue
  obtain ⟨alone, halone, hlength, -, hselected⟩ := selectResponse_eq_ok hselect
  have hunhandled : alone = unhandled handlers leaves := by
    rw [halone, filterMap_value_orderedValues]
    refine List.filter_congr fun value hvalue => ?_
    rw [hmatched value hvalue]
  have hfold := settleAll_eq_ok hsettle
  rw [filterMap_control_orderedValues, foldl_settle] at hfold
  subst hselected
  rw [hunhandled] at hlength
  refine ⟨hmatched, hlength, ?_, ?_, ?_, ?_⟩
  · rw [hfold, ← hunhandled]
  · rw [hfold]
  · rw [hfold]
    simp only [Bool.true_and, denialReasons, List.isEmpty_map]
    rfl
  · rw [hfold]
    rfl

/-- Operations beside a denial or a rejecting issue leave the handlers alone. -/
theorem calls_eq_nil_of_not_controlsPass {context : CommandContext α σ}
    {leaves : List (ResponseLeaf α δ σ)} (handlers : List (CommandResponseValueHandler α δ σ))
    (aborts : ℕ → ℕ → Bool) (hcontrols : ¬ ControlsPass context leaves) :
    (processCommandResponse context leaves handlers true aborts).calls = [] := by
  unfold processCommandResponse
  cases hclassify : classifyLeaves context leaves handlers true aborts with
  | error error => rfl
  | ok classified =>
      obtain ⟨matching, processing⟩ := classified
      have hclassified := classified_of_ok hclassify
      have hadmits : processing.admits true = false := by
        rw [Processing.admits, hclassified.authorized, hclassified.validation, Bool.not_true,
          Bool.false_or, Bool.eq_false_iff]
        intro hpass
        rw [Bool.and_eq_true, List.isEmpty_iff, List.isEmpty_iff] at hpass
        exact hcontrols hpass
      simp only [hadmits, Bool.false_eq_true, if_false]
      unfold Processing.finish
      split_ifs
      · exact hclassified.calls
      · exact hclassified.calls

/-- A successful result stands at the end of a loop over the handlers that ended clean. -/
theorem clean_of_processed {context : CommandContext α σ} {leaves : List (ResponseLeaf α δ σ)}
    {handlers : List (CommandResponseValueHandler α δ σ)} {operationsPresent : Bool}
    {aborts : ℕ → ℕ → Bool} {result : CommandResult (PlainValue α) (ValidationResult σ)}
    (h : (processCommandResponse context leaves handlers operationsPresent aborts).answer =
      .ok result) (hsuccess : result.isSuccess = true) :
    ∃ matching processing turn, ∃ ended : Processing α σ,
      Classified context handlers leaves matching processing ∧
      handleLeaves matching 0 (ordinaryLeaves leaves) processing = (turn, ended) ∧
      turn.Returns ∧ ended.Clean ∧ result = ended.result ∧
      (processCommandResponse context leaves handlers operationsPresent aborts).calls =
        ended.calls := by
  have hfinish : ∀ {processing : Processing α σ}, processing.finish.answer = .ok result →
      result = processing.result ∧ processing.finish.calls = processing.calls := by
    intro processing hanswer
    unfold Processing.finish at hanswer ⊢
    split_ifs at hanswer ⊢
    cases hanswer
    exact ⟨rfl, rfl⟩
  unfold processCommandResponse at h ⊢
  cases hclassify : classifyLeaves context leaves handlers operationsPresent aborts with
  | error error =>
      rw [hclassify] at h
      cases h
  | ok classified =>
      obtain ⟨matching, processing⟩ := classified
      have hclassified := classified_of_ok hclassify
      simp only [hclassify] at h ⊢
      by_cases hadmits : processing.admits operationsPresent = true
      · simp only [hadmits, if_true] at h ⊢
        rcases hrun : handleLeaves matching 0 (ordinaryLeaves leaves) processing with
          ⟨turn, ended⟩
        simp only [hrun] at h ⊢
        cases turn with
        | throw error => cases h
        | next =>
            obtain ⟨hresult, hcalls⟩ := hfinish h
            rw [hresult] at hsuccess
            exact ⟨matching, processing, _, ended, hclassified, hrun, trivial,
              Processing.clean_of_isSuccess hsuccess, hresult, hcalls⟩
        | stop =>
            obtain ⟨hresult, hcalls⟩ := hfinish h
            rw [hresult] at hsuccess
            exact ⟨matching, processing, _, ended, hclassified, hrun, trivial,
              Processing.clean_of_isSuccess hsuccess, hresult, hcalls⟩
      · -- The controls are against the command, so the result cannot be a success.
        simp only [hadmits] at h
        obtain ⟨hresult, -⟩ := hfinish h
        rw [hresult] at hsuccess
        have hclean := Processing.clean_of_isSuccess hsuccess
        refine absurd ?_ hadmits
        rw [Processing.admits, hclean.authorized, hclean.validation]
        simp

/-- A successful result: the invocations were made in order, each once, and none is missing
but for a value the response was set to; one value at most has no handler, and the response is
that value or what a handler has set instead. Operations beside a denial or a rejecting issue
leave the handlers alone. -/
theorem processCommandResponse_handledOnce (context : CommandContext α σ)
    (returned : ReturnedValue α δ σ) (handlers : List (CommandResponseValueHandler α δ σ))
    (operationsPresent : Bool) (aborts : ℕ → ℕ → Bool) :
    (∀ result, (processCommandResponse context (flattenCommandResponse returned) handlers
        operationsPresent aborts).answer = .ok result → result.isSuccess = true →
      HandledOnce context handlers (flattenCommandResponse returned)
        (processCommandResponse context (flattenCommandResponse returned) handlers
          operationsPresent aborts).calls ∧
      (unhandled handlers (flattenCommandResponse returned)).length ≤ 1 ∧
      result.response = lastResponse
        (processCommandResponse context (flattenCommandResponse returned) handlers
          operationsPresent aborts).calls
        (context.response.or (unhandled handlers (flattenCommandResponse returned)).head?)) ∧
    (operationsPresent = true → ¬ ControlsPass context (flattenCommandResponse returned) →
      (processCommandResponse context (flattenCommandResponse returned) handlers
        operationsPresent aborts).calls = []) := by
  generalize flattenCommandResponse returned = leaves
  constructor
  · intro result hanswer hsuccess
    obtain ⟨matching, processing, turn, ended, hclassified, hrun, hreturns, hclean, hresult,
      hcalls⟩ := clean_of_processed hanswer hsuccess
    obtain ⟨made, hcontinues, -, hsub, hcomplete⟩ := handleLeaves_clean hrun hreturns hclean
    have hmade : ended.calls = made := by
      rw [hcontinues.calls, hclassified.calls, List.nil_append]
    have hsame : invocationsFrom matching.handlers 0 (ordinaryLeaves leaves) =
        invocations handlers leaves := invocationsFrom_congr hclassified.matched 0
    rw [hsame] at hsub hcomplete
    rw [hcalls, hmade]
    refine ⟨⟨hsub, hsub.nodup (nodup_invocations handlers leaves), ?_⟩, hclassified.alone, ?_⟩
    · intro invocation hmem hnot
      rcases hcomplete invocation hmem with hcall | hheld | hset
      · exact hcall
      · -- A response the processing selected itself has no handler.
        rw [hclassified.response] at hheld
        cases hcontext : context.response with
        | some response =>
            rw [hcontext] at hheld
            exact absurd (Or.inl (hcontext.trans hheld)) hnot
        | none =>
            rw [hcontext] at hheld
            have halone := (List.mem_filter.1 (List.mem_of_mem_head? hheld)).2
            exact absurd (List.isEmpty_iff.1 halone) (ne_nil_of_mem_invocationsFrom hmem)
      · exact absurd (Or.inr hset) hnot
    · rw [hresult] at hsuccess ⊢
      have hresponse : ended.result.response = ended.context.response :=
        commandResult_response hsuccess
      rw [hresponse, hcontinues.response, hclassified.response]
  · rintro rfl hcontrols
    exact calls_eq_nil_of_not_controlsPass handlers aborts hcontrols

end Processed

/-! ### A handler that sets the response -/

/-- Handles an event, and puts the identifier in the place of the response that carries it. -/
def eventHandler : CommandResponseValueHandler String Unit Unit where
  canHandle := fun leaf => match leaf with
    | .ordinary (.value (.value "AccountOpened")) => .ok true
    | _ => .ok false
  handle := fun _ context _ => {
    answer := .ok .nothing
    response :=
      if context.response = some (.value "EventSourceIdResponse(account-1)") then
        some (some (.value "account-1"))
      else none }

/-- Handles identifiers; the command is canceled and acknowledged meanwhile. -/
def identifierHandler : CommandResponseValueHandler String Unit Unit where
  canHandle := fun leaf => match leaf with
    | .ordinary (.value (.value "account-1")) => .ok true
    | _ => .ok false
  handle := fun _ _ _ => { answer := .ok .nothing, aborts := true, acknowledges := true }

def openingContext : CommandContext String Unit where
  correlationId := "c1"
  allowedSeverity := .unknown
  reason := .error "Command canceled"

/-- An event and an identifier. -/
def openedAccount : ReturnedValue String Unit Unit :=
  .tuple [.leaf (.ordinary (.value (.value "AccountOpened"))),
    .response (.leaf (.ordinary (.value (.value "account-1"))))]

/-- An event, the identifier as the response, and the identifier as a value of its own. -/
def openedAccountWithId : ReturnedValue String Unit Unit :=
  .tuple [.leaf (.ordinary (.value (.value "AccountOpened"))),
    .leaf (.ordinary (.value (.value "EventSourceIdResponse(account-1)"))),
    .leaf (.ordinary (.value (.value "account-1")))]

/-- The invocation for the identifier is never made, and the response is not the value that
has no handler; the result is a success. -/
theorem processCommandResponse_skips_response :
    (processCommandResponse openingContext (flattenCommandResponse openedAccountWithId)
      [eventHandler, identifierHandler] false fun _ _ => false).answer =
        .ok (commandResult "c1" { response := some (.value "account-1") }) ∧
    (processCommandResponse openingContext (flattenCommandResponse openedAccountWithId)
      [eventHandler, identifierHandler] false fun _ _ => false).calls.map (·.invocation) =
        [⟨0, .value "AccountOpened", 0⟩] ∧
    invocations [eventHandler, identifierHandler] (flattenCommandResponse openedAccountWithId) =
      [⟨0, .value "AccountOpened", 0⟩, ⟨2, .value "account-1", 1⟩] ∧
    unhandled [eventHandler, identifierHandler] (flattenCommandResponse openedAccountWithId) =
      [.value "EventSourceIdResponse(account-1)"] := by
  refine ⟨rfl, rfl, rfl, rfl⟩

/-- An operation, an event and a denial. -/
def deniedAccount : ReturnedValue String Unit Unit :=
  .tuple [.leaf (.operation ()), .leaf (.ordinary (.value (.value "AccountOpened"))),
    .leaf (.ordinary (.control (.denied (some "No such account"))))]

/-- Both invocations are made, although the last handler outlives the command; with a denial
beside an operation none is. -/
theorem processCommandResponse_handledOnce_openedAccount :
    HandledOnce openingContext [eventHandler, identifierHandler]
        (flattenCommandResponse openedAccount)
        (processCommandResponse openingContext (flattenCommandResponse openedAccount)
          [eventHandler, identifierHandler] false fun _ _ => false).calls ∧
      (processCommandResponse openingContext (flattenCommandResponse openedAccount)
        [eventHandler, identifierHandler] false fun _ _ => false).calls.length = 2 ∧
      (processCommandResponse openingContext (flattenCommandResponse deniedAccount)
        [eventHandler, identifierHandler] true fun _ _ => false).calls = [] :=
  ⟨((processCommandResponse_handledOnce openingContext openedAccount
    [eventHandler, identifierHandler] false fun _ _ => false).1 _ rfl rfl).1, rfl,
    (processCommandResponse_handledOnce openingContext deniedAccount
      [eventHandler, identifierHandler] true fun _ _ => false).2 rfl
      fun hpass => absurd hpass.1 (List.cons_ne_nil _ _)⟩

end Arc.Commands
