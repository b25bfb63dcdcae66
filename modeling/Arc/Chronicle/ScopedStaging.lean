import Mathlib
import Arc.Chronicle.ChronicleUnitOfWork
import Arc.Chronicle.CommandTree
import Arc.Foundation.Json

/-!
# Staging under concurrency scopes

A batch is staged with concurrency scopes: plain objects under the ids of event sources, in a
plain object. `stage` compares a scope with the one staged under its id by their JSON text,
and enters each scope before it looks at the next. What a scope says does not depend on the
order its properties are written in; its text does.
-/

namespace Arc.Chronicle

open Arc.Commands

/-! ### Concurrency scopes -/

/-- The id of an event type, with its generation. -/
structure EventType where
  id : String
  generation : ℕ
  deriving DecidableEq, Repr

/-- A property of a concurrency scope; all but the sequence number may be `undefined`. -/
inductive ScopeProperty
  | sequenceNumber (value : ℤ)
  | eventSourceId (value : Option Bool)
  | eventSourceType (value : Option String)
  | eventStreamType (value : Option String)
  | eventStreamId (value : Option String)
  | eventTypes (value : Option (List EventType))
  deriving DecidableEq, Repr

namespace ScopeProperty

def name : ScopeProperty → String
  | .sequenceNumber _ => "sequenceNumber"
  | .eventSourceId _ => "eventSourceId"
  | .eventSourceType _ => "eventSourceType"
  | .eventStreamType _ => "eventStreamType"
  | .eventStreamId _ => "eventStreamId"
  | .eventTypes _ => "eventTypes"

def isDefined : ScopeProperty → Bool
  | .sequenceNumber _ => true
  | .eventSourceId value => value.isSome
  | .eventSourceType value => value.isSome
  | .eventStreamType value => value.isSome
  | .eventStreamId value => value.isSome
  | .eventTypes value => value.isSome

def printType (type : EventType) : Json :=
  .object [("id", .string type.id), ("generation", .number type.generation)]

/-- The value of a property as `JSON.stringify` writes it: a bigint as its digits, and a
property that is `undefined` not at all. -/
def printed : ScopeProperty → Option Json
  | .sequenceNumber value => some (.string value.repr)
  | .eventSourceId value => value.map .bool
  | .eventSourceType value => value.map .string
  | .eventStreamType value => value.map .string
  | .eventStreamId value => value.map .string
  | .eventTypes value => value.map fun types => .array (types.map printType)

def print (property : ScopeProperty) : Option (String × Json) :=
  property.printed.map fun value => (property.name, value)

end ScopeProperty

/-- A concurrency scope: its properties as they are written, each once, the expected sequence
number among them. -/
structure ConcurrencyScope where
  properties : List ScopeProperty
  nodup_names : (properties.map ScopeProperty.name).Nodup
  expected : "sequenceNumber" ∈ properties.map ScopeProperty.name
  deriving DecidableEq, Repr

namespace ConcurrencyScope

/-- What a scope says: the properties that are not `undefined`. -/
def content (scope : ConcurrencyScope) : List ScopeProperty :=
  scope.properties.filter ScopeProperty.isDefined

/-- The text of a scope. -/
def text (scope : ConcurrencyScope) : Json :=
  .object (scope.properties.filterMap ScopeProperty.print)

/-- Two scopes say the same, in whatever order. -/
def SameContent (scope other : ConcurrencyScope) : Prop :=
  scope.content.Perm other.content

instance (scope other : ConcurrencyScope) : Decidable (SameContent scope other) :=
  inferInstanceAs (Decidable (List.Perm _ _))

end ConcurrencyScope

variable {ε σ : Type*}

/-! ### The faithful `stage` -/

/-- The arguments of a call of `stage`. -/
structure StageCall (ε σ : Type*) where
  store : σ
  context : CommandContext
  entries : List ε
  scopes : InsertionMap String ConcurrencyScope

/-- The text of a member every object inherits: a function has none, the prototype is empty. -/
def memberText (name : String) : Option Json :=
  if name = "__proto__" then some (.object []) else none

namespace ChronicleUnitOfWork

/-- Whether the text under a name, when there is something, is the text of the scope. -/
def admitsScope (scopes : InsertionMap String ConcurrencyScope)
    (entry : String × ConcurrencyScope) : Bool :=
  match scopes.read entry.1 with
  | .absent => true
  | .inherited => decide (memberText entry.1 = some entry.2.text)
  | .own staged => decide (staged.text = entry.2.text)

/-- Enter the scopes of a batch, each before the next is compared. -/
def enterWrittenScopes : InsertionMap String ConcurrencyScope → List (String × ConcurrencyScope) →
    InsertionMap String ConcurrencyScope × Option (Thrown ValidationResult)
  | scopes, [] => (scopes, none)
  | scopes, entry :: rest =>
      if admitsScope scopes entry then enterWrittenScopes (scopes.set entry.1 entry.2) rest
      else (scopes, some (.error ("Conflicting Chronicle concurrency scope: " ++ entry.1)))

/-- `stage`, with the scopes as they are written. -/
def stageWritten [DecidableEq σ] (unit : ChronicleUnitOfWork ε σ ConcurrencyScope) (store : σ)
    (context : CommandContext) (entries : List ε) (scopes : InsertionMap String ConcurrencyScope) :
    ChronicleUnitOfWork ε σ ConcurrencyScope × Option (Thrown ValidationResult) :=
  if unit.completed then
    (unit, some (.error "Cannot stage events in a completed Chronicle unit of work"))
  else if context.tenantId ≠ unit.context.tenantId ∨
      context.correlationId ≠ unit.context.correlationId then
    (unit, some (.error "Nested Chronicle commands must share tenant and correlation ID"))
  else if unit.store.any (· ≠ store) then
    (unit, some (.error "Nested Chronicle commands must use the same event store and namespace"))
  else
    let entered := enterWrittenScopes unit.scopes scopes.entries
    match entered.2 with
    | some error =>
        ({ unit with store := some store, scopes := entered.1, store_of_entries := fun _ => rfl },
          some error)
    | none =>
        ({ unit with entries := unit.entries ++ entries, store := some store,
                     scopes := entered.1, store_of_entries := fun _ => rfl }, none)

/-- The unit with each scope replaced by an image of it. -/
def mapScopes {κ κ' : Type*} (f : κ → κ') (unit : ChronicleUnitOfWork ε σ κ) :
    ChronicleUnitOfWork ε σ κ' where
  context := unit.context
  entries := unit.entries
  aggregates := unit.aggregates
  scopes := unit.scopes.mapValues f
  store := unit.store
  nestedFailure := unit.nestedFailure
  completed := unit.completed
  disposition := unit.disposition
  store_of_entries := unit.store_of_entries
  disposition_of_open := unit.disposition_of_open

end ChronicleUnitOfWork

/-! ### Texts -/

namespace ScopeProperty

theorem printed_isSome (property : ScopeProperty) :
    property.printed.isSome = property.isDefined := by
  cases property <;> simp [printed, isDefined]

theorem printType_injective : Function.Injective printType := by
  intro type other h
  simp only [printType, Json.object.injEq, List.cons.injEq, Prod.mk.injEq, Json.string.injEq,
    Json.number.injEq, Nat.cast_inj, true_and, and_true] at h
  cases type
  cases other
  rw [EventType.mk.injEq]
  exact h

theorem print_eq_some {property : ScopeProperty} {entry : String × Json}
    (h : property.print = some entry) :
    property.name = entry.1 ∧ property.printed = some entry.2 := by
  obtain ⟨value, hvalue, rfl⟩ := Option.map_eq_some_iff.1 h
  exact ⟨rfl, hvalue⟩

/-- Two properties that are written alike are the same. -/
theorem print_injective {property other : ScopeProperty} {entry : String × Json}
    (h : property.print = some entry) (hother : other.print = some entry) : property = other := by
  obtain ⟨hname, hvalue⟩ := print_eq_some h
  obtain ⟨hname', hvalue'⟩ := print_eq_some hother
  have hnames : property.name = other.name := hname.trans hname'.symm
  have hvalues : property.printed = other.printed := hvalue.trans hvalue'.symm
  have hsome : property.printed.isSome := by simp [hvalue]
  cases property <;> cases other <;> simp only [name, String.reduceEq] at hnames <;>
    simp only [printed, Option.some.injEq, Json.string.injEq, Int.repr_inj, Option.isSome_map]
      at hvalues hsome
  · rw [hvalues]
  · exact congrArg _ (Option.map_injective (fun _ _ h => Json.bool.inj h) hvalues)
  · exact congrArg _ (Option.map_injective (fun _ _ h => Json.string.inj h) hvalues)
  · exact congrArg _ (Option.map_injective (fun _ _ h => Json.string.inj h) hvalues)
  · exact congrArg _ (Option.map_injective (fun _ _ h => Json.string.inj h) hvalues)
  · refine congrArg _ (Option.map_injective (fun _ _ h => ?_) hvalues)
    exact List.map_injective_iff.2 printType_injective (Json.array.inj h)

theorem print_isSome (property : ScopeProperty) : property.print.isSome = property.isDefined := by
  rw [print, Option.isSome_map, printed_isSome]

end ScopeProperty

namespace ConcurrencyScope

theorem filterMap_print (properties : List ScopeProperty) :
    properties.filterMap ScopeProperty.print =
      (properties.filter ScopeProperty.isDefined).filterMap ScopeProperty.print := by
  rw [List.filterMap_filter]
  apply List.filterMap_congr
  intro property _
  by_cases h : property.isDefined
  · simp [h]
  · have hnone : property.print = none := by
      simpa [← ScopeProperty.print_isSome] using h
    simp [h, hnone]

/-- Written properties are told apart by their text, in their order. -/
theorem filterMap_print_injective {as bs : List ScopeProperty}
    (has : ∀ p ∈ as, p.isDefined = true) (hbs : ∀ p ∈ bs, p.isDefined = true)
    (h : as.filterMap ScopeProperty.print = bs.filterMap ScopeProperty.print) : as = bs := by
  induction as generalizing bs with
  | nil =>
      cases bs with
      | nil => rfl
      | cons b bs =>
          obtain ⟨entry, hentry⟩ := Option.isSome_iff_exists.1
            ((ScopeProperty.print_isSome b).trans (hbs b List.mem_cons_self))
          simp [hentry] at h
  | cons a as ih =>
      obtain ⟨entry, hentry⟩ := Option.isSome_iff_exists.1
        ((ScopeProperty.print_isSome a).trans (has a List.mem_cons_self))
      cases bs with
      | nil => simp [hentry] at h
      | cons b bs =>
          obtain ⟨entry', hentry'⟩ := Option.isSome_iff_exists.1
            ((ScopeProperty.print_isSome b).trans (hbs b List.mem_cons_self))
          rw [List.filterMap_cons_some hentry, List.filterMap_cons_some hentry'] at h
          obtain ⟨rfl, hrest⟩ := List.cons.inj h
          rw [ScopeProperty.print_injective hentry hentry',
            ih (fun p hp => has p (List.mem_cons_of_mem _ hp))
              (fun p hp => hbs p (List.mem_cons_of_mem _ hp)) hrest]

/-- Two scopes have one text exactly when they say the same in the same order. -/
theorem text_eq_iff {scope other : ConcurrencyScope} :
    scope.text = other.text ↔ scope.content = other.content := by
  rw [text, text, Json.object.injEq, filterMap_print, filterMap_print other.properties]
  constructor
  · intro h
    exact filterMap_print_injective (fun p hp => (List.mem_filter.1 hp).2)
      (fun p hp => (List.mem_filter.1 hp).2) h
  · intro h
    exact congrArg _ h

theorem sameContent_of_text {scope other : ConcurrencyScope} (h : scope.text = other.text) :
    scope.SameContent other :=
  List.Perm.of_eq (text_eq_iff.1 h)

/-- The text of a scope is never that of an inherited member. -/
theorem memberText_ne (name : String) (scope : ConcurrencyScope) :
    memberText name ≠ some scope.text := by
  obtain ⟨property, hproperty, hname⟩ := List.mem_map.1 scope.expected
  have hsome : property.print.isSome := by
    rw [ScopeProperty.print_isSome]
    cases property with
    | sequenceNumber value => rfl
    | _ => simp only [ScopeProperty.name, String.reduceEq] at hname
  obtain ⟨entry, hentry⟩ := Option.isSome_iff_exists.1 hsome
  have hmem : entry ∈ scope.properties.filterMap ScopeProperty.print :=
    List.mem_filterMap.2 ⟨property, hproperty, hentry⟩
  unfold memberText
  by_cases h : name = "__proto__"
  · rw [if_pos h, Ne, Option.some.injEq, text, Json.object.injEq]
    intro hempty
    rw [← hempty] at hmem
    cases hmem
  · rw [if_neg h]
    exact (Option.some_ne_none _).symm

end ConcurrencyScope

/-! ### Entering scopes -/

namespace ChronicleUnitOfWork

/-- A scope is admitted under a name that is free, or that has its text. -/
theorem admitsScope_iff {scopes : InsertionMap String ConcurrencyScope}
    {entry : String × ConcurrencyScope} :
    admitsScope scopes entry = true ↔
      (scopes.get entry.1 = none ∧ entry.1 ∉ objectMembers) ∨
        ∃ staged, scopes.get entry.1 = some staged ∧ staged.text = entry.2.text := by
  unfold admitsScope
  cases hread : scopes.read entry.1 with
  | absent => simp [InsertionMap.read_eq_absent_iff.1 hread]
  | own staged => simp [InsertionMap.read_eq_own_iff.1 hread]
  | inherited =>
      have habsent : ¬ (scopes.get entry.1 = none ∧ entry.1 ∉ objectMembers) := by
        rw [← InsertionMap.read_eq_absent_iff, hread]
        simp
      have hown : ∀ staged, scopes.get entry.1 ≠ some staged := by
        intro staged
        rw [Ne, ← InsertionMap.read_eq_own_iff, hread]
        simp
      simp [habsent, hown, ConcurrencyScope.memberText_ne]

theorem admitsScope_set_of_ne (scopes : InsertionMap String ConcurrencyScope)
    {entry other : String × ConcurrencyScope} (h : entry.1 ≠ other.1) :
    admitsScope (scopes.set other.1 other.2) entry = admitsScope scopes entry := by
  rw [admitsScope, admitsScope, InsertionMap.read_set_of_ne scopes other.2 h]

/-- Scopes under distinct names are entered up to the first that is not admitted. -/
theorem enterWrittenScopes_eq {scopes : InsertionMap String ConcurrencyScope}
    {entries : List (String × ConcurrencyScope)} (hnodup : (entries.map Prod.fst).Nodup)
    {admits : String × ConcurrencyScope → Bool}
    (hadmits : ∀ entry ∈ entries, admitsScope scopes entry = admits entry) :
    enterWrittenScopes scopes entries =
      (scopes.setAll (entries.takeWhile admits),
        (entries.find? (fun entry => !admits entry)).map fun entry =>
          .error ("Conflicting Chronicle concurrency scope: " ++ entry.1)) := by
  induction entries generalizing scopes with
  | nil => rfl
  | cons entry rest ih =>
      have hentry := hadmits entry List.mem_cons_self
      rw [List.map_cons, List.nodup_cons] at hnodup
      unfold enterWrittenScopes
      by_cases h : admits entry = true
      · rw [if_pos (hentry.trans h), List.takeWhile_cons_of_pos h,
          List.find?_cons_of_neg (by simp [h]), InsertionMap.setAll_cons]
        apply ih hnodup.2
        intro other hother
        rw [← hadmits other (List.mem_cons_of_mem _ hother)]
        apply admitsScope_set_of_ne
        intro heq
        exact hnodup.1 (heq ▸ List.mem_map_of_mem hother)
      · rw [if_neg (by rw [hentry]; exact h), List.takeWhile_cons_of_neg h,
          List.find?_cons_of_pos (by simpa using h)]
        rfl

/-! ### What a call of `stage` must and does refuse -/

/-- The unit takes no batch of this context and store at all. -/
def Bars (unit : ChronicleUnitOfWork ε σ ConcurrencyScope) (store : σ)
    (context : CommandContext) : Prop :=
  unit.completed = true ∨ context.tenantId ≠ unit.context.tenantId ∨
    context.correlationId ≠ unit.context.correlationId ∨
    ∃ bound, unit.store = some bound ∧ bound ≠ store

/-- Some scope says something else than the one staged under its id. -/
def Conflicts (unit : ChronicleUnitOfWork ε σ ConcurrencyScope)
    (scopes : InsertionMap String ConcurrencyScope) : Prop :=
  ∃ name scope staged, (name, scope) ∈ scopes.entries ∧ unit.scopes.get name = some staged ∧
    ¬ staged.SameContent scope

/-- A scope that says something else is not admitted. -/
theorem exists_refused_of_conflicts {unit : ChronicleUnitOfWork ε σ ConcurrencyScope}
    {scopes : InsertionMap String ConcurrencyScope} (h : unit.Conflicts scopes) :
    ∃ entry ∈ scopes.entries, admitsScope unit.scopes entry = false := by
  obtain ⟨name, scope, staged, hmem, hget, hother⟩ := h
  refine ⟨(name, scope), hmem, ?_⟩
  rw [Bool.eq_false_iff, Ne, admitsScope_iff]
  rintro (⟨hnone, -⟩ | ⟨staged', hget', htext⟩)
  · rw [hget] at hnone
    cases hnone
  · obtain rfl : staged = staged' := Option.some.inj (hget.symm.trans hget')
    exact hother (ConcurrencyScope.sameContent_of_text htext)

/-- Every scope is admitted; or one says something else, the store is bound, and the scopes
before the first that is not admitted are staged as they are. -/
def Unspoiled (unit : ChronicleUnitOfWork ε σ ConcurrencyScope) (store : σ)
    (scopes : InsertionMap String ConcurrencyScope) : Prop :=
  (∀ entry ∈ scopes.entries, admitsScope unit.scopes entry = true) ∨
    unit.Conflicts scopes ∧ unit.store = some store ∧
      ∀ entry ∈ scopes.entries.takeWhile (admitsScope unit.scopes),
        unit.scopes.get entry.1 = some entry.2

variable [DecidableEq σ]

/-- A call throws exactly when it must, and leaves the unit as it was when it throws. -/
def StagesAtomically (unit : ChronicleUnitOfWork ε σ ConcurrencyScope) (store : σ)
    (context : CommandContext) (entries : List ε)
    (scopes : InsertionMap String ConcurrencyScope) : Prop :=
  let staged := unit.stageWritten store context entries scopes
  (staged.2.isSome = true ↔ unit.Bars store context ∨ unit.Conflicts scopes) ∧
    (staged.2.isSome = true → staged.1.entries = unit.entries ∧ staged.1.store = unit.store ∧
      staged.1.scopes = unit.scopes)

theorem stageWritten_of_bars {unit : ChronicleUnitOfWork ε σ ConcurrencyScope} {store : σ}
    {context : CommandContext} (h : unit.Bars store context) (entries : List ε)
    (scopes : InsertionMap String ConcurrencyScope) :
    ∃ error, unit.stageWritten store context entries scopes = (unit, some error) := by
  unfold stageWritten
  by_cases hcompleted : unit.completed = true
  · exact ⟨_, if_pos hcompleted⟩
  rw [if_neg hcompleted]
  by_cases hcontext : context.tenantId ≠ unit.context.tenantId ∨
      context.correlationId ≠ unit.context.correlationId
  · exact ⟨_, if_pos hcontext⟩
  rw [if_neg hcontext]
  have hstore : unit.store.any (· ≠ store) = true := by
    rcases h with h | h | h | ⟨bound, hbound, hne⟩
    · exact absurd h hcompleted
    · exact absurd (Or.inl h) hcontext
    · exact absurd (Or.inr h) hcontext
    · simp [hbound, hne]
  exact ⟨_, if_pos hstore⟩

theorem stageWritten_of_not_bars {unit : ChronicleUnitOfWork ε σ ConcurrencyScope} {store : σ}
    {context : CommandContext} (h : ¬ unit.Bars store context) (entries : List ε)
    (scopes : InsertionMap String ConcurrencyScope) :
    (unit.stageWritten store context entries scopes).2.isSome =
        scopes.entries.any (fun entry => !admitsScope unit.scopes entry) ∧
      (unit.stageWritten store context entries scopes).1.store = some store ∧
      (unit.stageWritten store context entries scopes).1.scopes =
        unit.scopes.setAll (scopes.entries.takeWhile (admitsScope unit.scopes)) ∧
      ((unit.stageWritten store context entries scopes).2.isSome = true →
        (unit.stageWritten store context entries scopes).1.entries = unit.entries) := by
  unfold Bars at h
  push Not at h
  obtain ⟨hcompleted, htenant, hcorrelation, hstore⟩ := h
  have hcontext : ¬ (context.tenantId ≠ unit.context.tenantId ∨
      context.correlationId ≠ unit.context.correlationId) := by
    rw [htenant, hcorrelation]
    simp
  have hbound : ¬ unit.store.any (· ≠ store) = true := by
    simpa [Option.any_eq_true] using hstore
  unfold stageWritten
  rw [if_neg hcompleted, if_neg hcontext, if_neg hbound,
    enterWrittenScopes_eq scopes.nodup_keys (fun entry _ => rfl)]
  cases hfind : scopes.entries.find? (fun entry => !admitsScope unit.scopes entry) with
  | none =>
      have hany : scopes.entries.any (fun entry => !admitsScope unit.scopes entry) = false := by
        rw [← Option.not_isSome_iff_eq_none, List.find?_isSome] at hfind
        rw [List.any_eq_false]
        intro entry hentry hrefused
        exact hfind ⟨entry, hentry, hrefused⟩
      simp [hany]
  | some entry =>
      have hany : scopes.entries.any (fun entry => !admitsScope unit.scopes entry) = true :=
        List.any_eq_true.2 ⟨entry, List.mem_of_find?_eq_some hfind,
          by simpa using List.find?_some hfind⟩
      simp [hany]

/-- `stage` throws exactly when it must and leaves nothing behind when it throws exactly where
it is barred, admits every scope, or finds its effects in place before the first conflict. -/
theorem stagesAtomically_iff (unit : ChronicleUnitOfWork ε σ ConcurrencyScope) (store : σ)
    (context : CommandContext) (entries : List ε)
    (scopes : InsertionMap String ConcurrencyScope) :
    unit.StagesAtomically store context entries scopes ↔
      unit.Bars store context ∨ unit.Unspoiled store scopes := by
  by_cases hbars : unit.Bars store context
  · obtain ⟨error, hstage⟩ := stageWritten_of_bars hbars entries scopes
    simp [StagesAtomically, hstage, hbars]
  obtain ⟨hthrows, hstore, hscopes, hentries⟩ := stageWritten_of_not_bars hbars entries scopes
  have hnodup : ((scopes.entries.takeWhile (admitsScope unit.scopes)).map Prod.fst).Nodup :=
    scopes.nodup_keys.sublist ((List.takeWhile_sublist _).map Prod.fst)
  unfold StagesAtomically
  simp only [hbars, false_or]
  rw [hstore, hscopes, InsertionMap.setAll_eq_self_iff hnodup]
  by_cases hall : ∀ entry ∈ scopes.entries, admitsScope unit.scopes entry = true
  · have hnone : (unit.stageWritten store context entries scopes).2.isSome = false := by
      rw [hthrows, List.any_eq_false]
      intro entry hentry
      simp [hall entry hentry]
    have hfree : ¬ unit.Conflicts scopes := by
      intro hconflicts
      obtain ⟨entry, hentry, hrefused⟩ := exists_refused_of_conflicts hconflicts
      rw [hall entry hentry] at hrefused
      cases hrefused
    have hunspoiled : unit.Unspoiled store scopes := Or.inl hall
    simp [hnone, hfree, hunspoiled]
  · have hsome : (unit.stageWritten store context entries scopes).2.isSome = true := by
      push Not at hall
      obtain ⟨entry, hentry, hrefused⟩ := hall
      rw [hthrows, List.any_eq_true]
      exact ⟨entry, hentry, by simpa using hrefused⟩
    simp only [hsome, hentries hsome, true_iff, true_and, forall_const, Unspoiled, hall, false_or]
    rw [eq_comm (a := some store)]

/-- The scope of a source whose tail is expected to be at a number. -/
def tailScope (tail : ℤ) : ConcurrencyScope where
  properties := [.eventSourceId (some true), .sequenceNumber tail]
  nodup_names := by simp [ScopeProperty.name]
  expected := by simp [ScopeProperty.name]

/-- A unit in which one scope is staged. -/
def lending : ChronicleUnitOfWork ℕ ℕ ConcurrencyScope where
  context := ⟨0, "tenant", "correlation"⟩
  entries := [1]
  scopes := InsertionMap.empty.set "loan-1" (tailScope 4)
  store := some 0
  disposition_of_open := noCommit_of_open

/-- A batch for another source is refused for the staged one, and leaves its own scope. -/
theorem not_stagesAtomically_lending :
    ¬ lending.StagesAtomically 0 ⟨1, "tenant", "correlation"⟩ [2]
      ((InsertionMap.empty.set "book-1" (tailScope 7)).set "loan-1" (tailScope 5)) := by
  intro h
  have hscopes := (h.2 (by decide)).2.2
  have hbook := congrArg (fun scopes => scopes.get "book-1") hscopes
  revert hbook
  decide

/-! ### What stays staged -/

/-- The unit after further calls of `stage`, whether or not they throw. -/
def stageAll (unit : ChronicleUnitOfWork ε σ ConcurrencyScope) (calls : List (StageCall ε σ)) :
    ChronicleUnitOfWork ε σ ConcurrencyScope :=
  calls.foldl (fun unit call =>
    (unit.stageWritten call.store call.context call.entries call.scopes).1) unit

/-- A call that does not throw has entered each of its scopes. -/
theorem get_of_stageWritten {unit : ChronicleUnitOfWork ε σ ConcurrencyScope} {store : σ}
    {context : CommandContext} {entries : List ε} {scopes : InsertionMap String ConcurrencyScope}
    (h : (unit.stageWritten store context entries scopes).2 = none) {name : String}
    {scope : ConcurrencyScope} (hmem : (name, scope) ∈ scopes.entries) :
    (unit.stageWritten store context entries scopes).1.scopes.get name = some scope := by
  by_cases hbars : unit.Bars store context
  · obtain ⟨error, hstage⟩ := stageWritten_of_bars hbars entries scopes
    rw [hstage] at h
    cases h
  obtain ⟨hthrows, -, hscopes, -⟩ := stageWritten_of_not_bars hbars entries scopes
  rw [h, Option.isSome_none, eq_comm, List.any_eq_false] at hthrows
  have htake : scopes.entries.takeWhile (admitsScope unit.scopes) = scopes.entries := by
    rw [List.takeWhile_eq_self_iff]
    intro entry hentry
    simpa using hthrows entry hentry
  rw [hscopes, htake]
  exact InsertionMap.get_setAll_of_mem scopes.nodup_keys hmem

/-- A scope that is staged is replaced only by one of its text. -/
theorem get_stageWritten {unit : ChronicleUnitOfWork ε σ ConcurrencyScope} {name : String}
    {scope : ConcurrencyScope} (h : unit.scopes.get name = some scope) (store : σ)
    (context : CommandContext) (entries : List ε)
    (scopes : InsertionMap String ConcurrencyScope) :
    ∃ kept, (unit.stageWritten store context entries scopes).1.scopes.get name = some kept ∧
      kept.text = scope.text := by
  by_cases hbars : unit.Bars store context
  · obtain ⟨error, hstage⟩ := stageWritten_of_bars hbars entries scopes
    rw [hstage]
    exact ⟨scope, h, rfl⟩
  obtain ⟨-, -, hscopes, -⟩ := stageWritten_of_not_bars hbars entries scopes
  rw [hscopes]
  by_cases hname : name ∈
      (scopes.entries.takeWhile (admitsScope unit.scopes)).map Prod.fst
  · obtain ⟨entry, hentry, rfl⟩ := List.mem_map.1 hname
    have hnodup : ((scopes.entries.takeWhile (admitsScope unit.scopes)).map Prod.fst).Nodup :=
      scopes.nodup_keys.sublist ((List.takeWhile_sublist _).map Prod.fst)
    refine ⟨entry.2, InsertionMap.get_setAll_of_mem hnodup hentry, ?_⟩
    rcases admitsScope_iff.1 (List.mem_takeWhile_imp hentry) with ⟨hnone, -⟩ | ⟨staged, hget, htext⟩
    · rw [h] at hnone
      cases hnone
    · obtain rfl : scope = staged := Option.some.inj (h.symm.trans hget)
      exact htext.symm
  · rw [InsertionMap.get_setAll_of_not_mem hname]
    exact ⟨scope, h, rfl⟩

theorem get_stageAll {unit : ChronicleUnitOfWork ε σ ConcurrencyScope} {name : String}
    {scope : ConcurrencyScope} (calls : List (StageCall ε σ))
    (h : unit.scopes.get name = some scope) :
    ∃ kept, (unit.stageAll calls).scopes.get name = some kept ∧ kept.text = scope.text := by
  induction calls generalizing unit scope with
  | nil => exact ⟨scope, h, rfl⟩
  | cons call rest ih =>
      obtain ⟨next, hnext, htext⟩ :=
        get_stageWritten h call.store call.context call.entries call.scopes
      obtain ⟨kept, hkept, hkepttext⟩ := ih hnext
      exact ⟨kept, hkept, hkepttext.trans htext⟩

/-! ### The scopes as texts -/

theorem enterWrittenScopes_mapValues (scopes : InsertionMap String ConcurrencyScope)
    (entries : List (String × ConcurrencyScope)) :
    ((enterWrittenScopes scopes entries).1.mapValues ConcurrencyScope.text,
        (enterWrittenScopes scopes entries).2) =
      enterScopes (scopes.mapValues ConcurrencyScope.text)
        (entries.map fun entry => (entry.1, entry.2.text)) := by
  induction entries generalizing scopes with
  | nil => rfl
  | cons entry rest ih =>
      rw [List.map_cons, enterScopes, enterWrittenScopes, admitsScope]
      rw [InsertionMap.read, InsertionMap.read, InsertionMap.get_mapValues]
      cases hget : scopes.get entry.1 with
      | some staged =>
          by_cases htext : staged.text = entry.2.text
          · simp only [Option.map_some, htext, decide_true, if_true]
            rw [ih, InsertionMap.mapValues_set]
          · simp [htext]
      | none =>
          by_cases hmember : entry.1 ∈ objectMembers
          · simp [hmember, ConcurrencyScope.memberText_ne]
          · simp only [Option.map_none, if_neg hmember, if_true]
            rw [ih, InsertionMap.mapValues_set]

section MapScopes

variable {κ κ' : Type*} (f : κ → κ') (unit : ChronicleUnitOfWork ε σ κ)

omit [DecidableEq σ]

@[simp] theorem mapScopes_completed : (unit.mapScopes f).completed = unit.completed := rfl

@[simp] theorem mapScopes_scopes : (unit.mapScopes f).scopes = unit.scopes.mapValues f := rfl

end MapScopes

/-- With its scopes as their texts, the unit stages as the unit of the command tree does. -/
theorem stageWritten_mapScopes (unit : ChronicleUnitOfWork ε σ ConcurrencyScope) (store : σ)
    (context : CommandContext) (entries : List ε)
    (scopes : InsertionMap String ConcurrencyScope) :
    ((unit.stageWritten store context entries scopes).1.mapScopes ConcurrencyScope.text,
        (unit.stageWritten store context entries scopes).2) =
      (unit.mapScopes ConcurrencyScope.text).stage store context entries
        (scopes.mapValues ConcurrencyScope.text).entries := by
  have hentered := enterWrittenScopes_mapValues unit.scopes scopes.entries
  rw [Prod.ext_iff] at hentered
  dsimp only at hentered
  unfold stageWritten stage
  by_cases hcompleted : unit.completed = true
  · simp [hcompleted]
  have hcompleted' : ¬ (unit.mapScopes ConcurrencyScope.text).completed = true := hcompleted
  rw [if_neg hcompleted, if_neg hcompleted']
  by_cases hcontext : context.tenantId ≠ unit.context.tenantId ∨
      context.correlationId ≠ unit.context.correlationId
  · rw [if_pos hcontext]
    exact (if_pos hcontext).symm
  rw [if_neg hcontext]
  refine Eq.trans ?_ (if_neg hcontext).symm
  by_cases hstore : unit.store.any (· ≠ store) = true
  · rw [if_pos hstore]
    exact (if_pos hstore).symm
  rw [if_neg hstore]
  refine Eq.trans ?_ (if_neg hstore).symm
  simp only [mapScopes_scopes, InsertionMap.entries_mapValues]
  rw [← hentered.2]
  cases hthrown : (enterWrittenScopes unit.scopes scopes.entries).2 with
  | some error => simp [mapScopes, hentered.1]
  | none => simp [mapScopes, hentered.1]

end ChronicleUnitOfWork

end Arc.Chronicle
