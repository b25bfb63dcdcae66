import Arc.Commands.CommandResult
import Arc.Execution.FilterFragments
import Arc.Queries.QueryResult

/-!
# Filter chains

Commands and queries run their filters one after the other, each filter once, and stop at
the first that makes the result fail. The two runners share the loop and differ in the
result they rebuild after every fragment: a command has no readiness, and a query keeps no
reason for a denial. `ChainLaw` is what holds of every chain.
-/

namespace Arc.Execution

open Arc.Commands (CommandResult commandResult)
open Arc.Queries (QueryResult queryResult)
open Arc.Validation

/-! ### The runners -/

/-- What running one filter does: its resolution, its answer (nothing, or a fragment), and
whether the signal is aborted by then. -/
structure Filter where
  resolved : Except String Unit := .ok ()
  abortsResolving : Bool := false
  answer : Except String (Option Untrusted)
  abortsRunning : Bool := false

/-- What a chain runs under; `reason` is the text of what a canceled chain throws. -/
structure FilterContext where
  correlationId : String
  allowedSeverity : Severity
  reason : String
  aborted : Bool := false

/-- The two runners. -/
inductive Pipeline
  | command
  | query
  deriving DecidableEq

/-- `merged.validationResults.filter(item => item.severity > context.allowedSeverity)` -/
def FilterContext.rejecting (context : FilterContext)
    (results : List (ValidationResult Untrusted)) : List (ValidationResult Untrusted) :=
  results.filter fun item => item.severity.exceeds context.allowedSeverity

/-- The result is built again, with the severity applied. -/
def Pipeline.rebuild (pipeline : Pipeline) (context : FilterContext) (merged : Verdict) : Verdict :=
  match pipeline with
  | command =>
      { merged with
        isReady := true
        validationResults := context.rejecting merged.validationResults }
  | query =>
      { merged with
        authorizationFailureReason := ""
        validationResults := context.rejecting merged.validationResults }

def FilterContext.checkCancellation (context : FilterContext) (aborted : Bool) :
    Except String Unit :=
  if aborted then .error context.reason else .ok ()

section Runners

variable {τ : Type}

/-- One filter: resolved, run, and its fragment merged. -/
def runFilter (pipeline : Pipeline) (context : FilterContext) (filter : Filter)
    (verdict : Verdict) : Except String Verdict := do
  filter.resolved
  context.checkCancellation filter.abortsResolving
  let fragment ← filter.answer
  context.checkCancellation filter.abortsRunning
  match fragment with
  | none => .ok verdict
  | some fragment => (mergeFilterFragment verdict fragment).map (pipeline.rebuild context)

/-- What a chain ends with, and the filters it came to. -/
structure ChainRun (τ : Type) where
  verdict : Verdict
  blocked : Bool
  ran : List τ

/-- The result of a chain that throws. -/
def Verdict.throwing (verdict : Verdict) (message : String) : Verdict :=
  { verdict with exceptionMessages := verdict.exceptionMessages ++ [message] }

def runEach (pipeline : Pipeline) (context : FilterContext) (filters : τ → Filter) :
    List τ → Verdict → List τ → ChainRun τ
  | [], verdict, ran => ⟨verdict, false, ran⟩
  | token :: rest, verdict, ran =>
      match runFilter pipeline context (filters token) verdict with
      | .error message => ⟨verdict.throwing message, true, ran ++ [token]⟩
      | .ok verdict =>
          if verdict.succeeds then runEach pipeline context filters rest verdict (ran ++ [token])
          else ⟨verdict, true, ran ++ [token]⟩

/-- Run one filter group; a token that is registered twice is run once. -/
def runChain [DecidableEq τ] (pipeline : Pipeline) (context : FilterContext)
    (filters : τ → Filter) (tokens : List τ) : ChainRun τ :=
  if context.aborted then ⟨Verdict.throwing {} context.reason, true, []⟩
  else runEach pipeline context filters tokens.eraseDups {} []

/-- Run one filter group of a command, applying severity before deciding to stop. -/
def runCommandFilters [DecidableEq τ] (context : FilterContext) (filters : τ → Filter)
    (tokens : List τ) : CommandResult Unit (ValidationResult Untrusted) × Bool :=
  let run := runChain .command context filters tokens
  (commandResult context.correlationId {
    isAuthorized := run.verdict.isAuthorized
    validationResults := run.verdict.validationResults
    exceptionMessages := run.verdict.exceptionMessages
    exceptionStackTrace := run.verdict.exceptionStackTrace
    authorizationFailureReason := run.verdict.authorizationFailureReason }, run.blocked)

/-- Run one filter group of a query and stop at the first unsuccessful fragment. -/
def runQueryFilters [DecidableEq τ] (context : FilterContext) (filters : τ → Filter)
    (tokens : List τ) : QueryResult Unit (ValidationResult Untrusted) :=
  let run := runChain .query context filters tokens
  queryResult context.correlationId {
    isReady := run.verdict.isReady
    isAuthorized := run.verdict.isAuthorized
    validationResults := run.verdict.validationResults
    exceptionMessages := run.verdict.exceptionMessages
    exceptionStackTrace := run.verdict.exceptionStackTrace }

end Runners

/-! ### What a filter says -/

/-- A fragment that says nothing against the result. -/
structure Fragment.Passes (fragment : Fragment) (allowed : Severity) : Prop where
  isAuthorized : fragment.isAuthorized ≠ some false
  exceptionMessages : fragment.exceptionMessages.getD [] = []
  validationResults : ∀ issue ∈ fragment.validationResults.getD [],
    issue.severity.exceeds allowed = false

/-- A filter that runs and answers nothing, or a well-formed fragment that passes; for a
query the fragment must not say that it is not ready. -/
structure Filter.Passes (filter : Filter) (pipeline : Pipeline) (allowed : Severity) : Prop where
  resolved : filter.resolved = .ok ()
  notAborted : filter.abortsResolving = false ∧ filter.abortsRunning = false
  answer : filter.answer = .ok none ∨ ∃ value fragment,
    filter.answer = .ok (some value) ∧ WellFormedFragment value ∧
      readFragment value = .ok fragment ∧ fragment.Passes allowed ∧
      (pipeline = .query → fragment.isReady ≠ some false)

/-- A filter that throws or answers a malformed fragment. -/
def Filter.Fails (filter : Filter) : Prop :=
  (∃ message, filter.resolved = .error message) ∨ (∃ message, filter.answer = .error message) ∨
    ∃ value, filter.answer = .ok (some value) ∧ ¬ WellFormedFragment value

/-! ### One filter -/

theorem FilterContext.rejecting_eq_nil_iff {context : FilterContext}
    {results : List (ValidationResult Untrusted)} :
    context.rejecting results = [] ↔
      ∀ issue ∈ results, issue.severity.exceeds context.allowedSeverity = false := by
  simp only [rejecting, List.filter_eq_nil_iff, Bool.not_eq_true]

/-- Rebuilding decides by the severity of the issues, and forgets the readiness of a command. -/
theorem Pipeline.rebuild_succeeds_iff {pipeline : Pipeline} {context : FilterContext}
    {merged : Verdict} :
    (pipeline.rebuild context merged).succeeds = true ↔
      (pipeline = .query → merged.isReady = true) ∧ merged.isAuthorized = true ∧
        context.rejecting merged.validationResults = [] ∧ merged.exceptionMessages = [] := by
  rw [Verdict.succeeds_iff]
  cases pipeline with
  | command => simp [rebuild]
  | query => simp [rebuild]

/-- A fragment merged into a success leaves one exactly when it passes. -/
theorem rebuild_merge_succeeds_iff {pipeline : Pipeline} {context : FilterContext}
    {verdict : Verdict} {fragment : Fragment} (hverdict : verdict.succeeds = true) :
    (pipeline.rebuild context (verdict.merge fragment)).succeeds = true ↔
      fragment.Passes context.allowedSeverity ∧
        (pipeline = .query → fragment.isReady ≠ some false) := by
  obtain ⟨hready, hauthorized, hresults, hmessages⟩ := Verdict.succeeds_iff.1 hverdict
  rw [Pipeline.rebuild_succeeds_iff]
  simp only [Verdict.merge, hready, hauthorized, hresults, hmessages, Bool.true_and, bne_iff_ne,
    List.nil_append]
  constructor
  · rintro ⟨hready', hauthorized', hresults', hmessages'⟩
    rw [if_pos hauthorized', FilterContext.rejecting_eq_nil_iff] at hresults'
    exact ⟨⟨hauthorized', hmessages', hresults'⟩, hready'⟩
  · rintro ⟨⟨hauthorized', hmessages', hresults'⟩, hready'⟩
    refine ⟨hready', hauthorized', ?_, hmessages'⟩
    rw [if_pos hauthorized', FilterContext.rejecting_eq_nil_iff]
    exact hresults'

theorem checkCancellation_eq_ok {context : FilterContext} {aborted : Bool} :
    context.checkCancellation aborted = .ok () ↔ aborted = false := by
  cases aborted with
  | true => simp [FilterContext.checkCancellation]
  | false => simp [FilterContext.checkCancellation]

/-- A filter that lets the chain go on: it ran, and its fragment is merged if there is one. -/
theorem runFilter_eq_ok {pipeline : Pipeline} {context : FilterContext} {filter : Filter}
    {verdict next : Verdict} :
    runFilter pipeline context filter verdict = .ok next ↔
      filter.resolved = .ok () ∧ filter.abortsResolving = false ∧ filter.abortsRunning = false ∧
        ((filter.answer = .ok none ∧ next = verdict) ∨ ∃ value fragment,
          filter.answer = .ok (some value) ∧ readFragment value = .ok fragment ∧
            next = pipeline.rebuild context (verdict.merge fragment)) := by
  rw [runFilter, Except.bind_unit_eq_ok, Except.bind_unit_eq_ok, Except.bind_eq_ok,
    checkCancellation_eq_ok]
  simp only [Except.bind_unit_eq_ok, checkCancellation_eq_ok]
  refine and_congr_right fun _ => and_congr_right fun _ => ?_
  constructor
  · rintro ⟨answer, hanswer, hrunning, hnext⟩
    refine ⟨hrunning, ?_⟩
    cases answer with
    | none =>
        injection hnext with hnext
        exact Or.inl ⟨hanswer, hnext.symm⟩
    | some value =>
        cases hmerged : mergeFilterFragment verdict value with
        | error error =>
            simp only [hmerged] at hnext
            cases hnext
        | ok merged =>
            simp only [hmerged] at hnext
            obtain ⟨fragment, hfragment, rfl⟩ := mergeFilterFragment_eq_ok.1 hmerged
            injection hnext with hnext
            exact Or.inr ⟨value, fragment, hanswer, hfragment, hnext.symm⟩
  · rintro ⟨hrunning, ⟨hanswer, rfl⟩ | ⟨value, fragment, hanswer, hfragment, rfl⟩⟩
    · exact ⟨none, hanswer, hrunning, rfl⟩
    · refine ⟨some value, hanswer, hrunning, ?_⟩
      simp only [mergeFilterFragment_eq_ok.2 ⟨fragment, hfragment, rfl⟩]
      rfl

/-- From a success, the chain goes on with a success exactly after a filter that passes. -/
theorem runFilter_succeeds_iff {pipeline : Pipeline} {context : FilterContext} {filter : Filter}
    {verdict : Verdict} (hverdict : verdict.succeeds = true) :
    (∃ next, runFilter pipeline context filter verdict = .ok next ∧ next.succeeds = true) ↔
      filter.Passes pipeline context.allowedSeverity := by
  constructor
  · rintro ⟨next, hnext, hsucceeds⟩
    obtain ⟨hresolved, hresolving, hrunning, hanswer⟩ := runFilter_eq_ok.1 hnext
    refine ⟨hresolved, ⟨hresolving, hrunning⟩, ?_⟩
    rcases hanswer with ⟨hnone, -⟩ | ⟨value, fragment, hsome, hfragment, rfl⟩
    · exact Or.inl hnone
    · obtain ⟨hpasses, hready⟩ := (rebuild_merge_succeeds_iff hverdict).1 hsucceeds
      exact Or.inr ⟨value, fragment, hsome, (exists_readFragment_iff value).1 ⟨fragment, hfragment⟩,
        hfragment, hpasses, hready⟩
  · rintro ⟨hresolved, ⟨hresolving, hrunning⟩, hanswer⟩
    rcases hanswer with hnone | ⟨value, fragment, hsome, -, hfragment, hpasses, hready⟩
    · exact ⟨verdict, runFilter_eq_ok.2 ⟨hresolved, hresolving, hrunning,
        Or.inl ⟨hnone, rfl⟩⟩, hverdict⟩
    · exact ⟨_, runFilter_eq_ok.2 ⟨hresolved, hresolving, hrunning,
        Or.inr ⟨value, fragment, hsome, hfragment, rfl⟩⟩,
        (rebuild_merge_succeeds_iff hverdict).2 ⟨hpasses, hready⟩⟩

/-- A filter that fails does not let the chain go on. -/
theorem not_passes_of_fails {filter : Filter} {pipeline : Pipeline} {allowed : Severity}
    (h : filter.Fails) : ¬ filter.Passes pipeline allowed := by
  rintro ⟨hresolved, -, hanswer⟩
  rcases h with ⟨message, hthrows⟩ | ⟨message, hthrows⟩ | ⟨malformed, hmalformed, hnot⟩
  · rw [hresolved] at hthrows
    cases hthrows
  · rcases hanswer with hnone | ⟨value, fragment, hsome, -⟩
    · rw [hnone] at hthrows
      cases hthrows
    · rw [hsome] at hthrows
      cases hthrows
  · rcases hanswer with hnone | ⟨value, fragment, hsome, hwell, -⟩
    · rw [hnone] at hmalformed
      cases hmalformed
    · rw [hsome] at hmalformed
      cases hmalformed
      exact hnot hwell

/-! ### Whole chains -/

/-- A denied verdict that gives no details. -/
def Verdict.Discreet (verdict : Verdict) : Prop :=
  verdict.isAuthorized = false → verdict.validationResults = []

theorem Verdict.discreet_of_succeeds {verdict : Verdict} (h : verdict.succeeds = true) :
    verdict.Discreet :=
  fun _ => (Verdict.succeeds_iff.1 h).2.2.1

theorem discreet_rebuild_merge {pipeline : Pipeline} {context : FilterContext}
    {verdict : Verdict} {fragment : Fragment} :
    (pipeline.rebuild context (verdict.merge fragment)).Discreet := by
  intro hdenied
  have hmerged : (verdict.merge fragment).isAuthorized = false := by
    cases pipeline with
    | command => exact hdenied
    | query => exact hdenied
  have hnone := Verdict.merge_validationResults_of_denied hmerged
  cases pipeline with
  | command => simp [Pipeline.rebuild, hnone, FilterContext.rejecting]
  | query => simp [Pipeline.rebuild, hnone, FilterContext.rejecting]

theorem discreet_of_runFilter {pipeline : Pipeline} {context : FilterContext} {filter : Filter}
    {verdict next : Verdict} (hverdict : verdict.succeeds = true)
    (h : runFilter pipeline context filter verdict = .ok next) : next.Discreet := by
  obtain ⟨-, -, -, hanswer⟩ := runFilter_eq_ok.1 h
  rcases hanswer with ⟨-, rfl⟩ | ⟨value, fragment, -, -, rfl⟩
  · exact Verdict.discreet_of_succeeds hverdict
  · exact discreet_rebuild_merge

theorem Verdict.throwing_fails (verdict : Verdict) (message : String) :
    (verdict.throwing message).succeeds = false := by
  simp [succeeds, throwing]

/-- What holds of a chain that has run over `tokens`. -/
structure ChainLaw {τ : Type} (pipeline : Pipeline) (context : FilterContext)
    (filters : τ → Filter) (tokens : List τ) (run : ChainRun τ) : Prop where
  unblocked : run.blocked = false ↔ context.aborted = false ∧ run.ran = tokens ∧
    ∀ token ∈ tokens, (filters token).Passes pipeline context.allowedSeverity
  succeeds : run.verdict.succeeds = !run.blocked
  discreet : run.verdict.Discreet
  fails : ∀ token ∈ run.ran, (filters token).Fails → run.verdict.succeeds = false
  reached : run.ran <+: tokens

/-- A chain that stops at a filter: it is blocked, and its verdict fails. -/
theorem chainLaw_of_stop {τ : Type} {pipeline : Pipeline} {context : FilterContext}
    {filters : τ → Filter} {token : τ} {rest : List τ} {run : ChainRun τ}
    (hnot : ¬ (filters token).Passes pipeline context.allowedSeverity)
    (hblocked : run.blocked = true) (hfails : run.verdict.succeeds = false)
    (hdiscreet : run.verdict.Discreet) (hran : run.ran = [token]) :
    ChainLaw pipeline context filters (token :: rest) run where
  unblocked := by
    rw [hblocked]
    simp only [Bool.true_eq_false, false_iff]
    rintro ⟨-, -, hpasses⟩
    exact hnot (hpasses token List.mem_cons_self)
  succeeds := by rw [hfails, hblocked, Bool.not_true]
  discreet := hdiscreet
  fails := fun _ _ _ => hfails
  reached := by
    rw [hran]
    exact ⟨rest, rfl⟩

/-- A chain that goes on after a filter that passes keeps the law of the rest. -/
theorem chainLaw_cons {τ : Type} {pipeline : Pipeline} {context : FilterContext}
    {filters : τ → Filter} {token : τ} {rest : List τ} {run : ChainRun τ}
    (hpasses : (filters token).Passes pipeline context.allowedSeverity)
    (hlaw : ChainLaw pipeline context filters rest run) :
    ChainLaw pipeline context filters (token :: rest) { run with ran := token :: run.ran } where
  unblocked := by
    rw [hlaw.unblocked]
    simp only [List.cons.injEq, true_and, List.forall_mem_cons, hpasses]
  succeeds := hlaw.succeeds
  discreet := hlaw.discreet
  fails := by
    intro other hmem hfails
    rcases List.mem_cons.1 hmem with rfl | hrest
    · exact absurd hpasses (not_passes_of_fails hfails)
    · exact hlaw.fails other hrest hfails
  reached := List.cons_prefix_cons.2 ⟨rfl, hlaw.reached⟩

/-- The filters a chain came to before do not matter. -/
theorem runEach_ran {τ : Type} (pipeline : Pipeline) (context : FilterContext)
    (filters : τ → Filter) (tokens : List τ) (verdict : Verdict) (ran : List τ) :
    runEach pipeline context filters tokens verdict ran =
      { runEach pipeline context filters tokens verdict [] with
        ran := ran ++ (runEach pipeline context filters tokens verdict []).ran } := by
  induction tokens generalizing verdict ran with
  | nil => simp [runEach]
  | cons token rest ih =>
      rw [runEach, runEach]
      cases runFilter pipeline context (filters token) verdict with
      | error message => rfl
      | ok next =>
          by_cases hnext : next.succeeds = true
          · simp only [hnext, if_true]
            rw [ih next (ran ++ [token]), ih next ([] ++ [token])]
            simp
          · simp only [hnext]
            rfl

/-- Step by step, a chain that starts from a success keeps the law. -/
theorem runEach_law {τ : Type} {pipeline : Pipeline} {context : FilterContext}
    (hcontext : context.aborted = false) (filters : τ → Filter) (tokens : List τ)
    {verdict : Verdict} (hverdict : verdict.succeeds = true) :
    ChainLaw pipeline context filters tokens
      (runEach pipeline context filters tokens verdict []) := by
  induction tokens generalizing verdict with
  | nil =>
      refine ⟨?_, ?_, Verdict.discreet_of_succeeds hverdict, ?_, List.prefix_rfl⟩
      · simp [runEach, hcontext]
      · simpa [runEach] using hverdict
      · exact fun _ hmem => absurd hmem List.not_mem_nil
  | cons token rest ih =>
      have hpasses : (∃ next, runFilter pipeline context (filters token) verdict = .ok next ∧
          next.succeeds = true) ↔ (filters token).Passes pipeline context.allowedSeverity :=
        runFilter_succeeds_iff hverdict
      rw [runEach]
      cases hrun : runFilter pipeline context (filters token) verdict with
      | error message =>
          have hdiscreet : (verdict.throwing message).Discreet :=
            fun _ => (Verdict.succeeds_iff.1 hverdict).2.2.1
          refine chainLaw_of_stop (fun h => ?_) rfl (Verdict.throwing_fails verdict message)
            hdiscreet rfl
          obtain ⟨next, hnext, -⟩ := hpasses.2 h
          rw [hrun] at hnext
          cases hnext
      | ok next =>
          by_cases hnext : next.succeeds = true
          · simp only [hnext, if_true]
            rw [runEach_ran]
            exact chainLaw_cons (hpasses.1 ⟨next, hrun, hnext⟩) (ih hnext)
          · simp only [hnext]
            refine chainLaw_of_stop (fun h => ?_) rfl (Bool.eq_false_iff.2 hnext)
              (discreet_of_runFilter hverdict hrun) rfl
            obtain ⟨other, hother, hsucceeds⟩ := hpasses.2 h
            rw [hrun] at hother
            cases hother
            exact hnext hsucceeds

theorem runChain_law {τ : Type} [DecidableEq τ] (pipeline : Pipeline) (context : FilterContext)
    (filters : τ → Filter) (tokens : List τ) :
    ChainLaw pipeline context filters tokens.eraseDups
      (runChain pipeline context filters tokens) := by
  unfold runChain
  split_ifs with haborted
  · refine ⟨?_, Verdict.throwing_fails {} context.reason, fun _ => rfl, ?_, List.nil_prefix⟩
    · simp [haborted]
    · exact fun _ hmem => absurd hmem List.not_mem_nil
  · exact runEach_law (Bool.eq_false_iff.2 haborted) filters tokens.eraseDups rfl

/-- A command is ready throughout. -/
theorem isReady_runEach {τ : Type} {context : FilterContext} {filters : τ → Filter}
    (tokens : List τ) {verdict : Verdict} (hready : verdict.isReady = true) (ran : List τ) :
    (runEach .command context filters tokens verdict ran).verdict.isReady = true := by
  induction tokens generalizing verdict ran with
  | nil => exact hready
  | cons token rest ih =>
      rw [runEach]
      cases hrun : runFilter .command context (filters token) verdict with
      | error message => exact hready
      | ok next =>
          have hnext : next.isReady = true := by
            obtain ⟨-, -, -, ⟨-, rfl⟩ | ⟨value, fragment, -, -, rfl⟩⟩ := runFilter_eq_ok.1 hrun
            · exact hready
            · rfl
          simp only
          split_ifs
          · exact ih hnext (ran ++ [token])
          · exact hnext

theorem isReady_runChain {τ : Type} [DecidableEq τ] (context : FilterContext)
    (filters : τ → Filter) (tokens : List τ) :
    (runChain .command context filters tokens).verdict.isReady = true := by
  unfold runChain
  split_ifs
  · rfl
  · exact isReady_runEach tokens.eraseDups rfl []

section Runners

variable {τ : Type} [DecidableEq τ]

theorem runCommandFilters_isSuccess (context : FilterContext) (filters : τ → Filter)
    (tokens : List τ) :
    (runCommandFilters context filters tokens).1.isSuccess =
      (runChain .command context filters tokens).verdict.succeeds := by
  have hready := isReady_runChain context filters tokens
  simp only [Verdict.succeeds, hready, Bool.true_and]
  rfl

theorem runQueryFilters_isSuccess (context : FilterContext) (filters : τ → Filter)
    (tokens : List τ) :
    (runQueryFilters context filters tokens).isSuccess =
      (runChain .query context filters tokens).verdict.succeeds := rfl

/-- A chain came through: nothing canceled it, and every filter ran and passed. -/
structure CameThrough (pipeline : Pipeline) (context : FilterContext) (filters : τ → Filter)
    (tokens : List τ) : Prop where
  notAborted : context.aborted = false
  ran : (runChain pipeline context filters tokens).ran = tokens.eraseDups
  passes : ∀ token ∈ tokens, (filters token).Passes pipeline context.allowedSeverity

theorem cameThrough_iff {pipeline : Pipeline} {context : FilterContext} {filters : τ → Filter}
    {tokens : List τ} :
    CameThrough pipeline context filters tokens ↔
      (runChain pipeline context filters tokens).blocked = false := by
  rw [(runChain_law pipeline context filters tokens).unblocked]
  simp only [List.mem_eraseDups]
  constructor
  · rintro ⟨haborted, hran, hpasses⟩
    exact ⟨haborted, hran, hpasses⟩
  · rintro ⟨haborted, hran, hpasses⟩
    exact ⟨haborted, hran, hpasses⟩

/-- What holds of both runners: a command is blocked, or a query fails, unless its chain came
through; a denied result has no validation results; and a filter that throws or answers a
malformed fragment makes the result fail. -/
structure NeverWeakens (context : FilterContext) (filters : τ → Filter) (tokens : List τ) :
    Prop where
  command : (runCommandFilters context filters tokens).2 = false ↔
    CameThrough .command context filters tokens
  commandResult : (runCommandFilters context filters tokens).1.isSuccess =
    !(runCommandFilters context filters tokens).2
  commandDenied : (runCommandFilters context filters tokens).1.isAuthorized = false →
    (runCommandFilters context filters tokens).1.validationResults = []
  commandFails : ∀ token ∈ (runChain .command context filters tokens).ran,
    (filters token).Fails → (runCommandFilters context filters tokens).1.isSuccess = false
  query : (runQueryFilters context filters tokens).isSuccess = true ↔
    CameThrough .query context filters tokens
  queryDenied : (runQueryFilters context filters tokens).isAuthorized = false →
    (runQueryFilters context filters tokens).validationResults = []
  queryFails : ∀ token ∈ (runChain .query context filters tokens).ran,
    (filters token).Fails → (runQueryFilters context filters tokens).isSuccess = false

/-- Filter chains never weaken a verdict: a merge keeps a failure, a denied verdict gives no
details, a malformed fragment is refused, and both runners obey their law. -/
theorem filterChains_neverWeaken :
    (∀ (current merged : Verdict) (value : Untrusted),
      mergeFilterFragment current value = .ok merged →
        (current.succeeds = false → merged.succeeds = false) ∧
          (merged.isAuthorized = false → merged.validationResults = [])) ∧
    (∀ (current : Verdict) (value : Untrusted), ¬ WellFormedFragment value →
      ∃ message, mergeFilterFragment current value = .error message) ∧
    ∀ (context : FilterContext) (filters : τ → Filter) (tokens : List τ),
      NeverWeakens context filters tokens := by
  refine ⟨?_, ?_, ?_⟩
  · intro current merged value hmerged
    obtain ⟨fragment, -, rfl⟩ := mergeFilterFragment_eq_ok.1 hmerged
    refine ⟨fun hfails => ?_, Verdict.merge_validationResults_of_denied⟩
    rw [Bool.eq_false_iff] at hfails ⊢
    exact fun hsucceeds => hfails (Verdict.merge_succeeds_iff.1 hsucceeds).1
  · intro current value hmalformed
    cases hmerged : mergeFilterFragment current value with
    | error message => exact ⟨message, rfl⟩
    | ok merged =>
        obtain ⟨fragment, hfragment, -⟩ := mergeFilterFragment_eq_ok.1 hmerged
        exact absurd ((exists_readFragment_iff value).1 ⟨fragment, hfragment⟩) hmalformed
  · intro context filters tokens
    have hcommand := runChain_law .command context filters tokens
    have hquery := runChain_law .query context filters tokens
    refine ⟨cameThrough_iff.symm, ?_, hcommand.discreet, ?_, ?_, hquery.discreet, ?_⟩
    · rw [runCommandFilters_isSuccess, hcommand.succeeds]
      rfl
    · rw [runCommandFilters_isSuccess]
      exact hcommand.fails
    · rw [runQueryFilters_isSuccess, hquery.succeeds, Bool.not_eq_true', cameThrough_iff]
    · rw [runQueryFilters_isSuccess]
      exact hquery.fails

end Runners

/-! ### A query filter that is not ready -/

/-- A well-formed fragment that only says that it is not ready. -/
def notReady : Untrusted :=
  .object fun name => if name = "isReady" then .own (.boolean false) else .absent

/-- The one filter of a query answers the fragment. -/
def notReadyFilter : Unit → Filter := fun _ => { answer := .ok (some notReady) }

def filterContext : FilterContext where
  correlationId := "c1"
  allowedSeverity := .unknown
  reason := "Error: Query canceled"

/-- The fragment is well formed, does not deny and has neither messages nor issues, and the
query fails all the same. -/
theorem runQueryFilters_notReady :
    WellFormedFragment notReady ∧
      (∃ fragment, readFragment notReady = .ok fragment ∧ fragment.Passes .unknown) ∧
      (runQueryFilters filterContext notReadyFilter [()]).isSuccess = false := by
  have hread : readFragment notReady = .ok ⟨none, some false, none, none, none, none⟩ := rfl
  refine ⟨(exists_readFragment_iff notReady).1 ⟨_, hread⟩, ⟨_, hread, ?_⟩, rfl⟩
  refine ⟨by simp, rfl, ?_⟩
  intro issue hmem
  exact absurd hmem List.not_mem_nil

def deniedVerdict : Verdict where
  isAuthorized := false
  exceptionMessages := ["Error: No such account"]

/-- A command passes over the same fragment; merged into a denied verdict it leaves it denied,
and an array is no fragment. -/
theorem filterChains_neverWeaken_notReady :
    CameThrough .command filterContext notReadyFilter [()] ∧
      (deniedVerdict.merge ⟨none, some false, none, none, none, none⟩).succeeds = false ∧
      ∃ message, mergeFilterFragment deniedVerdict (.array []) = .error message :=
  ⟨((filterChains_neverWeaken.2.2 filterContext notReadyFilter [()]).command).1 rfl,
    ((filterChains_neverWeaken (τ := Unit)).1 deniedVerdict
      (deniedVerdict.merge ⟨none, some false, none, none, none, none⟩) notReady rfl).1 rfl,
    (filterChains_neverWeaken (τ := Unit)).2.1 deniedVerdict (.array []) id⟩

end Arc.Execution
