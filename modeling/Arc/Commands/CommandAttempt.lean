import Arc.Commands.ScopeCompletion

/-!
# Where a command stands before its scopes are completed

An attempt either has no journal, or it has failed with something said and kept, or
nothing was wrong up to the last operation. `Command.Untroubled` spells the last case
out on the inputs of the command, and `attempted_cases` is the case split every later
argument about a run starts with.
-/

namespace Arc.Commands

variable {ρ ν : Type*}

/-- An attempt that failed: the failure says something and is kept. -/
structure Attempt.Failed (reason : Thrown ν) (attempt : Attempt ρ ν) : Prop where
  isSuccess : attempt.result.isSuccess = false
  not_contentless : ¬ attempt.result.Contentless
  keeps : Keeps attempt.snapshot [attempt.result]
  entered : ∀ journal, attempt.journal = some journal → journal.Entered reason attempt.log
  log : attempt.journal = none → attempt.log = []

/-- An attempt whose operations have all succeeded. -/
structure Attempt.Succeeded (reason : Thrown ν) (planned : List (PlannedOperation ν))
    (attempt : Attempt ρ ν) : Prop where
  isSuccess : attempt.result.isSuccess = true
  contentless : attempt.result.Contentless
  keeps : Keeps attempt.snapshot [attempt.result]
  journal : ∃ journal, attempt.journal = some journal ∧ journal.planned = planned ∧
    journal.outcomes = (execute reason 0 false planned).outcomes
  log : attempt.log = (execute reason 0 false planned).log

theorem keeps_nil {snapshot : CommandFailureSnapshot ρ ν} (h : snapshot.original = none) :
    Keeps snapshot [] := h

namespace Command

variable {command : Command ρ ν} {planned : List (PlannedOperation ν)}

/-- Nothing is wrong with the command until its scopes are completed: its scopes begin, its
handler answers with operations and a response that is accepted, the scopes allow the
operations, and every one of them is executed. -/
structure Untroubled (command : Command ρ ν) (planned : List (PlannedOperation ν)) : Prop where
  dependencies : command.dependencies = none
  begins : ∀ scope ∈ command.scopes, scope.Begins
  provides : ∃ values, command.provide = .ok values ∧ (values.getD {}).succeeds = true
  responds : ∃ values, command.handled = .prepared values (some planned) ∧
    values.succeeds = true ∧
    ∃ response, (command.encodeResponse values.response).bind command.clientOutput = .ok response
  notAborted : command.aborted = false
  eligible : ∃ before, disposition (command.scopes.map (·.reportBefore)) = .ok before ∧
    before.eligible = true
  operates : command.abortedByReport = false ∧ ∀ operation ∈ planned, operation.Succeeds

/-- Where the command stands before its scopes are completed. -/
def attempted (command : Command ρ ν) : Attempt ρ ν :=
  command.attempt command.handle.1 command.handle.2

/-- A failure that is caught while nothing is kept yet is kept. -/
theorem caught_failed {standing : Standing ρ ν} {journal : Option (CommandOperationExecution ν)}
    {aborted : Bool} {source : CommandOperationFailureSource} {error reason : Thrown ν}
    {log : List CommandEvent} (hnone : standing.snapshot.original = none)
    (hentered : ∀ j, journal = some j → j.Entered reason log) (hlog : journal = none → log = []) :
    (caught standing journal aborted source error log).Failed reason where
  isSuccess := commandFailure_isSuccess _ _ _
  not_contentless := not_contentless_commandFailure _ _ _
  keeps := (keeps_nil hnone).capture
  entered := hentered
  log := hlog

/-- What `handle` returns is built by `commandResult`, and a journal comes untouched with a
prepared response. -/
theorem handle_response {response : Response ρ ν} (h : command.handle.2 = .ok response) :
    (response.result.isSuccess = true ↔ response.result.Contentless) ∧
      ∀ journal, response.journal = some journal →
        journal.outcomes = [] ∧ response.prepared = true := by
  have hrespond : command.respond = .ok response := by
    revert h
    unfold handle
    cases command.dependencies with
    | some error => exact fun h => (by cases h)
    | none =>
        simp only
        cases (beginScopes command.reason command.scopes.zipIdx).2 with
        | some error => exact fun h => (by cases h)
        | none => exact id
  revert hrespond
  unfold respond
  cases command.provide with
  | error error => exact fun h => (by cases h)
  | ok values =>
      simp only
      split_ifs
      · cases command.handled with
        | throws error => exact fun h => (by cases h)
        | completed values =>
            intro hok
            obtain rfl := Except.ok.inj hok
            exact ⟨commandResult_isSuccess_iff, fun _ hnone => (by cases hnone)⟩
        | prepared values operations =>
            intro hok
            obtain rfl := Except.ok.inj hok
            refine ⟨commandResult_isSuccess_iff, fun journal hjournal => ?_⟩
            obtain ⟨planned, -, rfl⟩ := Option.map_eq_some_iff.1 hjournal
            exact ⟨rfl, rfl⟩
        | failed operations error =>
            intro hok
            obtain rfl := Except.ok.inj hok
            refine ⟨commandResult_isSuccess_iff, fun journal hjournal => ?_⟩
            obtain ⟨planned, -, rfl⟩ := Option.map_eq_some_iff.1 hjournal
            exact ⟨rfl, rfl⟩
      · intro hok
        obtain rfl := Except.ok.inj hok
        exact ⟨commandResult_isSuccess_iff, fun _ hnone => (by cases hnone)⟩

/-- A response with operations that has not failed was prepared without trouble. -/
theorem handle_prepared {response : Response ρ ν} {journal : CommandOperationExecution ν}
    (h : command.handle.2 = .ok response) (hjournal : response.journal = some journal)
    (hfailure : response.failure = none) :
    command.dependencies = none ∧ (∀ scope ∈ command.scopes, scope.Begins) ∧
      (∃ values, command.provide = .ok values ∧ (values.getD {}).succeeds = true) ∧
      ∃ values, command.handled = .prepared values (some journal.planned) ∧
        response.result = commandResult command.correlationId values := by
  revert h
  unfold handle
  cases hdependencies : command.dependencies with
  | some error => exact fun h => (by cases h)
  | none =>
      simp only
      cases hbegin : (beginScopes command.reason command.scopes.zipIdx).2 with
      | some error => exact fun h => (by cases h)
      | none =>
          intro h
          have hbegins : ∀ scope ∈ command.scopes, scope.Begins := by
            intro scope hscope
            obtain ⟨k, hk⟩ := List.mem_iff_getElem?.1 hscope
            exact beginScopes_eq_none_iff.1 hbegin (scope, k)
              (List.mem_zipIdx_iff_getElem?.2 hk)
          refine ⟨trivial, hbegins, ?_⟩
          revert h
          unfold respond
          cases hprovide : command.provide with
          | error error => exact fun h => (by cases h)
          | ok provided =>
              simp only
              split_ifs with hsuccess
              · cases hhandled : command.handled with
                | throws error => exact fun h => (by cases h)
                | completed values =>
                    intro hok
                    obtain rfl := Except.ok.inj hok
                    cases hjournal
                | prepared values operations =>
                    intro hok
                    obtain rfl := Except.ok.inj hok
                    obtain ⟨planned, rfl, rfl⟩ := Option.map_eq_some_iff.1 hjournal
                    exact ⟨⟨provided, by simp, hsuccess⟩, _, rfl, rfl⟩
                | failed operations error =>
                    intro hok
                    obtain rfl := Except.ok.inj hok
                    cases hfailure
              · intro hok
                obtain rfl := Except.ok.inj hok
                cases hjournal

/-- The scopes of a command whose response was prepared have all begun. -/
theorem handle_begun (hdependencies : command.dependencies = none)
    (hbegins : ∀ scope ∈ command.scopes, scope.Begins) :
    command.handle = (command.scopes.zipIdx, command.respond) := by
  have hpairs : ∀ scope ∈ command.scopes.zipIdx, scope.1.Begins := fun scope hscope =>
    hbegins scope.1 (List.fst_mem_of_mem_zipIdx hscope)
  simp [handle, hdependencies, beginScopes_of_begins hpairs]

/-- Encoding leaves what a result says. -/
theorem encoded_says {result encoded : CommandResult ρ ν}
    (h : command.encoded result = .ok encoded) :
    encoded.isSuccess = result.isSuccess ∧ (encoded.Contentless ↔ result.Contentless) ∧
      (result.isSuccess = true → ∃ response,
        (command.encodeResponse result.response).bind command.clientOutput = .ok response) := by
  unfold Command.encoded at h
  split_ifs at h with hsuccess
  · cases hconverted : (command.encodeResponse result.response).bind command.clientOutput with
    | error error => simp [hconverted] at h
    | ok response =>
        simp only [hconverted, Except.ok.injEq] at h
        subst h
        exact ⟨rfl, ⟨fun h => ⟨h.1, h.2, h.3⟩, fun h => ⟨h.1, h.2, h.3⟩⟩, fun _ => ⟨response, rfl⟩⟩
  · obtain rfl := Except.ok.inj h
    exact ⟨rfl, Iff.rfl, fun h => absurd h hsuccess⟩

/-- The operations of a journal were entered from a standing that they leave alone, and
every one of them was executed. -/
structure Operated (command : Command ρ ν) (begun : List (CommandExecutionScope ρ ν × ℕ))
    (planned : List (PlannedOperation ν)) (standing : Standing ρ ν) (attempt : Attempt ρ ν) :
    Prop where
  toStanding : attempt.toStanding = standing
  journal : ∃ journal, attempt.journal = some journal ∧ journal.planned = planned ∧
    journal.outcomes = (execute command.reason 0 false planned).outcomes
  log : attempt.log = (execute command.reason 0 false planned).log
  notAborted : command.aborted = false
  eligible : ∃ before, disposition (begun.map (·.1.reportBefore)) = .ok before ∧
    before.eligible = true
  operates : command.abortedByReport = false ∧ ∀ operation ∈ planned, operation.Succeeds

section Start

variable {begun : List (CommandExecutionScope ρ ν × ℕ)} {journal : CommandOperationExecution ν}

theorem operate_cases {standing : Standing ρ ν} (hnone : standing.snapshot.original = none)
    (hfresh : journal.outcomes = []) :
    (command.operate begun journal standing).Failed command.reason ∨
      command.Operated begun journal.planned standing (command.operate begun journal standing) := by
  have hrefused : ∀ aborted error, (caught standing (some journal) aborted .responseHandling
      error []).Failed command.reason := fun aborted error =>
    caught_failed hnone
      (fun j hj => Option.some.inj hj ▸ CommandOperationExecution.entered_nil hfresh)
      fun _ => rfl
  unfold operate
  split_ifs with haborted
  · exact Or.inl (hrefused _ _)
  · cases hdisposition : disposition (begun.map (·.1.reportBefore)) with
    | error error => exact Or.inl (hrefused _ _)
    | ok before =>
        simp only
        split_ifs with heligible
        · cases hthrown :
            (execute command.reason 0 command.abortedByReport journal.planned).thrown with
          | some error =>
              exact Or.inl (caught_failed hnone
                (fun j hj => Option.some.inj hj ▸ ⟨command.abortedByReport, rfl, rfl⟩)
                fun h => nomatch h)
          | none =>
              obtain ⟨hreport, hsucceeds⟩ := (execute_thrown_eq_none_iff command.reason).1 hthrown
              rw [hreport]
              exact Or.inr ⟨rfl, ⟨_, rfl, rfl, rfl⟩, rfl, Bool.eq_false_iff.2 haborted,
                ⟨before, hdisposition, heligible⟩, hreport, hsucceeds⟩
        · exact Or.inl (hrefused _ _)

/-- With a journal at hand, the operations are entered only from a success. -/
theorem start_cases {snapshot : CommandFailureSnapshot ρ ν} {result : CommandResult ρ ν}
    (hnone : snapshot.original = none) (hfresh : journal.outcomes = [])
    (hsound : result.isSuccess = true ↔ result.Contentless) :
    (command.start begun (some journal) ⟨snapshot.capture result, result⟩).Failed
        command.reason ∨
      (result.isSuccess = true ∧ command.Operated begun journal.planned ⟨snapshot, result⟩
        (command.start begun (some journal) ⟨snapshot.capture result, result⟩)) := by
  have hkeeps : Keeps (snapshot.capture result) [result] := (keeps_nil hnone).capture
  simp only [start]
  split_ifs with hsuccess
  · rw [CommandFailureSnapshot.capture_of_success hsuccess]
    exact (operate_cases hnone hfresh).imp_right fun h => ⟨hsuccess, h⟩
  · refine Or.inl ⟨Bool.eq_false_iff.2 hsuccess, fun h => hsuccess (hsound.2 h), hkeeps, ?_,
      fun h => nomatch h⟩
    intro j hj
    obtain rfl := Option.some.inj hj
    exact CommandOperationExecution.entered_nil hfresh

end Start

/-- An attempt has no journal, or has failed, or is untroubled. -/
theorem attempted_cases (command : Command ρ ν) :
    (command.attempted.journal = none ∧ command.attempted.log = []) ∨
      command.attempted.Failed command.reason ∨
      ∃ planned, command.Untroubled planned ∧
        command.attempted.Succeeded command.reason planned := by
  unfold attempted attempt
  cases hhandled : command.handle.2 with
  | error error =>
      exact Or.inr (Or.inl (caught_failed rfl (fun _ h => nomatch h) fun _ => rfl))
  | ok response =>
      obtain ⟨hsound, hfresh⟩ := handle_response hhandled
      have hcaught : ∀ error, (caught ⟨⟨command.correlationId, none⟩, response.result⟩
          response.journal command.aborted .responseHandling error []).Failed command.reason :=
        fun error => caught_failed rfl
          (fun j hj => CommandOperationExecution.entered_nil (hfresh j hj).1) fun _ => rfl
      simp only
      cases hfailure : response.failure with
      | some error => exact Or.inr (Or.inl (hcaught error))
      | none =>
          simp only
          split_ifs with hprepared
          · cases hencoded : command.encoded response.result with
            | error error => exact Or.inr (Or.inl (hcaught error))
            | ok result =>
                cases hjournal : response.journal with
                | none => exact Or.inl ⟨rfl, rfl⟩
                | some journal =>
                    obtain ⟨hsame, hcontentless, hconverted⟩ := encoded_says hencoded
                    have hsound' : result.isSuccess = true ↔ result.Contentless := by
                      rw [hsame, hcontentless]
                      exact hsound
                    obtain ⟨hdependencies, hbegins, hprovides, values, hvalues, hbuilt⟩ :=
                      handle_prepared hhandled hjournal hfailure
                    rw [handle_begun hdependencies hbegins]
                    refine Or.inr ((start_cases rfl (hfresh journal hjournal).1 hsound').imp_right ?_)
                    rintro ⟨hsuccess, hoperated⟩
                    have hresponse : response.result.isSuccess = true := hsame ▸ hsuccess
                    refine ⟨journal.planned, ⟨hdependencies, hbegins, hprovides,
                      ⟨values, hvalues, ?_, ?_⟩, hoperated.notAborted, ?_, hoperated.operates⟩, ?_⟩
                    · rw [hbuilt] at hresponse
                      exact hresponse
                    · have hanswer := commandResult_response (hbuilt ▸ hresponse)
                      rw [← hanswer, ← hbuilt]
                      exact hconverted hresponse
                    · have hreports := hoperated.eligible
                      rwa [← List.zipIdx_map_fst 0 command.scopes, List.map_map]
                    · refine ⟨?_, ?_, ?_, hoperated.journal, hoperated.log⟩
                      · rw [hoperated.toStanding]
                        exact hsuccess
                      · rw [hoperated.toStanding]
                        exact hsound'.1 hsuccess
                      · rw [hoperated.toStanding]
                        exact (keeps_nil rfl).concat fun _ => hsuccess
          · cases hjournal : response.journal with
            | none => exact Or.inl ⟨rfl, rfl⟩
            | some journal => exact absurd (hfresh journal hjournal).2 hprepared

theorem Untroubled.isSuccess (h : command.Untroubled planned) :
    command.attempted.result.isSuccess = true ∧
      command.attempted.journal.map (·.planned) = some planned := by
  obtain ⟨provided, hprovide, hprovides⟩ := h.provides
  obtain ⟨values, hhandled, hsucceeds, response, hresponse⟩ := h.responds
  obtain ⟨before, hdisposition, heligible⟩ := h.eligible
  obtain ⟨hreport, hoperations⟩ := h.operates
  have hreports : disposition (command.scopes.zipIdx.map (·.1.reportBefore)) = .ok before := by
    rw [← hdisposition, ← List.zipIdx_map_fst 0 command.scopes, List.map_map,
      List.zipIdx_map_fst 0 command.scopes]
    rfl
  have hexecute : (execute command.reason 0 false planned).thrown = none :=
    (execute_thrown_eq_none_iff command.reason).2 ⟨rfl, hoperations⟩
  have hrespond : command.respond = .ok
      { result := commandResult command.correlationId values,
        journal := some { planned := planned }, prepared := true } := by
    have hprovided : (commandResult command.correlationId (provided.getD {})).isSuccess = true :=
      hprovides
    simp [respond, hprovide, hprovided, hhandled]
  have hresult : (commandResult command.correlationId values).isSuccess = true := hsucceeds
  have hencoded : command.encoded (commandResult command.correlationId values) = .ok
      { commandResult command.correlationId values with response := response } := by
    rw [encoded, if_pos hresult, commandResult_response hresult, hresponse]
  rw [attempted, handle_begun h.dependencies h.begins, hrespond]
  simp [attempt, hencoded, start, hresult, CommandFailureSnapshot.capture, operate,
    h.notAborted, hreports, heligible, hreport, hexecute]

/-- A command that is untroubled up to its scopes stands as expected there. -/
theorem Untroubled.succeeded (h : command.Untroubled planned) :
    command.attempted.Succeeded command.reason planned := by
  obtain ⟨hsuccess, hjournal⟩ := h.isSuccess
  rcases command.attempted_cases with ⟨hnone, -⟩ | hfailed | ⟨planned', -, hsucceeded⟩
  · simp [hnone] at hjournal
  · rw [hfailed.isSuccess] at hsuccess
    exact absurd hsuccess (by decide)
  · obtain ⟨journal, hsome, hplanned, -⟩ := hsucceeded.journal
    obtain rfl : planned' = planned := by simpa [hsome, hplanned] using hjournal
    exact hsucceeded

/-- Before the scopes are completed, operations are entered and executed. -/
theorem mem_attempted_log {event : CommandEvent} (h : event ∈ command.attempted.log) :
    ∃ index, event = .entered index ∨ event = .executed index := by
  rcases command.attempted_cases with ⟨-, hlog⟩ | hfailed | ⟨planned, -, hsucceeded⟩
  · rw [hlog] at h
    simp at h
  · cases hjournal : command.attempted.journal with
    | none =>
        rw [hfailed.log hjournal] at h
        simp at h
    | some journal =>
        obtain ⟨aborted, -, hlog⟩ := hfailed.entered journal hjournal
        rw [hlog] at h
        exact mem_execute_log command.reason h
  · rw [hsucceeded.log] at h
    exact mem_execute_log command.reason h

/-- With a journal, the failure of an attempt is kept. -/
theorem attempted_keeps {journal : CommandOperationExecution ν}
    (hjournal : command.attempted.journal = some journal) :
    Keeps command.attempted.snapshot [command.attempted.result] := by
  rcases command.attempted_cases with ⟨hnone, -⟩ | hfailed | ⟨planned, -, hsucceeded⟩
  · exact nomatch hnone.symm.trans hjournal
  · exact hfailed.keeps
  · exact hsucceeded.keeps

theorem attempted_log_filterMap (command : Command ρ ν) {f : CommandEvent → Option ℕ}
    (hentered : ∀ index, f (.entered index) = none)
    (hexecuted : ∀ index, f (.executed index) = none) :
    command.attempted.log.filterMap f = [] := by
  refine List.filterMap_eq_nil_iff.2 fun event hevent => ?_
  rcases mem_attempted_log hevent with ⟨index, rfl | rfl⟩
  · exact hentered index
  · exact hexecuted index

/-- The journal of an attempt comes from one execution of its plan. -/
theorem attempted_entered {journal : CommandOperationExecution ν}
    (hjournal : command.attempted.journal = some journal) :
    journal.Entered command.reason command.attempted.log := by
  rcases command.attempted_cases with ⟨hnone, -⟩ | hfailed | ⟨planned, -, hsucceeded⟩
  · exact nomatch hnone.symm.trans hjournal
  · exact hfailed.entered journal hjournal
  · obtain ⟨same, hsame, rfl, houtcomes⟩ := hsucceeded.journal
    obtain rfl : same = journal := Option.some.inj (hsame.symm.trans hjournal)
    exact ⟨false, houtcomes, hsucceeded.log⟩

end Command

end Arc.Commands
