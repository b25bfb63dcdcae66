import Arc.Foundation.Leaves

/-!
# Coordinated shutdown of a service registry

`coordinatedShutdown` settles the phases of a shutdown in order and records what fails: an
error as it is when nothing in it has been reported, otherwise a new aggregate of what is new
in it. A task that is handed to a phase after that phase has been settled is no step of the
shutdown, and the resources have registered without an error.
-/

namespace Arc.DependencyInjection

open Arc.Member

variable {π ι : Type}

/-- How a step of the shutdown settles. -/
abbrev Settlement (π ι : Type) := Except (Member π ι) Unit

def Settlement.rejection : Settlement π ι → Option (Member π ι)
  | .ok () => none
  | .error error => some error

/-- A `stop` that throws rejects its promise, as does a `drain`. -/
structure ShutdownParticipant (π ι : Type) where
  stop : Settlement π ι
  drain : Settlement π ι

/-- The tasks of each phase in the batches they are settled in: a batch holds what was handed
over while the one before it settled. -/
structure ShutdownTransaction (π ι : Type) where
  release : List (List (Settlement π ι))
  work : List (List (Settlement π ι))
  scopes : List (List (Settlement π ι))

/-- What a shutdown closes: the scopes of the registry, its singletons and the services they
created. -/
structure Shutdown (π ι : Type) where
  transaction : ShutdownTransaction π ι
  participants : List (ShutdownParticipant π ι)
  scopes : List (Settlement π ι)
  singletons : Settlement π ι
  createdServices : Settlement π ι

/-! ### Recording -/

/-- An entry of the errors of the shutdown: an error that was thrown, or a new aggregate. -/
inductive Entry (π ι : Type)
  | error (thrown : Member π ι)
  | disposalFailed (unseen : List (Member π ι))
  deriving DecidableEq, Repr

def Entry.values : Entry π ι → List (Member π ι)
  | error thrown => [thrown]
  | disposalFailed unseen => unseen

structure Recorded (π ι : Type) where
  reported : Finset ι
  errors : List (Entry π ι)

def Recorded.initial : Recorded π ι := ⟨∅, []⟩

/-- What an object holds: the `errors` of an `AggregateError`. One without any counts as an
error of its own. -/
def membersOf (aggregate : ι → Option (List (Member π ι))) (object : ι) : List (Member π ι) :=
  (aggregate object).getD []

section Run

variable [Fintype ι] [DecidableEq ι] (aggregate : ι → Option (List (Member π ι)))

def record (state : Recorded π ι) (error : Member π ι) : Recorded π ι :=
  let unseen := collect (membersOf aggregate) state.reported false [error]
  { reported := unseen.reported
    errors :=
      if unseen.leaves.isEmpty then state.errors
      else state.errors ++
        [if unseen.repeated then .disposalFailed unseen.leaves else .error error] }

def recordRejected (state : Recorded π ι) : Settlement π ι → Recorded π ι
  | .ok () => state
  | .error error => record aggregate state error

def settleAll (state : Recorded π ι) (settlements : List (Settlement π ι)) : Recorded π ι :=
  settlements.foldl (recordRejected aggregate) state

def settle (state : Recorded π ι) (batches : List (List (Settlement π ι))) : Recorded π ι :=
  batches.foldl (settleAll aggregate) state

/-- The shutdown fulfils, or rejects with an aggregate of the entries. -/
def coordinatedShutdown (shutdown : Shutdown π ι) : Except (List (Entry π ι)) Unit :=
  let released := settle aggregate Recorded.initial shutdown.transaction.release
  let stopped := settleAll aggregate released (shutdown.participants.map (·.stop))
  let drained := settleAll aggregate stopped (shutdown.participants.map (·.drain))
  let worked := settle aggregate drained shutdown.transaction.work
  let settled := settle aggregate worked shutdown.transaction.scopes
  let unscoped := settleAll aggregate settled shutdown.scopes
  let closed := recordRejected aggregate unscoped shutdown.singletons
  let disposed := recordRejected aggregate closed shutdown.createdServices
  if disposed.errors.isEmpty then .ok () else .error disposed.errors

end Run

/-! ### The failures of a shutdown -/

namespace Shutdown

/-- The steps in the order they are recorded. -/
def steps (shutdown : Shutdown π ι) : List (Settlement π ι) :=
  shutdown.transaction.release.flatten ++ shutdown.participants.map (·.stop) ++
    shutdown.participants.map (·.drain) ++ shutdown.transaction.work.flatten ++
    shutdown.transaction.scopes.flatten ++ shutdown.scopes ++
    [shutdown.singletons, shutdown.createdServices]

def failures (shutdown : Shutdown π ι) : List (Member π ι) :=
  shutdown.steps.filterMap Settlement.rejection

end Shutdown

/-- Every failure is reported: the shutdown rejects exactly if a step failed, and the leaves of
its rejection hold those of every failure, each object once. -/
structure ReportsFailures (aggregate : ι → Option (List (Member π ι)))
    (failures : List (Member π ι)) (result : Except (List (Entry π ι)) Unit) : Prop where
  rejects : (∃ entries, result = .error entries) ↔ failures ≠ []
  leaves : ∀ entries, result = .error entries →
    ∃ leaves, Flattens (membersOf aggregate) (entries.flatMap Entry.values) leaves ∧
      (∀ error ∈ failures, ∀ leaf, LeafOf (membersOf aggregate) error leaf → leaf ∈ leaves) ∧
      (leaves.filterMap object?).Nodup

/-! ### What recording keeps -/

/-- The leaves found so far are those of the entries. -/
structure RecordLaw (members : ι → List (Member π ι)) (failures : List (Member π ι))
    (state : Recorded π ι) (found : List (Member π ι)) : Prop where
  closed : Closed members found state.reported []
  flat : Flattens members (state.errors.flatMap Entry.values) found
  covered : ∀ error ∈ failures, Covered found state.reported error
  sound : ∀ leaf ∈ found, ∃ error ∈ failures, LeafOf members error leaf
  nodup : (found.filterMap object?).Nodup
  met : ∀ object, reference object ∈ found → object ∈ state.reported
  filled : found = [] → state.errors = []

theorem RecordLaw.initial (members : ι → List (Member π ι)) :
    RecordLaw members [] Recorded.initial [] where
  closed := by simp [Closed, Recorded.initial]
  flat := Flattens.nil
  covered := by simp
  sound := by simp
  nodup := List.nodup_nil
  met := by simp
  filled := fun _ => rfl

section Keeps

variable [Fintype ι] [DecidableEq ι] {aggregate : ι → Option (List (Member π ι))}
  {failures found : List (Member π ι)} {state : Recorded π ι}

omit [Fintype ι] [DecidableEq ι] in
/-- The entry of an error has the leaves that are new in it. -/
theorem flattens_entry {reported : Finset ι} {error : Member π ι} {unseen : Collected π ι}
    (hlaw : CollectLaw (membersOf aggregate) reported false [error] unseen) :
    Flattens (membersOf aggregate)
      (Entry.values (if unseen.repeated then .disposalFailed unseen.leaves else .error error))
      unseen.leaves := by
  cases hrepeated : unseen.repeated with
  | true => exact flattens_self fun object hmem => (hlaw.fresh object hmem).2.2
  | false => exact (hlaw.flat hrepeated).2

theorem RecordLaw.record (h : RecordLaw (membersOf aggregate) failures state found)
    (error : Member π ι) :
    ∃ more, RecordLaw (membersOf aggregate) (failures ++ [error])
      (record aggregate state error) (found ++ more) := by
  have hlaw := collect_law (membersOf aggregate) state.reported false [error]
  unfold DependencyInjection.record
  generalize collect (membersOf aggregate) state.reported false [error] = unseen at hlaw ⊢
  have hpending : Closed (membersOf aggregate) found state.reported [error] := by
    intro object hmem
    obtain ⟨hleaf, hall⟩ := h.closed object hmem
    exact ⟨hleaf, fun member hmember =>
      .inl ((hall member hmember).resolve_right List.not_mem_nil)⟩
  obtain ⟨hclosed, hcovered⟩ := hlaw.closed found hpending
  refine ⟨unseen.leaves, {
    closed := hclosed
    flat := ?_
    covered := fun other hmem => ?_
    sound := fun leaf hmem => ?_
    nodup := ?_
    met := fun object hmem => ?_
    filled := fun hnone => ?_ }⟩
  · cases hleaves : unseen.leaves with
    | nil =>
        simpa [hleaves] using h.flat
    | cons leaf rest =>
        have hflat := h.flat.append (flattens_entry hlaw)
        simpa [hleaves] using hflat
  · rcases List.mem_append.1 hmem with hmem | hmem
    · exact (h.covered other hmem).mono (List.subset_append_left _ _) hlaw.grows
    · exact hcovered other hmem
  · rcases List.mem_append.1 hmem with hmem | hmem
    · obtain ⟨root, hroot, hleaf⟩ := h.sound leaf hmem
      exact ⟨root, List.mem_append_left _ hroot, hleaf⟩
    · obtain ⟨root, hroot, hleaf⟩ := hlaw.sound leaf hmem
      exact ⟨root, List.mem_append_right _ hroot, hleaf⟩
  · rw [List.filterMap_append]
    refine List.nodup_append.2 ⟨h.nodup, hlaw.nodup, fun object hmem other hother heq => ?_⟩
    subst heq
    exact (hlaw.fresh object (mem_filterMap_object?.1 hother)).1
      (h.met object (mem_filterMap_object?.1 hmem))
  · rcases List.mem_append.1 hmem with hmem | hmem
    · exact hlaw.grows (h.met object hmem)
    · exact (hlaw.fresh object hmem).2.1
  · obtain ⟨hfound, hnew⟩ := List.append_eq_nil_iff.1 hnone
    simp [hnew, h.filled hfound]

theorem RecordLaw.run (h : RecordLaw (membersOf aggregate) failures state found)
    (steps : List (Settlement π ι)) :
    ∃ more, RecordLaw (membersOf aggregate)
      (failures ++ steps.filterMap Settlement.rejection)
      (settleAll aggregate state steps) (found ++ more) := by
  induction steps generalizing failures state found with
  | nil => exact ⟨[], by simpa [settleAll] using h⟩
  | cons step rest ih =>
      cases step with
      | ok _ => exact ih h
      | error error =>
          obtain ⟨more, hmore⟩ := h.record error
          obtain ⟨later, hlater⟩ := ih hmore
          refine ⟨more ++ later, ?_⟩
          simpa [settleAll, recordRejected, Settlement.rejection] using hlater

theorem settle_eq_settleAll (state : Recorded π ι) (batches : List (List (Settlement π ι))) :
    settle aggregate state batches = settleAll aggregate state batches.flatten :=
  (List.foldl_flatten ..).symm

theorem settleAll_append (state : Recorded π ι) (steps later : List (Settlement π ι)) :
    settleAll aggregate state (steps ++ later) =
      settleAll aggregate (settleAll aggregate state steps) later :=
  List.foldl_append

/-- The phases record the failures of all steps one after the other. -/
theorem coordinatedShutdown_eq (shutdown : Shutdown π ι) :
    coordinatedShutdown aggregate shutdown =
      if (settleAll aggregate Recorded.initial shutdown.steps).errors.isEmpty then .ok ()
      else .error (settleAll aggregate Recorded.initial shutdown.steps).errors := by
  simp only [coordinatedShutdown, Shutdown.steps, settle_eq_settleAll, settleAll_append]
  rfl

end Keeps

/-- The shutdown reports every failure exactly if no step fails, or there is something to
report in a failure: an error that holds aggregates with members only, all leading back to
themselves, leaves no trace. -/
theorem coordinatedShutdown_reports_iff [Fintype ι] [DecidableEq ι]
    (aggregate : ι → Option (List (Member π ι))) (shutdown : Shutdown π ι) :
    ReportsFailures aggregate shutdown.failures (coordinatedShutdown aggregate shutdown) ↔
      shutdown.failures = [] ∨
        ∃ error ∈ shutdown.failures, ∃ leaf, LeafOf (membersOf aggregate) error leaf := by
  obtain ⟨found, hlaw⟩ := (RecordLaw.initial (membersOf aggregate)).run shutdown.steps
  rw [List.nil_append, List.nil_append] at hlaw
  change RecordLaw _ shutdown.failures _ found at hlaw
  rw [coordinatedShutdown_eq]
  generalize settleAll aggregate Recorded.initial shutdown.steps = state at hlaw ⊢
  cases herrors : state.errors with
  | nil =>
      have hfound : found = [] := by
        have hflat := hlaw.flat
        rw [herrors] at hflat
        cases hflat
        rfl
      constructor
      · intro hreports
        refine .inl (Classical.byContradiction fun hfailures => ?_)
        obtain ⟨entries, hrejects⟩ := hreports.rejects.2 hfailures
        simp at hrejects
      · rintro (hnone | ⟨error, hmem, leaf, hleaf⟩)
        · exact ⟨by simp [hnone], by simp⟩
        · have hin := mem_of_closed hlaw.closed (hlaw.covered error hmem) hleaf
          rw [hfound] at hin
          exact absurd hin List.not_mem_nil
  | cons entry rest =>
      have hsome : ∃ leaf, leaf ∈ found := by
        refine List.exists_mem_of_ne_nil _ fun hnone => ?_
        have hempty := hlaw.filled hnone
        rw [herrors] at hempty
        cases hempty
      obtain ⟨leaf, hleaf⟩ := hsome
      obtain ⟨error, hmem, hin⟩ := hlaw.sound leaf hleaf
      refine ⟨fun _ => .inr ⟨error, hmem, leaf, hin⟩, fun _ => {
        rejects := ?_
        leaves := fun entries hentries => ?_ }⟩
      · simpa using List.ne_nil_of_mem hmem
      · have heq : state.errors = entries := by
          rw [herrors]
          simpa using hentries
        subst heq
        exact ⟨found, hlaw.flat, fun other hother leaf hleaf =>
          mem_of_closed hlaw.closed (hlaw.covered other hother) hleaf, hlaw.nodup⟩

/-! ### An aggregate of itself -/

/-- One participant whose `stop` throws an aggregate that holds only itself. -/
def selfContained : Shutdown Unit Unit where
  transaction := ⟨[], [], []⟩
  participants := [⟨.error (reference ()), .ok ()⟩]
  scopes := []
  singletons := .ok ()
  createdServices := .ok ()

theorem coordinatedShutdown_selfContained :
    coordinatedShutdown (fun _ => some [reference ()]) selfContained = .ok () ∧
      ¬ ReportsFailures (fun _ => some [reference ()]) selfContained.failures
        (coordinatedShutdown (fun _ => some [reference ()]) selfContained) := by
  have hok : coordinatedShutdown (fun _ => some [reference ()]) selfContained = .ok () := by
    simp [coordinatedShutdown, selfContained, settle, settleAll, recordRejected, record,
      Recorded.initial, collect, membersOf]
  refine ⟨hok, fun hreports => ?_⟩
  rw [hok] at hreports
  obtain ⟨entries, hrejects⟩ := hreports.rejects.2
    (by simp [Shutdown.failures, Shutdown.steps, selfContained, Settlement.rejection])
  cases hrejects

end Arc.DependencyInjection
