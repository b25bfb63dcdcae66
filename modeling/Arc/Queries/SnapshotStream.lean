import Arc.Foundation.Search

/-!
# The rejected source of a snapshot

A failed snapshot query names its source in an error somewhere among the failures of the
pipeline: in the errors of an aggregate, or as the cause of another error. The search looks at
each failure once and to a depth of 32, so it ends on cyclic failures too. It never invents a
source, and finds one in every graph of at most 32 failures that leads to one.
-/

namespace Arc.Queries

/-- A failure that was thrown: an object is known by its identity. The failure of a pipeline with
several errors is an aggregate of its own. -/
inductive FailureValue
  | pipeline
  | object (id : ℕ)
  | primitive
  deriving DecidableEq, Repr

/-- What an object that was thrown is. -/
inductive FailureObject
  | snapshot (source : ℕ)
  | aggregate (errors : List FailureValue) (cause : FailureValue)
  | error (cause : FailureValue)
  | other
  deriving Repr

/-- The objects that were thrown, and the failures recorded for a result. -/
structure RecordedFailures where
  object : ℕ → FailureObject
  recorded : List FailureValue

namespace RecordedFailures

variable (failures : RecordedFailures)

def originalFailure : FailureValue :=
  match failures.recorded with
  | [error] => error
  | _ => .pipeline

/-- A look of `find` at a failure: what it leads to, the errors before the cause. -/
def look : FailureValue → Look FailureValue ℕ
  | .primitive => .stop
  | .pipeline => .next (failures.recorded ++ [.primitive])
  | .object id =>
      match failures.object id with
      | .snapshot source => .found source
      | .aggregate errors cause => .next (errors ++ [cause])
      | .error cause => .next [cause]
      | .other => .next []

def snapshotStreamSource : Option ℕ :=
  (Search.search failures.look 32 failures.originalFailure []).1

/-- The failure is the original one, among the errors of one, or the cause of one. -/
def Leads : FailureValue → Prop :=
  Search.Reaches failures.look failures.originalFailure

/-- A snapshot error with the source. -/
def Rejects (failure : FailureValue) (source : ℕ) : Prop :=
  ∃ id, failure = .object id ∧ failures.object id = .snapshot source

variable {failures}

theorem look_eq_found {failure : FailureValue} {source : ℕ} :
    failures.look failure = .found source ↔ failures.Rejects failure source := by
  cases failure with
  | pipeline => simp [look, Rejects]
  | primitive => simp [look, Rejects]
  | object id => cases hobject : failures.object id <;> simp [look, Rejects, hobject]

end RecordedFailures

/-- A source that is returned is that of a snapshot error among the failures. In every graph of at
most 32 failures, cyclic or shared, a source is returned exactly when there is such an error. -/
theorem snapshotStreamSource_iff (failures : RecordedFailures) :
    (∀ source, failures.snapshotStreamSource = some source →
      ∃ failure, failures.Leads failure ∧ failures.Rejects failure source) ∧
    ∀ graph : Finset FailureValue, graph.card ≤ 32 → failures.originalFailure ∈ graph →
      (∀ failure ∈ graph, ∀ leads, failures.look failure = .next leads →
        ∀ next ∈ leads, next ∈ graph) →
      (failures.snapshotStreamSource.isSome = true ↔
        ∃ failure source, failures.Leads failure ∧ failures.Rejects failure source) := by
  refine ⟨fun source hsource => ?_, fun graph hcard horiginal hgraph => ?_⟩
  · obtain ⟨failure, hleads, hfound⟩ := Search.search_sound hsource
    exact ⟨failure, hleads, RecordedFailures.look_eq_found.1 hfound⟩
  · refine (Search.search_isSome_iff hgraph horiginal hcard).trans ?_
    simp only [RecordedFailures.look_eq_found]
    rfl

/-- The cause of the aggregate leads back to it. -/
def cyclicObject : ℕ → FailureObject
  | 0 => .aggregate [.primitive, .object 1] (.object 0)
  | 1 => .error (.object 2)
  | 2 => .snapshot 7
  | _ => .other

theorem snapshotStreamSource_cyclic :
    let failures : RecordedFailures := ⟨cyclicObject, [.object 0]⟩
    failures.snapshotStreamSource.isSome = true ↔
      ∃ failure source, failures.Leads failure ∧ failures.Rejects failure source := by
  refine (snapshotStreamSource_iff _).2 {.primitive, .object 0, .object 1, .object 2} (by decide)
    (by decide) ?_
  intro failure hfailure leads hleads next hnext
  simp only [Finset.mem_insert, Finset.mem_singleton] at hfailure
  rcases hfailure with rfl | rfl | rfl | rfl
  · cases hleads
  · cases hleads
    revert next
    decide
  · cases hleads
    revert next
    decide
  · cases hleads

end Arc.Queries
