import Arc.Validation.ModelGraphValidator

/-!
# What a validated graph gives

The results of a walk are those of the visited objects in preorder. An object that is first
met through an ignoring member is visited there, and its validator is not evaluated at all:
`validatesGraph_iff` says that this is all that goes wrong.
-/

namespace Arc.Validation.ModelGraphValidator

variable {π ι τ φ σ ν : Type} (validator : ModelGraphValidator π ι τ φ σ ν)

/-! ### What is to be found in the results -/

def throws (object : ι) (path : String) (rule : Rule ι φ σ ν) : Bool :=
  match validator.checkRule object path rule with
  | .error _ => true
  | .ok _ => false

def resultOf (object : ι) (path : String) (rule : Rule ι φ σ ν) : Option (ValidationResult σ) :=
  match validator.checkRule object path rule with
  | .error _ => none
  | .ok result => result

/-- The results of a validator: those of its rules, or one for all of them if one throws. -/
def ownResults (object : ι) (path : String) (rules : List (Rule ι φ σ ν)) :
    List (ValidationResult σ) :=
  if rules.any (validator.throws object path) then [validatorFailed]
  else rules.filterMap (validator.resultOf object path)

/-- The object whose validator a visit evaluates. -/
def evaluatedAt (visit : Visit π ι) : Option ι :=
  visit.value.object?.filter fun object => (validator.validatorAt visit object).isSome

def resultsAt (visit : Visit π ι) : List (ValidationResult σ) :=
  match visit.value.object? with
  | none => []
  | some object =>
      match validator.validatorAt visit object with
      | none => []
      | some found => validator.ownResults object visit.path found.rules

/-- The objects of a model as they are walked. -/
def objectWalk : Walk (Visit π ι) ι where
  object? := fun visit => visit.value.object?
  next := fun visit =>
    match visit.value.object? with
    | none => []
    | some object => validator.children visit object

section Spec

variable [DecidableEq ι] (model : Member π ι) (rootPath : String)

def rootVisit : Visit π ι := { value := model, path := rootPath }

/-- Some path without an ignoring member leads to the object. -/
def ReachedUnignored (object : ι) : Prop :=
  ∃ visit, validator.objectWalk.Reaches (rootVisit model rootPath) visit ∧
    visit.value.object? = some object ∧ visit.skip = false

/-- In preorder, the object is first met through an ignoring member. -/
def FirstMetIgnored (object : ι) : Prop :=
  ∃ visits final, validator.objectWalk.Preorder ∅ [rootVisit model rootPath] visits final ∧
    ∃ visit ∈ visits, visit.value.object? = some object ∧ visit.skip = true

/-- Every object that some path reaches without an ignoring member has its validator evaluated
once, and the results are those of the objects in preorder, each with the path it is first
reached by. -/
structure ValidatesGraph (progress : Progress ι σ) : Prop where
  once : ∀ object, (validator.validators (validator.graph.type object)).isSome →
    validator.ReachedUnignored model rootPath object → progress.evaluated.count object = 1
  preorder : ∃ visits final,
    validator.objectWalk.Preorder ∅ [rootVisit model rootPath] visits final ∧
      progress.results = visits.flatMap validator.resultsAt ∧
      progress.evaluated = visits.filterMap validator.evaluatedAt

end Spec

/-! ### Rules -/

variable {validator}

variable (validator) in
/-- The results of the rules are added to those before, all of them if none throws. -/
theorem evaluateRules_eq (object : ι) (path : String) (rules : List (Rule ι φ σ ν))
    (results : List (ValidationResult σ)) :
    ∃ more, validator.evaluateRules object path rules results =
        (results ++ more, rules.any (validator.throws object path)) ∧
      (rules.any (validator.throws object path) = false →
        more = rules.filterMap (validator.resultOf object path)) := by
  induction rules generalizing results with
  | nil => exact ⟨[], by simp [evaluateRules]⟩
  | cons rule rules ih =>
      cases hcheck : validator.checkRule object path rule with
      | error _ => exact ⟨[], by simp [evaluateRules, throws, hcheck]⟩
      | ok result =>
          have hthrows : validator.throws object path rule = false := by simp [throws, hcheck]
          cases result with
          | none =>
              obtain ⟨more, heq, hmore⟩ := ih results
              refine ⟨more, ?_, fun hnone => ?_⟩
              · simp [evaluateRules, hcheck, heq, hthrows]
              · simpa [resultOf, hcheck] using hmore (by simpa [hthrows] using hnone)
          | some result =>
              obtain ⟨more, heq, hmore⟩ := ih (results ++ [result])
              refine ⟨result :: more, ?_, fun hnone => ?_⟩
              · simp [evaluateRules, hcheck, heq, hthrows]
              · simpa [resultOf, hcheck] using hmore (by simpa [hthrows] using hnone)

theorem evaluate_eq (object : ι) (path : String) (rules : List (Rule ι φ σ ν))
    (results : List (ValidationResult σ)) :
    validator.evaluate object path rules results =
      results ++ validator.ownResults object path rules := by
  obtain ⟨more, heq, hmore⟩ := evaluateRules_eq validator object path rules results
  unfold evaluate ownResults
  rw [heq]
  cases hany : rules.any (validator.throws object path) with
  | true => simp
  | false => simp [hmore hany]

/-! ### The walk -/

/-- What a visit adds. -/
theorem evaluateAt_eq (progress : Progress ι σ) {visit : Visit π ι} {object : ι}
    (hobject : visit.value.object? = some object) :
    validator.evaluateAt progress visit object =
      { results := progress.results ++ validator.resultsAt visit
        evaluated := progress.evaluated ++ (validator.evaluatedAt visit).toList } := by
  unfold evaluateAt resultsAt evaluatedAt
  rw [hobject]
  cases hfound : validator.validatorAt visit object with
  | none => simp [Option.filter, hfound]
  | some found => simp [Option.filter, hfound, evaluate_eq]

/-- The results of a walk are those of its visits. -/
theorem walk_eq [Fintype ι] [DecidableEq ι] (visited : Finset ι) (progress : Progress ι σ)
    (pending : List (Visit π ι)) :
    validator.walk visited progress pending =
      { results := progress.results ++
          (validator.objectWalk.visits visited pending).flatMap validator.resultsAt
        evaluated := progress.evaluated ++
          (validator.objectWalk.visits visited pending).filterMap validator.evaluatedAt } := by
  fun_induction walk validator visited progress pending with
  | case1 visited progress => simp [Walk.visits]
  | case2 visited progress visit pending hplain ih =>
      rw [ih, Walk.visits]
      simp [objectWalk, hplain]
  | case3 visited progress visit pending object hobject hmet ih =>
      rw [ih, Walk.visits]
      simp [objectWalk, hobject, hmet]
  | case4 visited progress visit pending object hobject hnew ih =>
      have hnext : validator.objectWalk.next visit = validator.children visit object := by
        simp [objectWalk, hobject]
      have hvisits : validator.objectWalk.visits visited (visit :: pending) = _ :=
        validator.objectWalk.visits_first hobject hnew
      rw [hnext] at hvisits
      rw [ih, evaluateAt_eq progress hobject, hvisits]
      cases hevaluated : validator.evaluatedAt visit with
      | none => simp [hevaluated]
      | some _ => simp [hevaluated]

theorem objectWalk_congr (visit other : Visit π ι)
    (h : validator.objectWalk.object? visit = validator.objectWalk.object? other) :
    (validator.objectWalk.next visit).map validator.objectWalk.object? =
      (validator.objectWalk.next other).map validator.objectWalk.object? := by
  change visit.value.object? = other.value.object? at h
  simp only [objectWalk]
  rw [h]
  cases other.value.object? with
  | none => rfl
  | some object =>
      simp only [children]
      cases validator.graph.shape object with
      | concept value => rfl
      | array items => simp [Function.comp_def]
      | instance' => simp [Function.comp_def]

theorem nodup_evaluated {visits : List (Visit π ι)}
    (h : (validator.objectWalk.objects visits).Nodup) :
    (visits.filterMap validator.evaluatedAt).Nodup := by
  refine h.sublist ?_
  induction visits with
  | nil => exact List.Sublist.slnil
  | cons visit rest ih =>
      rw [List.filterMap_cons]
      cases hobject : visit.value.object? with
      | none =>
          have hnone : validator.evaluatedAt visit = none := by simp [evaluatedAt, hobject]
          have hplain : validator.objectWalk.object? visit = none := hobject
          rw [hnone, Walk.objects, List.filterMap_cons_none hplain]
          exact ih (h.sublist ((List.sublist_cons_self visit rest).filterMap _))
      | some object =>
          rw [Walk.objects_cons hobject] at h ⊢
          cases hevaluated : validator.evaluatedAt visit with
          | none => exact (ih (List.nodup_cons.1 h).2).cons _
          | some other =>
              rw [evaluatedAt, Option.filter_eq_some_iff, hobject] at hevaluated
              cases hevaluated.1
              exact (ih (List.nodup_cons.1 h).2).cons_cons _

/-- The validator of an object is evaluated at the visit that does not ignore it. -/
theorem mem_evaluated_iff {visits : List (Visit π ι)} {object : ι}
    (hvalidated : (validator.validators (validator.graph.type object)).isSome) :
    object ∈ visits.filterMap validator.evaluatedAt ↔
      ∃ visit ∈ visits, visit.value.object? = some object ∧ visit.skip = false := by
  rw [List.mem_filterMap]
  refine exists_congr fun visit => and_congr_right fun _ => ?_
  rw [evaluatedAt, Option.filter_eq_some_iff]
  refine and_congr_right fun _ => ?_
  cases hskip : visit.skip with
  | true => simp [validatorAt, hskip]
  | false => simp [validatorAt, hskip, hvalidated]

/-- Validating a graph keeps its promises exactly if no object that has a validator, and that
some path reaches without an ignoring member, is first met through an ignoring one. -/
theorem validatesGraph_iff [Fintype ι] [DecidableEq ι]
    (validator : ModelGraphValidator π ι τ φ σ ν) (model : Member π ι) (rootPath : String) :
    validator.ValidatesGraph model rootPath (validator.validate model rootPath) ↔
      ∀ object, (validator.validators (validator.graph.type object)).isSome →
        validator.ReachedUnignored model rootPath object →
          ¬ validator.FirstMetIgnored model rootPath object := by
  have hlaw := validator.objectWalk.visit_law ∅ [rootVisit model rootPath]
  obtain ⟨final, hpreorder⟩ := validator.objectWalk.preorder_visits ∅ [rootVisit model rootPath]
  have hcovers : ∀ object, validator.ReachedUnignored model rootPath object →
      object ∈ validator.objectWalk.objects
        (validator.objectWalk.visits ∅ [rootVisit model rootPath]) := by
    rintro object ⟨visit, hreaches, hobject, -⟩
    exact Walk.mem_objects_of_reaches objectWalk_congr List.mem_cons_self hreaches hobject
  change validator.ValidatesGraph model rootPath
    (validator.walk ∅ {} [rootVisit model rootPath]) ↔ _
  rw [walk_eq]
  simp only [List.nil_append]
  generalize validator.objectWalk.visits ∅ [rootVisit model rootPath] = visits at *
  constructor
  · rintro hvalidates object hvalidated hreached ⟨others, last, hothers, visit, hmem, hobject,
      hskip⟩
    obtain ⟨rfl, -⟩ := hpreorder.unique hothers
    have hcount : (visits.filterMap validator.evaluatedAt).count object = 1 :=
      hvalidates.once object hvalidated hreached
    have hevaluated : object ∈ visits.filterMap validator.evaluatedAt :=
      List.count_pos_iff.1 (by omega)
    obtain ⟨first, hfirst, hsame, hunskipped⟩ := (mem_evaluated_iff hvalidated).1 hevaluated
    have heq : first = visit := Walk.eq_of_object_eq hlaw.nodup hfirst hmem hsame hobject
    rw [heq, hskip] at hunskipped
    cases hunskipped
  · intro hnever
    refine ⟨fun object hvalidated hreached => ?_, visits, final, hpreorder, rfl, rfl⟩
    obtain ⟨visit, hmem, hobject⟩ := Walk.mem_objects.1 (hcovers object hreached)
    have hskip : visit.skip = false := by
      cases hskip : visit.skip with
      | false => rfl
      | true =>
          exact absurd ⟨visits, final, hpreorder, visit, hmem, hobject, hskip⟩
            (hnever object hvalidated hreached)
    exact List.count_eq_one_of_mem (nodup_evaluated hlaw.nodup)
      ((mem_evaluated_iff hvalidated).2 ⟨visit, hmem, hobject, hskip⟩)

/-! ### A concept that two members share -/

/-- A transfer whose two members are the same account, of which the first one's concept rules
are ignored; no account is valid. -/
def transferValidator : ModelGraphValidator Unit Bool Bool Unit Unit Unit where
  graph :=
    { undefined := ()
      nullish := fun _ => true
      type := id
      shape := fun account => if account then .concept (.primitive ()) else .instance'
      property := fun _ _ => .reference true
      fieldsFor := fun account => if account then [] else ["source", "target"] }
  validators := fun account =>
    if account then
      some { rules := [{ identity := 0, path := [], kind := "notEmpty", args := [],
                         clientSafe := true }] }
    else some { rules := [], ignoredConceptRules := ["source"] }
  calls :=
    { evaluateRule := fun _ _ _ => .ok false
      message := fun _ _ _ => .ok ""
      state := fun _ _ => .ok none }

theorem transferValidator_skips_account :
    transferValidator.validate (.reference false) "" = { results := [], evaluated := [false] } ∧
      ¬ transferValidator.ValidatesGraph (.reference false) ""
        (transferValidator.validate (.reference false) "") := by
  have hvalidate : transferValidator.validate (.reference false) "" =
      { results := [], evaluated := [false] } := by
    simp [validate, walk, Member.object?, transferValidator, evaluateAt, validatorAt, evaluate,
      evaluateRules, children, ignored, ObjectGraph.isConcept]
  refine ⟨hvalidate, fun hvalidates => ?_⟩
  have hreached : transferValidator.ReachedUnignored (.reference false) "" true := by
    refine ⟨{ value := .reference true, path := joinPath ["", "target"] }, ?_, rfl, rfl⟩
    refine Relation.ReflTransGen.single ⟨rfl, ?_⟩
    simp [objectWalk, rootVisit, Member.object?, children, transferValidator, ignored, validatorAt,
      ObjectGraph.isConcept]
  have hcount := hvalidates.once true rfl hreached
  rw [hvalidate] at hcount
  simp at hcount

end Arc.Validation.ModelGraphValidator
