import Mathlib.Data.Nat.Notation

/-!
# Results of queries

`queryResult` is the only constructor the pipeline uses: it derives the success
flag from the other fields and drops the data of everything that is not a
success. The type of the data and that of the validation issues are parameters;
no function below looks into them.
-/

namespace Arc.Queries

structure Paging where
  page : ℕ
  size : ℕ
  totalItems : ℕ
  totalPages : ℕ
  deriving DecidableEq, Repr

def emptyPaging : Paging where
  page := 0
  size := 0
  totalItems := 0
  totalPages := 0

/-- The answer to a query, or one answer of an observable query. -/
structure QueryResult (δ ν : Type*) where
  correlationId : String
  data : Option δ
  isReady : Bool
  isAuthorized : Bool
  validationResults : List ν
  exceptionMessages : List String
  exceptionStackTrace : String
  paging : Paging
  isValid : Bool
  hasExceptions : Bool
  isSuccess : Bool
  deriving DecidableEq, Repr

/-- The fields a caller of `queryResult` may state, with what an absent one means. -/
structure QueryResultValues (δ ν : Type*) where
  data : Option δ := none
  isReady : Bool := true
  isAuthorized : Bool := true
  validationResults : List ν := []
  exceptionMessages : List String := []
  exceptionStackTrace : String := ""
  paging : Paging := emptyPaging

variable {δ ν : Type*}

def QueryResultValues.succeeds (values : QueryResultValues δ ν) : Bool :=
  values.isReady && values.isAuthorized && values.validationResults.isEmpty &&
    values.exceptionMessages.isEmpty

def queryResult (correlationId : String) (values : QueryResultValues δ ν) : QueryResult δ ν where
  correlationId := correlationId
  data := if values.succeeds then values.data else none
  isReady := values.isReady
  isAuthorized := values.isAuthorized
  validationResults := values.validationResults
  exceptionMessages := values.exceptionMessages
  exceptionStackTrace := values.exceptionStackTrace
  paging := values.paging
  isValid := values.validationResults.isEmpty
  hasExceptions := !values.exceptionMessages.isEmpty
  isSuccess := values.succeeds

/-- The flags of a result say what its fields say. -/
structure QueryResult.WellFormed (result : QueryResult δ ν) : Prop where
  isValid : result.isValid = result.validationResults.isEmpty
  hasExceptions : result.hasExceptions = !result.exceptionMessages.isEmpty
  isSuccess : result.isSuccess =
    (result.isReady && result.isAuthorized && result.isValid && !result.hasExceptions)
  data : result.isSuccess = false → result.data = none

theorem queryResult_wellFormed (correlationId : String) (values : QueryResultValues δ ν) :
    (queryResult correlationId values).WellFormed where
  isValid := rfl
  hasExceptions := rfl
  isSuccess := by simp [queryResult, QueryResultValues.succeeds]
  data := by
    intro hfailed
    simp only [queryResult] at hfailed ⊢
    simp [hfailed]

end Arc.Queries
