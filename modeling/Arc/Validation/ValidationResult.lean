import Mathlib.Data.Nat.Notation

/-!
# Validation results

A validation issue is reported by a command, a query, a filter or a validator, and carries
one of four severities. What a severity above the allowed one means is decided where the
issues are collected, so `Severity.exceeds` is all that is said about the order here.
-/

namespace Arc.Validation

/-- Increasing severity of model validation results. -/
inductive Severity
  | unknown
  | information
  | warning
  | error
  deriving DecidableEq, Repr

namespace Severity

/-- The number behind the enumeration. -/
def value : Severity → ℕ
  | unknown => 0
  | information => 1
  | warning => 2
  | error => 3

/-- `severity > allowed` -/
def exceeds (severity allowed : Severity) : Bool :=
  allowed.value < severity.value

end Severity

/-- A validation issue; `σ` is the type of the custom state. -/
structure ValidationResult (σ : Type*) where
  severity : Severity
  message : String
  members : List String := []
  reason : String := "rule"
  reasonDetail : Option String := none
  state : Option σ := none
  deriving DecidableEq, Repr

end Arc.Validation
