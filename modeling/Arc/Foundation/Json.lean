import Mathlib.Data.Rat.Defs

/-!
# JSON values

The values `JSON.parse` builds: an object is the list of its fields in order.
Two such values print alike exactly when they are the same value, so the text
comparisons of the source are equalities here, decided by `Json.same`.
-/

namespace Arc

/-- A parsed JSON value. -/
inductive Json
  | null
  | bool (value : Bool)
  | number (value : ℚ)
  | string (value : String)
  | array (items : List Json)
  | object (fields : List (String × Json))

namespace Json

mutual

/-- Whether two values print alike. -/
def same : Json → Json → Bool
  | null, null => true
  | bool a, bool b => a == b
  | number a, number b => decide (a = b)
  | string a, string b => decide (a = b)
  | array a, array b => sameItems a b
  | object a, object b => sameFields a b
  | _, _ => false

def sameItems : List Json → List Json → Bool
  | [], [] => true
  | a :: as, b :: bs => same a b && sameItems as bs
  | _, _ => false

def sameFields : List (String × Json) → List (String × Json) → Bool
  | [], [] => true
  | (j, a) :: as, (k, b) :: bs => decide (j = k) && (same a b && sameFields as bs)
  | _, _ => false

end

mutual

theorem same_iff (a b : Json) : same a b = true ↔ a = b := by
  cases a <;> cases b <;> simp [same, sameItems_iff, sameFields_iff]

theorem sameItems_iff (as bs : List Json) : sameItems as bs = true ↔ as = bs := by
  cases as <;> cases bs <;> simp [sameItems, same_iff, sameItems_iff]

theorem sameFields_iff (as bs : List (String × Json)) : sameFields as bs = true ↔ as = bs := by
  rcases as with _ | ⟨⟨j, a⟩, as⟩ <;> rcases bs with _ | ⟨⟨k, b⟩, bs⟩ <;>
    simp [sameFields, same_iff, sameFields_iff, and_assoc]

end

instance : DecidableEq Json := fun a b => decidable_of_iff _ (same_iff a b)

end Json

end Arc
