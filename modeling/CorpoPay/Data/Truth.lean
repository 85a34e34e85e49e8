import Mathlib.Data.List.Basic

/-!
# Three-valued truth

A condition on a row with missing values is true, false or unknown (`none`). A row is selected when it is true.
-/

namespace CorpoPay.Data

abbrev Truth := Option Bool

namespace Truth

protected def and : Truth → Truth → Truth
  | some false, _ => some false
  | _, some false => some false
  | some true, some true => some true
  | _, _ => none

protected def not : Truth → Truth
  | some b => some (!b)
  | none => none

protected def or (a b : Truth) : Truth := (a.not.and b.not).not

/-- The conjunction of a list, true when it is empty. -/
def all (truths : List Truth) : Truth := truths.foldr Truth.and (some true)

/-- The disjunction of a list, false when it is empty. -/
def any (truths : List Truth) : Truth := truths.foldr Truth.or (some false)

theorem and_eq_true {a b : Truth} : a.and b = some true ↔ a = some true ∧ b = some true := by
  rcases a with _ | _ | _ <;> rcases b with _ | _ | _ <;> simp [Truth.and]

end Truth

end CorpoPay.Data
