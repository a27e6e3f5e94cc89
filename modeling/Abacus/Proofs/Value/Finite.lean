import Abacus.Proofs.Number.Finite
import Abacus.Value.Basic

/-!
# Finite values

Every value that is read from a numeral is finite, and a finite value stays finite as a double.
-/

namespace Abacus

namespace Value

/-- A value that is neither infinite nor undefined. -/
def IsFinite : Value → Prop
  | .integer _ => True
  | .decimal x => x.isFinite = true

variable {v : Value} {x : Float}

theorem isFinite_zero : zero.IsFinite :=
  trivial

theorem isFinite_toFloat (h : v.IsFinite) : v.toFloat.isFinite = true := by
  cases v with
  | integer n => exact Binary64.isFinite_ofInt n
  | decimal x => exact h

theorem isFinite_ofFloat (h : x.isFinite = true) : (ofFloat x).IsFinite := by
  unfold ofFloat
  split
  · trivial
  · exact h

theorem isFinite_of_ofNumeral? {negative : Bool} {numeral : Numeral}
    (h : ofNumeral? negative numeral = some v) : v.IsFinite := by
  unfold ofNumeral? at h
  by_cases hdigits : numeral.hasDigits = true
  swap
  · rw [if_neg hdigits] at h
    cases h
  rw [if_pos hdigits] at h
  extract_lets integer? x at h
  cases hinteger : integer? with
  | some i =>
      rw [hinteger] at h
      cases h
      trivial
  | none =>
      rw [hinteger] at h
      by_cases hfinite : x.isFinite = true
      · cases negative <;> cases (if_pos hfinite).symm.trans h
        · exact hfinite
        · exact Binary64.isFinite_neg hfinite
      · cases (if_neg hfinite).symm.trans h

end Value

end Abacus
