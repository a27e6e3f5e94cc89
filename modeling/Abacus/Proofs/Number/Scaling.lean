import Abacus.Proofs.Number.Packing
import Abacus.Value.Json

/-!
# Scaling doubles

A finite double that is scaled by powers of ten is finite, unless it becomes too large and is
refused. The powers of ten are normal numbers, whose significands have all their digits, so that
dividing by them makes no number greater.
-/

namespace Abacus.Binary64

open Float.Model (UnpackedFloat totalExponent)
open Float.Model.UnpackedFloat

section Normal

variable {s : Sign} {m : ℕ} {e : ℤ}

theorem le_roundedMantissa (em : ExtendedMantissa) : em.mantissa ≤ em.roundedMantissa := by
  unfold ExtendedMantissa.roundedMantissa Accuracy.roundToNearestEven
  split <;> omega

/-- The digits that are left of a number of many digits, once they are rounded. -/
def roundedDigits (m : ℕ) (accuracy : Accuracy) : ℕ :=
  (ExtendedMantissa.ofMantissaAndAccuracy m accuracy >>> (m.log2 - 52)).roundedMantissa

theorem roundedDigits_bounds (accuracy : Accuracy) (hdigits : 52 ≤ m.log2) :
    2 ^ 52 ≤ roundedDigits m accuracy ∧ roundedDigits m accuracy ≤ 2 ^ 53 := by
  have hm : m ≠ 0 := by
    rintro rfl
    simp at hdigits
  have hleast := le_roundedMantissa (ExtendedMantissa.ofMantissaAndAccuracy m accuracy >>>
    (m.log2 - 52))
  have hgreatest := roundedMantissa_le (ExtendedMantissa.ofMantissaAndAccuracy m accuracy >>>
    (m.log2 - 52))
  rw [mantissa_shiftRight, mantissa_ofMantissaAndAccuracy] at hleast hgreatest
  have hlow : 2 ^ 52 ≤ m / 2 ^ (m.log2 - 52) := by
    rw [Nat.le_div_iff_mul_le (Nat.two_pow_pos _), ← pow_add, Nat.add_sub_cancel' hdigits]
    exact Nat.log2_self_le hm
  have hhigh : m / 2 ^ (m.log2 - 52) < 2 ^ 53 := by
    have hpower : m.log2 - 52 + 53 = m.log2 + 1 := by omega
    apply Nat.div_lt_of_lt_mul
    rw [← pow_add, hpower]
    exact Nat.lt_log2_self
  unfold roundedDigits
  omega

theorem shiftToTargetExponent_eq (accuracy : Accuracy) (hdigits : 52 ≤ m.log2)
    (hnormal : -1022 ≤ m.log2 + e) :
    (shiftToTargetExponent format m e accuracy).1.roundedMantissa = roundedDigits m accuracy ∧
      (shiftToTargetExponent format m e accuracy).2 = m.log2 + e - 52 := by
  constructor
  · have hshift : (max ((m.log2 : ℤ) + 1 + e - 53) (-1074) - e).toNat = m.log2 - 52 := by omega
    have hfirst : (shiftToTargetExponent format m e accuracy).1 =
        ExtendedMantissa.ofMantissaAndAccuracy m accuracy >>> (m.log2 - 52) :=
      congrArg (ExtendedMantissa.ofMantissaAndAccuracy m accuracy >>> ·) hshift
    rw [hfirst, roundedDigits]
  · rw [exponent_shiftToTargetExponent]
    omega

/-- Rounding a number of many digits gives a normal number of the same size, or the next power of
two. -/
theorem exists_roundWithAccuracy_eq (accuracy : Accuracy) (hdigits : 52 ≤ m.log2)
    (hnormal : -1022 ≤ m.log2 + e) :
    ∃ m' e' hm', roundWithAccuracy format s m e accuracy = .finite s m' e' hm' ∧
      m'.log2 = 52 ∧ m.log2 + e - 52 ≤ e' ∧ e' ≤ m.log2 + e - 51 ∧
      m' * 2 ^ (e' - (m.log2 + e - 52)).toNat = roundedDigits m accuracy := by
  obtain ⟨hrounded, hexponent⟩ := shiftToTargetExponent_eq accuracy hdigits hnormal
  obtain ⟨hlow, hhigh⟩ := roundedDigits_bounds accuracy hdigits
  generalize hfirst : shiftToTargetExponent format m e accuracy = first at hrounded hexponent
  generalize roundedDigits m accuracy = rounded at hrounded hlow hhigh
  generalize hsecond : shiftToTargetExponent format rounded first.2 .exact = second
  have hcarry : rounded.log2 = 52 ∨ rounded = 2 ^ 53 := by
    rcases hhigh.lt_or_eq with hlt | heq
    · left
      exact (Nat.log2_eq_iff (by omega)).2 ⟨hlow, hlt⟩
    · exact Or.inr heq
  have hfinal : second.1.mantissa.log2 = 52 ∧ first.2 ≤ second.2 ∧ second.2 ≤ first.2 + 1 ∧
      second.1.mantissa * 2 ^ (second.2 - first.2).toNat = rounded := by
    rw [← hsecond, mantissa_shiftToTargetExponent, exponent_shiftToTargetExponent]
    rcases hcarry with hlog | rfl
    · have hshift : (max (rounded.log2 + 1 + first.2 - 53) (-1074) - first.2).toNat = 0 := by omega
      have hsame : (max first.2 (max (rounded.log2 + 1 + first.2 - 53) (-1074)) -
          first.2).toNat = 0 := by omega
      rw [hshift, hsame, pow_zero, Nat.div_one, Nat.mul_one]
      exact ⟨hlog, by omega, by omega, rfl⟩
    · have hlog : (2 ^ 53).log2 = 53 := Nat.log2_two_pow
      have hshift : (max ((2 ^ 53).log2 + 1 + first.2 - 53) (-1074) - first.2).toNat = 1 := by
        omega
      have hnext : (max first.2 (max ((2 ^ 53).log2 + 1 + first.2 - 53) (-1074)) -
          first.2).toNat = 1 := by
        omega
      rw [hshift, hnext, hlog]
      exact ⟨by decide, by omega, by omega, by decide⟩
  have hpositive : second.1.mantissa ≠ 0 := by
    intro h
    simp [h] at hfinal
  rw [← hexponent]
  refine ⟨second.1.mantissa, second.2, Nat.pos_of_ne_zero hpositive, ?_, hfinal.1, by omega,
    by omega, hfinal.2.2.2⟩
  delta roundWithAccuracy
  dsimp only
  rw [hfirst, hrounded, hsecond, dif_neg hpositive]

end Normal

section PowersOfTen

open Json (powerOfTen)

variable {k : ℕ}

/-- A normal number by which a division makes no number greater. -/
def isDivisor : UnpackedFloat → Bool
  | .finite _ m e _ => 2 ^ 52 ≤ m && -51 ≤ e
  | _ => false

theorem isDivisor_finite {s : Sign} {m : ℕ} {e : ℤ} {hm : 0 < m} :
    isDivisor (.finite s m e hm) = true ↔ 2 ^ 52 ≤ m ∧ -51 ≤ e := by
  change (decide (2 ^ 52 ≤ m) && decide (-51 ≤ e)) = true ↔ _
  rw [Bool.and_eq_true, decide_eq_true_eq, decide_eq_true_eq]

theorem exists_of_isDivisor {u : UnpackedFloat} (h : isDivisor u = true) :
    ∃ s m e hm, u = .finite s m e hm ∧ 2 ^ 52 ≤ m ∧ -51 ≤ e := by
  cases u with
  | finite s m e hm =>
      exact ⟨s, m, e, hm, rfl, isDivisor_finite.1 h⟩
  | _ => cases h

end PowersOfTen

section Scaling

variable {x y : Float}

theorem isFinite_div_of_isDivisor (hx : x.isFinite = true) (hy : isDivisor (unpack y) = true) :
    (x / y).isFinite = true := by
  have hdiv : x / y = pack (UnpackedFloat.div format (unpack x) (unpack y)) := rfl
  obtain ⟨s₂, m₂, e₂, hm₂, hdivisor, hdigits, hexponent₂⟩ := exists_of_isDivisor hy
  rw [hdiv, hdivisor]
  obtain ⟨s, hx⟩ | ⟨s, m, e, hm, hx, hmantissa, hexponent⟩ := unpack_cases hx <;> rw [hx]
  · exact isFinite_pack_zero _
  · exact isFinite_div_finite hmantissa hexponent hdigits hexponent₂

end Scaling

end Abacus.Binary64
