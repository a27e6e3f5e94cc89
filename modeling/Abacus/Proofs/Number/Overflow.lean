import Abacus.Proofs.Number.Scaling

/-!
# Numbers that round to a finite double

Rounding leaves the finite doubles half a unit above the greatest of them, and not before. So a
decimal numeral that has no finite double denotes a number from there on.
-/

namespace Abacus.Binary64

open Float.Model (UnpackedFloat totalExponent)
open Float.Model.UnpackedFloat

/-- Half a unit above the greatest finite double. -/
def overflowBound : ℚ := 2 ^ 1024 - 2 ^ 970

section Rounding

variable {s : Sign} {m k : ℕ} {e : ℤ} {accuracy : Accuracy}

/-- Nothing is rounded up where the first digit that is cut off is zero. -/
theorem roundedMantissa_shiftRight {em : ExtendedMantissa} (h : em.mantissa / 2 ^ k % 2 = 0) :
    (em >>> (k + 1)).roundedMantissa = em.mantissa / 2 ^ (k + 1) := by
  have hmantissa := mantissa_shiftRight em (k + 1)
  have hbit : (em >>> (k + 1)).roundBit = false := by
    have hlast : (em >>> (k + 1)).roundBit = ((em >>> k).mantissa % 2 != 0) := rfl
    rw [hlast, mantissa_shiftRight, h]
    rfl
  rw [← hmantissa]
  generalize em >>> (k + 1) = shifted at hbit
  obtain ⟨mantissa, roundBit, stickyBit⟩ := shifted
  obtain rfl : roundBit = false := hbit
  cases stickyBit <;> rfl

/-- Where all the digits that are left are ones, the first one that is cut off is zero, so they are
not rounded up. -/
theorem roundedMantissa_lt (hm : m < (2 ^ 54 - 1) * 2 ^ k) :
    (ExtendedMantissa.ofMantissaAndAccuracy m accuracy >>> (k + 1)).roundedMantissa < 2 ^ 53 := by
  have hcut : m / 2 ^ k < 2 ^ 54 - 1 := Nat.div_lt_of_lt_mul (by rwa [mul_comm])
  have hhalf : m / 2 ^ (k + 1) = m / 2 ^ k / 2 := by
    rw [pow_succ, Nat.div_div_eq_div_mul]
  by_cases hbit : m / 2 ^ k % 2 = 0
  · rw [roundedMantissa_shiftRight (by rwa [mantissa_ofMantissaAndAccuracy]),
      mantissa_ofMantissaAndAccuracy, hhalf]
    omega
  · have hrounded := roundedMantissa_le
      (ExtendedMantissa.ofMantissaAndAccuracy m accuracy >>> (k + 1))
    rw [mantissa_shiftRight, mantissa_ofMantissaAndAccuracy, hhalf] at hrounded
    omega

/-- A number below the bound keeps to the exponents of the finite doubles, before it is rounded and
after. -/
theorem exponents_of_lt (accuracy : Accuracy) (he : e ≤ 970)
    (hm : m < (2 ^ 54 - 1) * 2 ^ (970 - e).toNat) :
    (shiftToTargetExponent format m e accuracy).2 ≤ 971 ∧
      ((shiftToTargetExponent format m e accuracy).1.roundedMantissa.log2 : ℤ) +
        (shiftToTargetExponent format m e accuracy).2 ≤ 1023 := by
  have hlog : m.log2 ≤ 53 + (970 - e).toNat := by
    apply log2_le_of_lt
    rw [add_right_comm, pow_add]
    exact hm.trans_le (Nat.mul_le_mul_right _ (Nat.sub_le _ _))
  have hexponent : (shiftToTargetExponent format m e accuracy).2 = _ :=
    exponent_shiftToTargetExponent
  have hsmall : (shiftToTargetExponent format m e accuracy).2 ≤ 971 := by
    omega
  refine ⟨hsmall, ?_⟩
  by_cases hgreatest : (shiftToTargetExponent format m e accuracy).2 = 971
  · have hshift : (max ((m.log2 : ℤ) + 1 + e - 53) (-1074) - e).toNat = (970 - e).toNat + 1 := by
      omega
    have hfirst : (shiftToTargetExponent format m e accuracy).1 =
        ExtendedMantissa.ofMantissaAndAccuracy m accuracy >>> ((970 - e).toNat + 1) :=
      congrArg (ExtendedMantissa.ofMantissaAndAccuracy m accuracy >>> ·) hshift
    have hrounded : (shiftToTargetExponent format m e accuracy).1.roundedMantissa < 2 ^ 53 :=
      hfirst ▸ roundedMantissa_lt hm
    have hroundedLog := log2_le_of_lt hrounded
    omega
  · have hrounded := roundedMantissa_le (shiftToTargetExponent format m e accuracy).1
    rw [mantissa_shiftToTargetExponent] at hrounded
    have hroundedLog := log2_rounded_le Nat.lt_log2_self hrounded
    omega

theorem isFinite_roundWithAccuracy_of_lt (he : e ≤ 970)
    (hm : m < (2 ^ 54 - 1) * 2 ^ (970 - e).toNat) :
    (pack (roundWithAccuracy format s m e accuracy)).isFinite = true := by
  obtain ⟨hsmall, hrounded⟩ := exponents_of_lt accuracy he hm
  delta roundWithAccuracy
  dsimp only
  split
  · exact isFinite_pack_zero s
  · refine isFinite_pack_finite ?_
    rw [exponent_shiftToTargetExponent]
    omega

end Rounding

section Decimals

variable {m : ℕ} {e : ℤ}

theorem lt_of_value_lt (he : e ≤ 970) (h : (m : ℚ) * 2 ^ e < overflowBound) :
    m < (2 ^ 54 - 1) * 2 ^ (970 - e).toNat := by
  have hsplit : ((970 - e).toNat : ℤ) = 970 - e := by omega
  have hpower : (2 : ℚ) ^ (970 - e).toNat * 2 ^ e = 2 ^ 970 := by
    rw [← zpow_natCast, ← zpow_add₀ two_ne_zero, hsplit, sub_add_cancel]
    rfl
  have hbound : overflowBound = (2 ^ 54 - 1) * 2 ^ (970 - e).toNat * 2 ^ e := by
    rw [mul_assoc, hpower, overflowBound, sub_mul, one_mul, ← pow_add]
  rw [hbound] at h
  have hcast := lt_of_mul_lt_mul_right h (zpow_pos two_pos e).le
  have hone : ((2 ^ 54 - 1 : ℕ) : ℚ) = 2 ^ 54 - 1 := by norm_num
  rw [← hone] at hcast
  exact_mod_cast hcast

theorem isFinite_roundWithAccuracy_of_value_lt {s : Sign} {accuracy : Accuracy} (he : e ≤ 970)
    (h : (m : ℚ) * 2 ^ e < overflowBound) :
    (pack (roundWithAccuracy format s m e accuracy)).isFinite = true :=
  isFinite_roundWithAccuracy_of_lt he (lt_of_value_lt he h)

theorem overflowBound_le_ten_pow : overflowBound ≤ 10 ^ 2048 := by
  calc
    overflowBound ≤ 2 ^ 1024 := sub_le_self _ (pow_nonneg two_pos.le _)
    _ ≤ 10 ^ 1024 := pow_le_pow_left₀ two_pos.le (by norm_num) _
    _ ≤ 10 ^ 2048 := pow_le_pow_right₀ (by norm_num) (by norm_num)

/-- With such an exponent every number is beyond the bound. -/
theorem le_of_lt_bound (hm : m ≠ 0) (h : (m : ℚ) * 10 ^ e < overflowBound) : e ≤ 2048 := by
  by_contra hlarge
  have hone : (1 : ℚ) ≤ m := by exact_mod_cast Nat.one_le_iff_ne_zero.2 hm
  have hten : (10 : ℚ) ^ 2048 ≤ 10 ^ e := by
    rw [← zpow_natCast]
    exact zpow_le_zpow_right₀ (by norm_num) (by omega)
  have hvalue : (10 : ℚ) ^ e ≤ m * 10 ^ e :=
    le_mul_of_one_le_left (zpow_pos (by norm_num) e).le hone
  exact absurd h (overflowBound_le_ten_pow.trans (hten.trans hvalue)).not_gt

theorem isFinite_mul_of_lt {hm : 0 < m <<< 53} {hten : 0 < 10 ^ e.toNat} (he : 0 ≤ e)
    (h : (m : ℚ) * 10 ^ e < overflowBound) :
    (pack (UnpackedFloat.mul format (.finite .positive (m <<< 53) (-53) hm)
      (.finite .positive (10 ^ e.toNat) 0 hten))).isFinite = true := by
  delta UnpackedFloat.mul
  dsimp only
  apply isFinite_roundWithAccuracy_of_value_lt (by decide)
  have hpower : (10 : ℚ) ^ e.toNat = 10 ^ e := by
    rw [← zpow_natCast, Int.toNat_of_nonneg he]
  have hscale : (2 : ℚ) ^ 53 * 2 ^ (-53 + 0 : ℤ) = 1 := by norm_num
  calc
    ((m <<< 53 * 10 ^ e.toNat : ℕ) : ℚ) * 2 ^ (-53 + 0 : ℤ) =
        m * 10 ^ e.toNat * (2 ^ 53 * 2 ^ (-53 + 0 : ℤ)) := by
      rw [Nat.shiftLeft_eq]
      push_cast
      ring
    _ = m * 10 ^ e := by rw [hscale, mul_one, hpower]
    _ < overflowBound := h

theorem isFinite_div_of_lt {hm : 0 < m} {hten : 0 < 10 ^ (-e).toNat} (he : e ≤ 0)
    (h : (m : ℚ) * 10 ^ e < overflowBound) :
    (pack (UnpackedFloat.div format (.finite .positive m 0 hm)
      (.finite .positive (10 ^ (-e).toNat) 0 hten))).isFinite = true := by
  delta UnpackedFloat.div divCore
  dsimp only
  generalize format.targetExponent _ = other
  generalize htarget : min (0 - 0) other = target
  have htarget : target ≤ 0 := htarget ▸ min_le_left _ _
  apply isFinite_roundWithAccuracy_of_value_lt (by omega)
  have hpower : ((10 : ℚ) ^ (-e).toNat)⁻¹ = 10 ^ e := by
    rw [← zpow_natCast, ← zpow_neg, Int.toNat_of_nonneg (by omega), neg_neg]
  have hscale : (2 : ℚ) ^ (0 - 0 - target).toNat * 2 ^ target = 1 := by
    rw [← zpow_natCast, ← zpow_add₀ two_ne_zero, Int.toNat_of_nonneg (by omega)]
    norm_num
  generalize (0 - 0 - target).toNat = shift at *
  calc
    ((m <<< shift / 10 ^ (-e).toNat : ℕ) : ℚ) * 2 ^ target ≤
        ((m <<< shift : ℕ) : ℚ) / ((10 ^ (-e).toNat : ℕ) : ℚ) * 2 ^ target :=
      mul_le_mul_of_nonneg_right Nat.cast_div_le (zpow_pos two_pos target).le
    _ = m * (10 ^ (-e).toNat)⁻¹ * (2 ^ shift * 2 ^ target) := by
      rw [Nat.shiftLeft_eq, div_eq_mul_inv]
      push_cast
      ring
    _ = m * 10 ^ e := by rw [hscale, mul_one, hpower]
    _ < overflowBound := h

/-- A decimal number below the bound has a finite double. -/
theorem isFinite_ofDecimal (h : (m : ℚ) * 10 ^ e < overflowBound) :
    (ofDecimal m e).isFinite = true := by
  change (pack (UnpackedFloat.ofScientific format m e)).isFinite = true
  delta UnpackedFloat.ofScientific
  dsimp only
  by_cases hm : m = 0
  · rw [dif_pos hm]
    exact isFinite_pack_zero _
  have hexponent := le_of_lt_bound hm h
  have hbits : (2 : ℤ) ^ format.exponentBits = 2048 := rfl
  rw [dif_neg hm, if_neg (by omega)]
  by_cases hsmall : e < -((2 ^ format.exponentBits : ℤ) + m.log2)
  · rw [if_pos hsmall]
    exact isFinite_pack_zero _
  rw [if_neg hsmall]
  by_cases hsign : 0 ≤ e
  · rw [if_pos hsign]
    exact isFinite_mul_of_lt hsign h
  · rw [if_neg hsign]
    exact isFinite_div_of_lt (by omega) h

end Decimals

end Abacus.Binary64
