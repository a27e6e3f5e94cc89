import Mathlib.Tactic.Ring
import Mathlib.Tactic.Linarith
import Abacus.Proofs.Number.Word
import Abacus.Number.Binary64

/-!
# Finite doubles

Which operations on doubles never leave the finite ones. A number that has been rounded is finite if
its exponent is at most 971, and rounding keeps to that as long as the exact result is small enough.
-/

namespace Abacus.Binary64

open Float.Model (UnpackedFloat totalExponent)
open Float.Model.UnpackedFloat

section Packing

/-- The finite numbers as they are read from a double. -/
def Bounded : UnpackedFloat → Prop
  | .zero _ => True
  | .finite _ m e _ => m < 2 ^ 53 ∧ e ≤ 971
  | _ => False

theorem exponentBias_eq : format.exponentBias = 1023 := rfl

theorem isFinite_of_bounded {u : UnpackedFloat} (h : Bounded u) : u.isFinite = true := by
  cases u with
  | notANumber => exact h.elim
  | infinity s => exact h.elim
  | zero s => rfl
  | finite s m e hm => rfl

section Bits

variable {b : BitVec format.numBits}

theorem isFinite_unpack_special (h : unpackExponent b = -1#_) :
    (UnpackedFloat.unpack format b).isFinite = false := by
  delta UnpackedFloat.unpack
  dsimp only
  rw [if_pos h]
  by_cases hmantissa : unpackMantissa b = 0#_
  · rw [if_pos hmantissa]
    rfl
  · rw [if_neg hmantissa]
    rfl

theorem bounded_unpackBits (h : unpackExponent b ≠ -1#_) :
    Bounded (UnpackedFloat.unpack format b) := by
  have hexponent : (unpackExponent b).toNat ≤ 2046 := by
    have hlt : (unpackExponent b).toNat < 2048 := (unpackExponent b).isLt
    have hne : (unpackExponent b).toNat ≠ 2047 := by
      intro hall
      exact h (BitVec.eq_of_toNat_eq hall)
    omega
  delta UnpackedFloat.unpack
  dsimp only
  rw [if_neg h, exponentBias_eq]
  by_cases hzero : unpackExponent b = 0#_
  · rw [if_pos hzero]
    by_cases hmantissa : unpackMantissa b = 0#_
    · rw [dif_pos hmantissa]
      trivial
    · rw [dif_neg hmantissa, hzero]
      have hlt : (unpackMantissa b).toNat < 2 ^ 52 := (unpackMantissa b).isLt
      exact ⟨by omega, by decide⟩
  · rw [if_neg hzero]
    refine ⟨(1#1 ++ unpackMantissa b).isLt, ?_⟩
    simp only [Nat.cast_ofNat]
    omega

end Bits

theorem bounded_unpack {x : Float} (h : x.isFinite = true) : Bounded (unpack x) := by
  have hbits : (UnpackedFloat.unpack format x.toModel.toBits.toBitVec).isFinite = true := h
  apply bounded_unpackBits
  intro hspecial
  rw [isFinite_unpack_special hspecial] at hbits
  cases hbits

theorem unpack_cases {x : Float} (h : x.isFinite = true) :
    (∃ s, unpack x = .zero s) ∨
      ∃ s m e hm, unpack x = .finite s m e hm ∧ m < 2 ^ 53 ∧ e ≤ 971 := by
  have hbounded := bounded_unpack h
  cases hx : unpack x with
  | notANumber =>
      rw [hx] at hbounded
      exact hbounded.elim
  | infinity s =>
      rw [hx] at hbounded
      exact hbounded.elim
  | zero s => exact Or.inl ⟨s, rfl⟩
  | finite s m e hm =>
      rw [hx] at hbounded
      exact Or.inr ⟨s, m, e, hm, rfl, hbounded⟩

theorem exists_reading {x : Float} (h : x.isFinite = true) :
    ∃ negative m e, reading x = .finite negative m e := by
  unfold reading
  rcases unpack_cases h with ⟨s, hs⟩ | ⟨s, m, e, hm, hs, -⟩
  · exact ⟨_, _, _, by rw [hs]; rfl⟩
  · exact ⟨_, _, _, by rw [hs]; rfl⟩

theorem isNaN_of_isFinite {x : Float} (h : x.isFinite = true) : x.isNaN = false := by
  change (unpack x).isNaN = false
  obtain ⟨s, hx⟩ | ⟨s, m, e, hm, hx, -, -⟩ := unpack_cases h <;> rw [hx] <;> rfl

theorem isFinite_pack_zero (s : Sign) : (pack (.zero s)).isFinite = true := by
  cases s <;> rfl

theorem isFinite_pack_finite {s : Sign} {m : ℕ} {e : ℤ} {hm : 0 < m} (he : e ≤ 971) :
    (pack (.finite s m e hm)).isFinite = true := by
  apply isFinite_of_bounded
  apply bounded_unpackBits
  have hbiased : (e + format.exponentBias + format.mantissaBitsWithoutImplicit).toNat ≤ 2046 := by
    rw [exponentBias_eq]
    simp only [Nat.cast_ofNat]
    omega
  change unpackExponent (UnpackedFloat.pack format (.finite s m e hm)) ≠ -1#_
  delta UnpackedFloat.pack
  dsimp only
  generalize (e + format.exponentBias + format.mantissaBitsWithoutImplicit).toNat = biased at *
  rw [if_neg (by simp only [Nat.reducePow]; omega)]
  split_ifs
  · rw [unpackExponent_packComponents]
    intro hall
    have hall := congrArg BitVec.toNat hall
    simp [BitVec.neg_one_eq_allOnes] at hall
    omega
  · rw [unpackExponent_packComponents]
    decide

end Packing

section Rounding

variable {m k : ℕ} {e : ℤ} {accuracy : Accuracy}

theorem mantissa_shiftRight (em : ExtendedMantissa) (n : ℕ) :
    (em >>> n).mantissa = em.mantissa / 2 ^ n := by
  change (n.repeat ExtendedMantissa.shiftRightOne em).mantissa = _
  induction n with
  | zero => simp [Nat.repeat]
  | succ n ih =>
      rw [Nat.repeat, ExtendedMantissa.shiftRightOne, ih, Nat.div_div_eq_div_mul, pow_succ]

theorem mantissa_ofMantissaAndAccuracy :
    (ExtendedMantissa.ofMantissaAndAccuracy m accuracy).mantissa = m := by
  unfold ExtendedMantissa.ofMantissaAndAccuracy
  split <;> rfl

theorem mantissa_shiftToTargetExponent :
    (shiftToTargetExponent format m e accuracy).1.mantissa =
      m / 2 ^ (max (m.log2 + 1 + e - 53) (-1074) - e).toNat := by
  rw [shiftToTargetExponent, shiftToExponent, mantissa_shiftRight, mantissa_ofMantissaAndAccuracy]
  rfl

theorem exponent_shiftToTargetExponent :
    (shiftToTargetExponent format m e accuracy).2 = max e (max (m.log2 + 1 + e - 53) (-1074)) := by
  have hdefinition : (shiftToTargetExponent format m e accuracy).2 =
      e + (max (m.log2 + 1 + e - 53) (-1074) - e).toNat := rfl
  rw [hdefinition]
  omega

theorem roundedMantissa_le (em : ExtendedMantissa) : em.roundedMantissa ≤ em.mantissa + 1 := by
  unfold ExtendedMantissa.roundedMantissa Accuracy.roundToNearestEven
  split <;> omega

/-- The place of the leading digit of a number below a power of two. -/
theorem log2_le_of_lt (hm : m < 2 ^ (k + 1)) : m.log2 ≤ k := by
  by_cases hzero : m = 0
  · simp [hzero]
  · exact Nat.le_of_lt_succ ((Nat.log2_lt hzero).2 hm)

theorem log2_le (hm : m < 2 ^ k) : m.log2 ≤ k :=
  log2_le_of_lt (hm.trans (Nat.pow_lt_pow_succ (by decide)))

/-- What is cut off and rounded up is no longer than what there was, or it is a single digit. -/
theorem log2_rounded_le {n r : ℕ} (hm : m < 2 ^ k) (hr : r ≤ m / 2 ^ n + 1) : r.log2 ≤ k - n := by
  have hcut : m / 2 ^ n < 2 ^ (k - n) := by
    refine Nat.div_lt_of_lt_mul (hm.trans_le ?_)
    rw [← pow_add]
    exact Nat.pow_le_pow_right (by decide) (by omega)
  apply log2_le_of_lt
  have hpos := Nat.two_pow_pos (k - n)
  rw [pow_succ]
  omega

/-- Rounding gives a finite number if the exact one is below `2 ^ 1023`. -/
theorem isFinite_roundWithAccuracy {s : Sign} (hm : m < 2 ^ k) (he : e ≤ 971)
    (hsize : k + e ≤ 1023) : (pack (roundWithAccuracy format s m e accuracy)).isFinite = true := by
  have hrounded := roundedMantissa_le (shiftToTargetExponent format m e accuracy).1
  rw [mantissa_shiftToTargetExponent] at hrounded
  have hroundedLog := log2_rounded_le hm hrounded
  have hlog := log2_le hm
  delta roundWithAccuracy
  dsimp only
  by_cases hzero : (shiftToTargetExponent format
      (shiftToTargetExponent format m e accuracy).1.roundedMantissa
      (shiftToTargetExponent format m e accuracy).2 .exact).1.mantissa = 0
  · rw [dif_pos hzero]
    exact isFinite_pack_zero s
  · rw [dif_neg hzero]
    refine isFinite_pack_finite ?_
    rw [exponent_shiftToTargetExponent, exponent_shiftToTargetExponent]
    omega

theorem isFinite_round {s : Sign} (hm : m < 2 ^ k) (he : e ≤ 971) (hsize : k + e ≤ 1023) :
    (pack (UnpackedFloat.round format s m e)).isFinite = true := by
  simp only [UnpackedFloat.round, decreaseExponent]
  generalize (e - format.targetExponent (totalExponent m e)).toNat = shift
  have hshifted : m <<< shift < 2 ^ (k + shift) := by
    rw [Nat.shiftLeft_eq, pow_add]
    exact Nat.mul_lt_mul_of_pos_right hm (Nat.two_pow_pos shift)
  have hsame : ((k + shift : ℕ) : ℤ) + (e - shift) ≤ 1023 := by omega
  exact isFinite_roundWithAccuracy hshifted (by omega) hsame

end Rounding

section Operations

variable {x : Float}

theorem isFinite_neg (h : x.isFinite = true) : (-x).isFinite = true := by
  have hneg : -x = pack (unpack x).neg := rfl
  rw [hneg]
  obtain ⟨s, hx⟩ | ⟨s, m, e, hm, hx, -, hexponent⟩ := unpack_cases h <;> rw [hx]
  · exact isFinite_pack_zero _
  · exact isFinite_pack_finite hexponent

theorem isFinite_abs (h : x.isFinite = true) : x.abs.isFinite = true := by
  have habs : x.abs = pack (unpack x).abs := rfl
  rw [habs]
  obtain ⟨s, hx⟩ | ⟨s, m, e, hm, hx, -, hexponent⟩ := unpack_cases h <;> rw [hx]
  · exact isFinite_pack_zero _
  · exact isFinite_pack_finite hexponent

theorem isFinite_ofInt (n : Integer) : (ofInt n.val).isFinite = true := by
  have hofInt : ofInt n.val = pack (UnpackedFloat.normalize format n.val 0 .positive) := rfl
  have hleast := n.least_le
  have hgreatest := n.le_greatest
  rw [Width.int64_least] at hleast
  rw [Width.int64_greatest] at hgreatest
  rw [hofInt]
  unfold UnpackedFloat.normalize
  split
  · exact isFinite_round (k := 64) (by omega) (by decide) (by decide)
  · exact isFinite_pack_zero _
  · exact isFinite_round (k := 64) (by omega) (by decide) (by decide)

/-- Half the digits before the point are left of a square root. -/
theorem sqrtCore_lt {m : ℕ} {e : ℤ} (hm : m < 2 ^ 53) (he : e ≤ 971) :
    (sqrtCore format m e).1 < 2 ^ (512 - (sqrtCore format m e).2.1).toNat ∧
      (sqrtCore format m e).2.1 ≤ 485 := by
  simp only [sqrtCore]
  generalize format.targetExponent _ = other
  generalize htarget : min (e.ediv 2) other = target
  have htarget : target ≤ e / 2 := htarget ▸ min_le_left _ _
  refine ⟨?_, by omega⟩
  rw [Nat.sqrt_lt', ← pow_mul, Nat.shiftLeft_eq]
  calc
    m * 2 ^ (e - 2 * target).toNat < 2 ^ 53 * 2 ^ (e - 2 * target).toNat :=
      Nat.mul_lt_mul_of_pos_right hm (Nat.two_pow_pos _)
    _ = 2 ^ (53 + (e - 2 * target).toNat) := (pow_add 2 53 _).symm
    _ ≤ 2 ^ ((512 - target).toNat * 2) := Nat.pow_le_pow_right (by decide) (by omega)

theorem isFinite_sqrt (h : x.isFinite = true) (hsign : isNegative x = false) :
    x.sqrt.isFinite = true := by
  have hsqrt : x.sqrt = pack (UnpackedFloat.sqrt format (unpack x)) := rfl
  unfold isNegative at hsign
  rw [hsqrt]
  obtain ⟨s, hx⟩ | ⟨s, m, e, hm, hx, hmantissa, hexponent⟩ := unpack_cases h <;> rw [hx]
  · exact isFinite_pack_zero _
  · rw [hx] at hsign
    cases s with
    | negative => cases hsign
    | positive =>
        obtain ⟨hroot, htarget⟩ := sqrtCore_lt hmantissa hexponent
        have hsmall : (sqrtCore format m e).2.1 ≤ 971 := by omega
        have hsize : ((512 - (sqrtCore format m e).2.1).toNat : ℤ) + (sqrtCore format m e).2.1 ≤
            1023 := by omega
        exact isFinite_roundWithAccuracy hroot hsmall hsize

/-- A quotient by a number that is at least two is finite. -/
theorem isFinite_div_finite {s₁ s₂ : Sign} {m₁ m₂ : ℕ} {e₁ e₂ : ℤ} {hm₁ : 0 < m₁} {hm₂ : 0 < m₂}
    (hdividend : m₁ < 2 ^ 53) (he₁ : e₁ ≤ 971) (hdivisor : 2 ^ 52 ≤ m₂) (he₂ : -51 ≤ e₂) :
    (pack (UnpackedFloat.div format (.finite s₁ m₁ e₁ hm₁) (.finite s₂ m₂ e₂ hm₂))).isFinite =
      true := by
  delta UnpackedFloat.div divCore
  dsimp only
  have hother : format.targetExponent (totalExponent m₁ e₁ - totalExponent m₂ e₂) ≤ 971 := by
    have hlog₁ := log2_le hdividend
    have hlog₂ := (Nat.le_log2 hm₂.ne').2 hdivisor
    change max ((m₁.log2 + 1 + e₁) - (m₂.log2 + 1 + e₂) - 53 : ℤ) (-1074) ≤ 971
    omega
  generalize format.targetExponent _ = other at *
  generalize htarget : min (e₁ - e₂) other = target
  have hquotient : m₁ <<< (e₁ - e₂ - target).toNat / m₂ < 2 ^ (1 + (e₁ - e₂ - target).toNat) := by
    refine Nat.div_lt_of_lt_mul ?_
    rw [Nat.shiftLeft_eq, pow_add, ← mul_assoc]
    exact Nat.mul_lt_mul_of_pos_right (by omega) (Nat.two_pow_pos _)
  exact isFinite_roundWithAccuracy hquotient (by omega) (by omega)

theorem unpack_hundred :
    unpack (ofInt 100) = .finite .positive (100 * 2 ^ 46) (-46) (by decide) := by
  rfl

theorem isFinite_div_hundred (h : x.isFinite = true) : (x / ofInt 100).isFinite = true := by
  have hdiv : x / ofInt 100 = pack (UnpackedFloat.div format (unpack x) (unpack (ofInt 100))) := rfl
  rw [hdiv, unpack_hundred]
  obtain ⟨s, hx⟩ | ⟨s, m, e, hm, hx, hmantissa, hexponent⟩ := unpack_cases h <;> rw [hx]
  · exact isFinite_pack_zero _
  · exact isFinite_div_finite hmantissa hexponent (by norm_num) (by norm_num)

theorem isFinite_of_finiteResult? {finite : Bool} {y : Float} (hfinite : finite = true)
    (h : finiteResult? finite x = some y) : y.isFinite = true := by
  unfold finiteResult? at h
  cases hx : x.isFinite <;> simp_all

end Operations

end Abacus.Binary64
