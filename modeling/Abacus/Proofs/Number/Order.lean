import Abacus.Proofs.Number.Integers

/-!
# The order of doubles

A finite double is read in one form only: its significand has 53 digits, unless its exponent is the
least there is. So comparing the exponents first and then the significands compares the values.
-/

namespace Abacus.Binary64

open Float.Model (UnpackedFloat)
open Float.Model.UnpackedFloat

section Forms

/-- The form in which a finite number is read from a double. -/
def Canonical : UnpackedFloat → Prop
  | .zero _ => True
  | .finite _ m e _ => m < 2 ^ 53 ∧ -1074 ≤ e ∧ (e = -1074 ∨ 2 ^ 52 ≤ m)
  | _ => False

/-- What a finite number stands for. -/
def value : UnpackedFloat → ℚ
  | .finite s m e _ => s.apply 1 * (m * 2 ^ e)
  | _ => 0

theorem canonical_unpackBits {b : BitVec format.numBits} (h : unpackExponent b ≠ -1#_) :
    Canonical (UnpackedFloat.unpack format b) := by
  delta UnpackedFloat.unpack
  dsimp only
  rw [if_neg h, exponentBias_eq]
  by_cases hzero : unpackExponent b = 0#_
  · rw [if_pos hzero]
    by_cases hmantissa : unpackMantissa b = 0#_
    · rw [dif_pos hmantissa]
      trivial
    · rw [dif_neg hmantissa, hzero]
      have hlt : (unpackMantissa b).toNat < 2 ^ 52 := (unpackMantissa b).isLt
      exact ⟨by omega, by decide, Or.inl (by decide)⟩
  · rw [if_neg hzero]
    have hpositive : 0 < (unpackExponent b).toNat := by
      rw [BitVec.toNat_pos]
      exact (BitVec.pos_iff_ne_zero _).2 hzero
    have hdigits : 2 ^ 52 ≤ (1#1 ++ unpackMantissa b).toNat := by
      rw [BitVec.toNat_append]
      exact Nat.left_le_or
    refine ⟨(1#1 ++ unpackMantissa b).isLt, ?_, Or.inr hdigits⟩
    simp only [Nat.cast_ofNat]
    omega

theorem canonical_unpack {x : Float} (h : x.isFinite = true) : Canonical (unpack x) := by
  have hbits : (UnpackedFloat.unpack format x.toModel.toBits.toBitVec).isFinite = true := h
  apply canonical_unpackBits
  intro hspecial
  rw [isFinite_unpack_special hspecial] at hbits
  cases hbits

theorem toRat?_eq_value {x : Float} (h : x.isFinite = true) :
    (reading x).toRat? = some (value (unpack x)) := by
  obtain ⟨s, hx⟩ | ⟨s, m, e, hm, hx, -⟩ := unpack_cases h
  · rw [toRat?_of_unpack_zero hx, hx]
    rfl
  · rw [toRat?_of_unpack hx, hx]
    rfl

end Forms

section Comparison

variable {m₁ m₂ : ℕ} {e₁ e₂ : ℤ} {u v : UnpackedFloat} {x y : Float}

theorem magnitude_lt (hdigits₁ : m₁ < 2 ^ 53) (hdigits₂ : 2 ^ 52 ≤ m₂) (he : e₁ < e₂) :
    (m₁ : ℚ) * 2 ^ e₁ < m₂ * 2 ^ e₂ := by
  have hfirst : (m₁ : ℚ) < 2 ^ 53 := by exact_mod_cast hdigits₁
  have hsecond : (2 : ℚ) ^ 52 ≤ m₂ := by exact_mod_cast hdigits₂
  have hpower : (2 : ℚ) ^ (e₁ + 1) ≤ 2 ^ e₂ := zpow_le_zpow_right₀ one_le_two (by omega)
  calc
    (m₁ : ℚ) * 2 ^ e₁ < 2 ^ 53 * 2 ^ e₁ := by gcongr
    _ = 2 ^ 52 * 2 ^ (e₁ + 1) := by rw [zpow_add_one₀ two_ne_zero]; ring
    _ ≤ m₂ * 2 ^ e₂ := by gcongr

theorem compare_magnitude (h₁ : m₁ < 2 ^ 53 ∧ -1074 ≤ e₁ ∧ (e₁ = -1074 ∨ 2 ^ 52 ≤ m₁))
    (h₂ : m₂ < 2 ^ 53 ∧ -1074 ≤ e₂ ∧ (e₂ = -1074 ∨ 2 ^ 52 ≤ m₂)) :
    (compare e₁ e₂).then (compare m₁ m₂) = compare ((m₁ : ℚ) * 2 ^ e₁) (m₂ * 2 ^ e₂) := by
  rcases lt_trichotomy e₁ e₂ with he | rfl | he
  · rw [compare_lt_iff_lt.2 he, compare_lt_iff_lt.2 (magnitude_lt h₁.1 (by omega) he)]
    rfl
  · have hpower : (0 : ℚ) < 2 ^ e₁ := zpow_pos two_pos e₁
    rw [compare_eq_iff_eq.2 rfl, Ordering.then]
    rcases lt_trichotomy m₁ m₂ with hm | rfl | hm
    · have hscaled : (m₁ : ℚ) * 2 ^ e₁ < m₂ * 2 ^ e₁ := by gcongr
      rw [compare_lt_iff_lt.2 hm, compare_lt_iff_lt.2 hscaled]
    · rw [compare_eq_iff_eq.2 rfl, compare_eq_iff_eq.2 rfl]
    · have hscaled : (m₂ : ℚ) * 2 ^ e₁ < m₁ * 2 ^ e₁ := by gcongr
      rw [compare_gt_iff_gt.2 hm, compare_gt_iff_gt.2 hscaled]
  · rw [compare_gt_iff_gt.2 he, compare_gt_iff_gt.2 (magnitude_lt h₂.1 (by omega) he)]
    rfl

theorem compare_neg (a b : ℚ) : compare (-a) (-b) = (compare a b).swap := by
  rcases lt_trichotomy a b with h | rfl | h
  · rw [compare_lt_iff_lt.2 h, compare_gt_iff_gt.2 (neg_lt_neg h)]
    rfl
  · rw [compare_eq_iff_eq.2 rfl, compare_eq_iff_eq.2 rfl]
    rfl
  · rw [compare_gt_iff_gt.2 h, compare_lt_iff_lt.2 (neg_lt_neg h)]
    rfl

theorem value_positive {m : ℕ} {e : ℤ} (hm : 0 < m) :
    value (.finite .positive m e hm) = m * 2 ^ e :=
  one_mul _

theorem value_negative {m : ℕ} {e : ℤ} (hm : 0 < m) :
    value (.finite .negative m e hm) = -(m * 2 ^ e) := by
  simp [value, Sign.apply]

/-- The comparison of two numbers is that of what they stand for. -/
theorem compare_eq (hu : Canonical u) (hv : Canonical v) :
    u.compare v = some (compare (value u) (value v)) := by
  have hpositive : ∀ {m : ℕ} {e : ℤ} (hm : 0 < m), 0 < value (.finite .positive m e hm) := by
    intro m e hm
    rw [value_positive]
    positivity
  have hnegative : ∀ {m : ℕ} {e : ℤ} (hm : 0 < m), value (.finite .negative m e hm) < 0 := by
    intro m e hm
    rw [value_negative, neg_lt_zero]
    positivity
  match u, v, hu, hv with
  | .zero _, .zero _, _, _ => exact congrArg some (compare_eq_iff_eq.2 rfl).symm
  | .zero _, .finite .positive _ _ hm, _, _ =>
      exact congrArg some (compare_lt_iff_lt.2 (hpositive hm)).symm
  | .zero _, .finite .negative _ _ hm, _, _ =>
      exact congrArg some (compare_gt_iff_gt.2 (hnegative hm)).symm
  | .finite .positive _ _ hm, .zero _, _, _ =>
      exact congrArg some (compare_gt_iff_gt.2 (hpositive hm)).symm
  | .finite .negative _ _ hm, .zero _, _, _ =>
      exact congrArg some (compare_lt_iff_lt.2 (hnegative hm)).symm
  | .finite .positive _ _ hm₁, .finite .negative _ _ hm₂, _, _ =>
      exact congrArg some (compare_gt_iff_gt.2 ((hnegative hm₂).trans (hpositive hm₁))).symm
  | .finite .negative _ _ hm₁, .finite .positive _ _ hm₂, _, _ =>
      exact congrArg some (compare_lt_iff_lt.2 ((hnegative hm₁).trans (hpositive hm₂))).symm
  | .finite .positive _ _ hm₁, .finite .positive _ _ hm₂, hu, hv =>
      rw [value_positive hm₁, value_positive hm₂, ← compare_magnitude hu hv]
      rfl
  | .finite .negative _ _ hm₁, .finite .negative _ _ hm₂, hu, hv =>
      rw [value_negative hm₁, value_negative hm₂, compare_neg, ← compare_magnitude hu hv]
      rfl

theorem lt_iff_value (hx : x.isFinite = true) (hy : y.isFinite = true) :
    x < y ↔ value (unpack x) < value (unpack y) := by
  have hdefinition : x < y ↔ (unpack x).lt (unpack y) = true := decide_eq_true_iff
  rw [hdefinition, UnpackedFloat.lt, compare_eq (canonical_unpack hx) (canonical_unpack hy)]
  simp [compare_lt_iff_lt]

theorem le_iff_value (hx : x.isFinite = true) (hy : y.isFinite = true) :
    x ≤ y ↔ value (unpack x) ≤ value (unpack y) := by
  have hdefinition : x ≤ y ↔ (unpack x).le (unpack y) = true := decide_eq_true_iff
  rw [hdefinition, UnpackedFloat.le, compare_eq (canonical_unpack hx) (canonical_unpack hy)]
  rw [Option.any_some, Ordering.isLE_iff_ne_gt]
  exact compare_le_iff_le

end Comparison

end Abacus.Binary64
