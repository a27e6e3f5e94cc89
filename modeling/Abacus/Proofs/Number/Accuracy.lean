import Abacus.Proofs.Number.Sign

/-!
# The error of rounding

A result is rounded from the digits of it that are computed, and from where the exact result lies
above them. The double that comes out is off by no more than half a unit in the last of its 53
digits. That holds of quotients and square roots as well, of which there is no last digit.
-/

namespace Abacus.Binary64

open Float.Model (UnpackedFloat totalExponent)
open Float.Model.UnpackedFloat

/-- How far the exact number may lie above the significand that stands for it. -/
def Above : Accuracy → ℝ → Prop
  | .exact, gap => gap = 0
  | .inexact .lt, gap => 0 < gap ∧ gap < 1 / 2
  | .inexact .eq, gap => gap = 1 / 2
  | .inexact .gt, gap => 1 / 2 < gap ∧ gap < 1

/-- `v` is off from `y` by no more than half a unit in the last of 53 digits. -/
def Near (v y : ℝ) : Prop := 2 ^ 53 * |v - y| ≤ |y|

section Near

variable {v x y : ℝ}

theorem Near.apply (h : Near v y) (s : Sign) : Near (s.apply 1 * v) (s.apply 1 * y) := by
  have hone : |((s.apply 1 : ℤ) : ℝ)| = 1 := by
    cases s <;> simp [Sign.apply]
  rw [Near, ← mul_sub, abs_mul, abs_mul, hone, one_mul, one_mul]
  exact h

theorem near_zero : Near 0 0 := by
  simp [Near]

theorem Near.nonneg (h : Near v y) (hy : 0 ≤ y) : 0 ≤ v := by
  rw [Near, abs_of_nonneg hy] at h
  have hgap := neg_abs_le (v - y)
  linarith

/-- What is near to a square root has a square that is near to the number. -/
theorem Near.sq_sub_le (h : Near v √x) (hx : 0 ≤ x) : 2 ^ 106 * |v ^ 2 - x| ≤ (2 ^ 54 + 1) * x := by
  have hroot := Real.sqrt_nonneg x
  have hsquare := Real.sq_sqrt hx
  rw [Near, abs_of_nonneg hroot] at h
  generalize √x = root at *
  have hsplit : |v ^ 2 - x| = |v - root| * |v - root + 2 * root| := by
    rw [← abs_mul, ← hsquare]
    congr 1
    ring
  have hsum : 2 ^ 53 * |v - root + 2 * root| ≤ (2 ^ 54 + 1) * root := by
    have htriangle := abs_add_le (v - root) (2 * root)
    rw [abs_of_nonneg (by linarith : 0 ≤ 2 * root)] at htriangle
    linarith
  calc
    2 ^ 106 * |v ^ 2 - x| = 2 ^ 53 * |v - root| * (2 ^ 53 * |v - root + 2 * root|) := by
      rw [hsplit]
      ring
    _ ≤ root * ((2 ^ 54 + 1) * root) := mul_le_mul h hsum (by positivity) hroot
    _ = (2 ^ 54 + 1) * x := by
      rw [← hsquare]
      ring

end Near

section Significands

variable {m : ℕ} {accuracy : Accuracy} {y gap : ℝ}

theorem Above.nonneg (h : Above accuracy gap) : 0 ≤ gap := by
  unfold Above at h
  split at h <;> linarith

/-- Rounding to the nearest significand moves by half a unit at most. -/
theorem Above.abs_roundToNearestEven_sub_le (h : Above accuracy (y - m)) :
    |(accuracy.roundToNearestEven m : ℝ) - y| ≤ 1 / 2 := by
  unfold Above at h
  rw [abs_le]
  split at h <;> simp only [Accuracy.roundToNearestEven]
  · constructor <;> linarith
  · constructor <;> linarith
  · rcases Nat.mod_two_eq_zero_or_one m with hparity | hparity <;> rw [hparity] <;>
      push_cast <;> constructor <;> linarith
  · push_cast
    constructor <;> linarith

theorem accuracy_ofMantissaAndAccuracy (m : ℕ) (accuracy : Accuracy) :
    (ExtendedMantissa.ofMantissaAndAccuracy m accuracy).accuracy = accuracy := by
  unfold ExtendedMantissa.ofMantissaAndAccuracy
  split <;> rfl

/-- The digit that is cut off next decides on which side of one half the gap is. -/
theorem above_shiftRightOne {em : ExtendedMantissa} (h : Above em.accuracy (y - em.mantissa)) :
    Above em.shiftRightOne.accuracy (y / 2 - em.shiftRightOne.mantissa) := by
  obtain ⟨m, roundBit, stickyBit⟩ := em
  have hgap : y / 2 - (m / 2 : ℕ) = (y - m + (m % 2 : ℕ)) / 2 := by
    have hsplit : (m : ℝ) = 2 * (m / 2 : ℕ) + (m % 2 : ℕ) := by
      exact_mod_cast (Nat.div_add_mod m 2).symm
    rw [hsplit]
    ring
  change Above _ (y / 2 - (m / 2 : ℕ))
  change Above _ (y - m) at h
  rw [hgap]
  generalize y - m = gap at h
  rcases Nat.mod_two_eq_zero_or_one m with hparity | hparity <;> cases roundBit <;>
    cases stickyBit <;>
      simp [ExtendedMantissa.accuracy, ExtendedMantissa.shiftRightOne, Above, hparity] at h ⊢
  all_goals first
    | linarith
    | constructor <;> linarith

theorem above_shiftRight {em : ExtendedMantissa} (h : Above em.accuracy (y - em.mantissa)) (k : ℕ) :
    Above (em >>> k).accuracy (y / 2 ^ k - (em >>> k).mantissa) := by
  change Above (k.repeat ExtendedMantissa.shiftRightOne em).accuracy
    (y / 2 ^ k - (k.repeat ExtendedMantissa.shiftRightOne em).mantissa)
  induction k with
  | zero => simpa [Nat.repeat] using h
  | succ k ih =>
      rw [Nat.repeat, pow_succ, ← div_div]
      exact above_shiftRightOne ih

theorem abs_roundedDigits_sub_le (h : Above accuracy (y - m)) :
    |(roundedDigits m accuracy : ℝ) - y / 2 ^ (m.log2 - 52)| ≤ 1 / 2 := by
  have hfirst : Above (ExtendedMantissa.ofMantissaAndAccuracy m accuracy).accuracy
      (y - (ExtendedMantissa.ofMantissaAndAccuracy m accuracy).mantissa) := by
    rw [mantissa_ofMantissaAndAccuracy, accuracy_ofMantissaAndAccuracy]
    exact h
  exact (above_shiftRight hfirst (m.log2 - 52)).abs_roundToNearestEven_sub_le

theorem pow_log2_le (hm : m ≠ 0) : (2 : ℝ) ^ m.log2 ≤ m := by
  exact_mod_cast Nat.log2_self_le hm

end Significands

section Rounding

variable {s : Sign} {m : ℕ} {e : ℤ} {accuracy : Accuracy} {y : ℝ}

theorem near_of_digits {digits step : ℝ} (hstep : 0 < step) (hy : 2 ^ 52 ≤ y)
    (h : |digits - y| ≤ 1 / 2) : Near (digits * step) (y * step) := by
  have hpos : 0 < y := by linarith
  rw [Near, ← sub_mul, abs_mul, abs_mul, abs_of_pos hstep, abs_of_pos hpos, ← mul_assoc]
  apply mul_le_mul_of_nonneg_right _ hstep.le
  linarith

/-- A number of many digits is rounded to a normal one that is near to the exact number. -/
theorem exists_roundWithAccuracy_near (s : Sign) (hdigits : 52 ≤ m.log2)
    (hnormal : -1022 ≤ m.log2 + e) (h : Above accuracy (y - m)) :
    ∃ m' e' hm', roundWithAccuracy format s m e accuracy = .finite s m' e' hm' ∧
      m'.log2 = 52 ∧ m.log2 + e - 52 ≤ e' ∧ e' ≤ m.log2 + e - 51 ∧
      Near (m' * 2 ^ e') (y * 2 ^ e) := by
  obtain ⟨m', e', hm', hround, hdigits', hlow, hhigh, hvalue⟩ :=
    exists_roundWithAccuracy_eq (s := s) accuracy hdigits hnormal
  refine ⟨m', e', hm', hround, hdigits', hlow, hhigh, ?_⟩
  have hm : m ≠ 0 := by
    rintro rfl
    simp at hdigits
  obtain ⟨k, hk⟩ := Nat.exists_eq_add_of_le hdigits
  have hclose := abs_roundedDigits_sub_le h
  have hrounded : (m' : ℝ) * 2 ^ e' = roundedDigits m accuracy * 2 ^ (e + k) := by
    have hexponent : e' = (e' - (m.log2 + e - 52)).toNat + (e + k) := by omega
    rw [← hvalue, hexponent, zpow_add₀ two_ne_zero, zpow_natCast, ← hexponent]
    push_cast
    ring
  have hexact : y * 2 ^ e = y / 2 ^ k * 2 ^ (e + k) := by
    rw [zpow_add₀ two_ne_zero, zpow_natCast]
    field_simp
  have hlarge : 2 ^ 52 ≤ y / 2 ^ k := by
    rw [le_div_iff₀ (by positivity), ← pow_add, ← hk]
    have hgap := h.nonneg
    have hpow := pow_log2_le hm
    linarith
  rw [hrounded, hexact]
  have hshift : m.log2 - 52 = k := by omega
  rw [hshift] at hclose
  exact near_of_digits (zpow_pos two_pos _) hlarge hclose

theorem exists_round_near (s : Sign) (hm : m ≠ 0) (hlow : -1022 ≤ m.log2 + e) :
    ∃ m' e' hm', UnpackedFloat.round format s m e = .finite s m' e' hm' ∧ m'.log2 = 52 ∧
      m.log2 + e - 52 ≤ e' ∧ e' ≤ m.log2 + e - 51 ∧ Near (m' * 2 ^ e') (m * 2 ^ e) := by
  have hlog := log2_mul_two_pow hm (52 - m.log2)
  have hexact : Above .exact ((m : ℝ) * 2 ^ (52 - m.log2) - (m * 2 ^ (52 - m.log2) : ℕ)) := by
    simp [Above]
  obtain ⟨m', e', hm', hround, hdigits, hlow', hhigh', hnear⟩ :=
    exists_roundWithAccuracy_near (e := e - (52 - m.log2 : ℕ)) s (by omega) (by omega) hexact
  have hvalue : (m : ℝ) * 2 ^ (52 - m.log2) * 2 ^ (e - (52 - m.log2 : ℕ)) = m * 2 ^ e := by
    rw [zpow_sub₀ two_ne_zero, zpow_natCast]
    field_simp
  rw [hvalue] at hnear
  rw [round_eq_of_normal s hlow]
  exact ⟨m', e', hm', hround, hdigits, by omega, by omega, hnear⟩

end Rounding

section Quotients

variable {m₁ m₂ : ℕ} {e₁ e₂ : ℤ}

theorem above_accuracyOfFraction {num den : ℕ} (h : num < den) :
    Above (accuracyOfFraction num den) (num / den) := by
  have hden : (0 : ℝ) < den := by exact_mod_cast (Nat.zero_le num).trans_lt h
  have hless : (num : ℝ) / den < 1 := (div_lt_one hden).2 (by exact_mod_cast h)
  unfold accuracyOfFraction
  by_cases hzero : num = 0
  · simp [hzero, Above]
  rw [if_neg hzero]
  rcases lt_trichotomy (2 * num) den with hlt | heq | hgt
  · rw [Nat.compare_eq_lt.2 hlt]
    have hcast : (2 : ℝ) * num < den := by exact_mod_cast hlt
    have hpos : (0 : ℝ) < num := by exact_mod_cast Nat.pos_of_ne_zero hzero
    exact ⟨div_pos hpos hden, by rw [div_lt_iff₀ hden]; linarith⟩
  · rw [Nat.compare_eq_eq.2 heq]
    have hcast : (2 : ℝ) * num = den := by exact_mod_cast heq
    change (num : ℝ) / den = 1 / 2
    rw [div_eq_iff hden.ne']
    linarith
  · rw [Nat.compare_eq_gt.2 hgt]
    have hcast : (den : ℝ) < 2 * num := by exact_mod_cast hgt
    exact ⟨by rw [lt_div_iff₀ hden]; linarith, hless⟩

/-- The quotient of two normal numbers is near to the exact one. -/
theorem exists_div_near (s₁ s₂ : Sign) (hm₁ : 0 < m₁) (hm₂ : 0 < m₂) (hdigits₁ : m₁.log2 = 52)
    (hdigits₂ : m₂.log2 = 52) (he : -1021 ≤ e₁ - e₂) :
    ∃ m e hm, UnpackedFloat.div format (.finite s₁ m₁ e₁ hm₁) (.finite s₂ m₂ e₂ hm₂) =
      .finite (s₁ / s₂) m e hm ∧ m.log2 = 52 ∧ e₁ - e₂ - 53 ≤ e ∧ e ≤ e₁ - e₂ - 51 ∧
        Near (m * 2 ^ e) (m₁ * 2 ^ e₁ / (m₂ * 2 ^ e₂)) := by
  have hm₂' : (0 : ℝ) < m₂ := by exact_mod_cast hm₂
  have hlow := le_log2_quotient hdigits₁ hdigits₂ hm₂
  have hhigh : (m₁ * 2 ^ 53 / m₂).log2 ≤ 53 := by
    have hbounds₁ := bounds_of_log2 hdigits₁
    have hbounds₂ := bounds_of_log2 hdigits₂
    apply log2_le_of_lt
    rw [Nat.div_lt_iff_lt_mul hm₂]
    omega
  have habove : Above (accuracyOfFraction (m₁ * 2 ^ 53 % m₂) m₂)
      ((m₁ : ℝ) * 2 ^ 53 / m₂ - (m₁ * 2 ^ 53 / m₂ : ℕ)) := by
    have hsplit : (m₁ : ℝ) * 2 ^ 53 = m₂ * (m₁ * 2 ^ 53 / m₂ : ℕ) + (m₁ * 2 ^ 53 % m₂ : ℕ) := by
      exact_mod_cast (Nat.div_add_mod (m₁ * 2 ^ 53) m₂).symm
    have hgap : (m₁ : ℝ) * 2 ^ 53 / m₂ - (m₁ * 2 ^ 53 / m₂ : ℕ) = (m₁ * 2 ^ 53 % m₂ : ℕ) / m₂ := by
      rw [hsplit]
      field_simp
      ring
    rw [hgap]
    exact above_accuracyOfFraction (Nat.mod_lt _ hm₂)
  have hvalue : (m₁ : ℝ) * 2 ^ 53 / m₂ * 2 ^ (e₁ - e₂ - 53) = m₁ * 2 ^ e₁ / (m₂ * 2 ^ e₂) := by
    rw [zpow_sub₀ two_ne_zero, zpow_sub₀ two_ne_zero]
    field_simp
  obtain ⟨m, e, hm, hround, hdigits, hleast, hgreatest, hnear⟩ :=
    exists_roundWithAccuracy_near (e := e₁ - e₂ - 53) (s₁ / s₂) hlow (by omega) habove
  rw [hvalue] at hnear
  rw [div_normal hdigits₁ hdigits₂ he]
  exact ⟨m, e, hm, hround, hdigits, by omega, by omega, hnear⟩

end Quotients

section Roots

variable {m : ℕ} {e : ℤ}

/-- The gap above the whole part of a square root is compared with one half by what is left of the
number. -/
theorem above_sqrt (n : ℕ) :
    Above (if n - n.sqrt * n.sqrt = 0 then .exact
      else .inexact (if n - n.sqrt * n.sqrt ≤ n.sqrt then .lt else .gt)) (√n - n.sqrt) := by
  have hle := Nat.sqrt_le n
  have hlt := Nat.lt_succ_sqrt n
  generalize n.sqrt = root at *
  have hroot : (0 : ℝ) ≤ root := Nat.cast_nonneg root
  split_ifs with hzero hrest
  · have hsquare : (n : ℝ) = root ^ 2 := by
      have hn : n = root * root := by omega
      rw [hn]
      push_cast
      ring
    rw [hsquare, Real.sqrt_sq hroot]
    exact sub_self _
  · have hlow : (root : ℝ) ^ 2 < n := by
      have hn : root ^ 2 < n := by rw [pow_two]; omega
      exact_mod_cast hn
    have hhigh : (n : ℝ) < (root + 1 / 2) ^ 2 := by
      have hn : n ≤ root * root + root := by omega
      have hcast : (n : ℝ) ≤ root * root + root := by exact_mod_cast hn
      linarith
    have hleft := Real.lt_sqrt_of_sq_lt hlow
    have hright := (Real.sqrt_lt' (by linarith)).2 hhigh
    constructor <;> linarith
  · have hlow : ((root : ℝ) + 1 / 2) ^ 2 < n := by
      have hn : root * root + root + 1 ≤ n := by omega
      have hcast : (root : ℝ) * root + root + 1 ≤ n := by exact_mod_cast hn
      linarith
    have hhigh : (n : ℝ) < (root + 1) ^ 2 := by
      have hn : n < (root + 1) ^ 2 := by rw [pow_two]; exact hlt
      exact_mod_cast hn
    have hleft := Real.lt_sqrt_of_sq_lt hlow
    have hright := (Real.sqrt_lt' (by linarith)).2 hhigh
    constructor <;> linarith

/-- What is under the root is given zeros behind, so that its root has all the digits. -/
def radicand (m : ℕ) (e : ℤ) : ℕ := m * 2 ^ (e % 2 + 52).toNat

theorem sqrtCore_normal (hdigits : m.log2 = 52) (he : -1074 ≤ e) :
    sqrtCore format m e = ((radicand m e).sqrt, e / 2 - 26,
      if radicand m e - (radicand m e).sqrt * (radicand m e).sqrt = 0 then .exact
      else .inexact (if radicand m e - (radicand m e).sqrt * (radicand m e).sqrt ≤
        (radicand m e).sqrt then .lt else .gt)) := by
  have htarget : min (e.ediv 2) (format.targetExponent ((totalExponent m e + 1).ediv 2)) =
      e / 2 - 26 := by
    change min (e / 2) (max (((m.log2 : ℤ) + 1 + e + 1) / 2 - 53) (-1074)) = _
    omega
  have hshift : (e - 2 * (e / 2 - 26)).toNat = (e % 2 + 52).toNat := by omega
  delta sqrtCore
  dsimp only
  rw [htarget, hshift, Nat.shiftLeft_eq]
  rfl

theorem radicand_bounds (hdigits : m.log2 = 52) (e : ℤ) :
    2 ^ 104 ≤ radicand m e ∧ radicand m e < 2 ^ 106 := by
  obtain ⟨hlow, hhigh⟩ := bounds_of_log2 hdigits
  unfold radicand
  rcases Int.emod_two_eq_zero_or_one e with hparity | hparity <;> rw [hparity]
  · change 2 ^ 104 ≤ m * 2 ^ 52 ∧ m * 2 ^ 52 < 2 ^ 106
    omega
  · change 2 ^ 104 ≤ m * 2 ^ 53 ∧ m * 2 ^ 53 < 2 ^ 106
    omega

theorem log2_sqrt_radicand (hdigits : m.log2 = 52) (e : ℤ) : (radicand m e).sqrt.log2 = 52 := by
  obtain ⟨hlow, hhigh⟩ := radicand_bounds hdigits e
  have hleast : 2 ^ 52 ≤ (radicand m e).sqrt := Nat.le_sqrt'.2 (by omega)
  have hgreatest : (radicand m e).sqrt < 2 ^ 53 := Nat.sqrt_lt'.2 (by omega)
  exact (Nat.log2_eq_iff (by omega)).2 ⟨hleast, hgreatest⟩

theorem sqrt_radicand (m : ℕ) (e : ℤ) :
    √(radicand m e) * 2 ^ (e / 2 - 26) = √(m * 2 ^ e) := by
  have hpower : (0 : ℝ) < 2 ^ (e / 2 - 26) := zpow_pos two_pos _
  have hvalue : (m : ℝ) * 2 ^ e = radicand m e * (2 ^ (e / 2 - 26)) ^ 2 := by
    have hexponent : e = (e % 2 + 52).toNat + (e / 2 - 26) * 2 := by omega
    nth_rewrite 1 [hexponent]
    rw [radicand, zpow_add₀ two_ne_zero, zpow_mul, zpow_natCast, zpow_ofNat]
    push_cast
    ring
  rw [hvalue, Real.sqrt_mul (Nat.cast_nonneg _), Real.sqrt_sq hpower.le]

/-- The square root of a normal number is near to the exact one. -/
theorem exists_sqrt_near (hm : 0 < m) (hdigits : m.log2 = 52) (he : -1074 ≤ e) :
    ∃ m' e' hm', UnpackedFloat.sqrt format (.finite .positive m e hm) =
      .finite .positive m' e' hm' ∧ m'.log2 = 52 ∧ e / 2 - 26 ≤ e' ∧ e' ≤ e / 2 - 25 ∧
        Near (m' * 2 ^ e') √(m * 2 ^ e) := by
  have hroot := log2_sqrt_radicand hdigits e
  obtain ⟨m', e', hm', hround, hdigits', hlow, hhigh, hnear⟩ :=
    exists_roundWithAccuracy_near (e := e / 2 - 26) .positive (by omega) (by omega)
      (above_sqrt (radicand m e))
  rw [sqrt_radicand] at hnear
  refine ⟨m', e', hm', ?_, hdigits', by omega, by omega, hnear⟩
  delta UnpackedFloat.sqrt
  dsimp only
  rw [sqrtCore_normal hdigits he]
  exact hround

end Roots

end Abacus.Binary64
