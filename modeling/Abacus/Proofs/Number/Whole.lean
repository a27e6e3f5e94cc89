import Mathlib.Data.Rat.Lemmas
import Mathlib.Algebra.Order.Field.Rat
import Mathlib.Tactic.FieldSimp
import Mathlib.Tactic.LinearCombination
import Abacus.Proofs.Number.Packing

/-!
# Whole numbers as doubles

The integers up to `2 ^ 53` are doubles, and an operation on doubles that are such integers gives
the exact result if that is such an integer too. What has to be rounded then has no more than 53
digits that matter.
-/

namespace Abacus.Binary64

open Float.Model (UnpackedFloat totalExponent)
open Float.Model.UnpackedFloat

section Rounding

variable {s : Sign} {m c j k : ℕ} {e : ℤ}

theorem log2_mul_two_pow (hm : m ≠ 0) (k : ℕ) : (m * 2 ^ k).log2 = m.log2 + k := by
  induction k with
  | zero => simp
  | succ k ih =>
      have hne : m * 2 ^ k ≠ 0 := Nat.mul_ne_zero hm (Nat.two_pow_pos k).ne'
      rw [pow_succ', Nat.mul_left_comm, Nat.log2_two_mul hne, ih, Nat.add_assoc]

theorem ne_zero_of_log2 (hc : c.log2 = 52) : c ≠ 0 := by
  rintro rfl
  simp at hc

theorem shiftRight_scaled (c k : ℕ) :
    (⟨c * 2 ^ k, false, false⟩ : ExtendedMantissa) >>> k = ⟨c, false, false⟩ := by
  change k.repeat ExtendedMantissa.shiftRightOne _ = _
  induction k generalizing c with
  | zero => simp [Nat.repeat]
  | succ k ih =>
      have hstep := ih (c * 2)
      rw [mul_assoc, ← pow_succ'] at hstep
      rw [Nat.repeat, hstep]
      simp [ExtendedMantissa.shiftRightOne]

/-- Zeros behind the significand are cut off without loss. -/
theorem shiftToTargetExponent_scaled (hc : c.log2 = 52) (he : -1074 ≤ e + k) :
    shiftToTargetExponent format (c * 2 ^ k) e .exact = (⟨c, false, false⟩, e + k) := by
  have hlog : (c * 2 ^ k).log2 = 52 + k := by
    rw [log2_mul_two_pow (ne_zero_of_log2 hc), hc]
  have hshift : (format.targetExponent (totalExponent (c * 2 ^ k) e) - e).toNat = k := by
    change (max (((c * 2 ^ k).log2 : ℤ) + 1 + e - 53) (-1074) - e).toNat = k
    rw [hlog]
    omega
  rw [shiftToTargetExponent, shiftToExponent, hshift, ExtendedMantissa.ofMantissaAndAccuracy,
    shiftRight_scaled]

theorem roundWithAccuracy_scaled (s : Sign) (hc : c.log2 = 52) (he : -1074 ≤ e + k) :
    roundWithAccuracy format s (c * 2 ^ k) e .exact =
      .finite s c (e + k) (Nat.pos_of_ne_zero (ne_zero_of_log2 hc)) := by
  have hrounded : (⟨c, false, false⟩ : ExtendedMantissa).roundedMantissa = c := rfl
  have hsecond : shiftToTargetExponent format c (e + k) .exact =
      (⟨c, false, false⟩, e + k) := by
    have hscaled := shiftToTargetExponent_scaled (e := e + k) (k := 0) hc (by omega)
    simpa using hscaled
  delta roundWithAccuracy
  dsimp only
  rw [shiftToTargetExponent_scaled hc he, hrounded, hsecond, dif_neg (ne_zero_of_log2 hc)]

/-- A number of many digits needs no more of them before it is rounded. -/
theorem round_eq_roundWithAccuracy (s : Sign) (hm : 52 ≤ m.log2) :
    UnpackedFloat.round format s m e = roundWithAccuracy format s m e .exact := by
  have hshift : (e - format.targetExponent (totalExponent m e)).toNat = 0 := by
    change (e - max ((m.log2 : ℤ) + 1 + e - 53) (-1074)).toNat = 0
    omega
  simp [UnpackedFloat.round, decreaseExponent, hshift]

/-- Rounding is exact for a number of no more than 53 digits, whatever zeros there are at either
end. -/
theorem round_scaled (s : Sign) (hc : c.log2 = 52) (hvalue : m * 2 ^ j = c * 2 ^ k)
    (he : -1074 ≤ e + k - j) :
    UnpackedFloat.round format s m e =
      .finite s c (e + k - j) (Nat.pos_of_ne_zero (ne_zero_of_log2 hc)) := by
  have hm : m ≠ 0 := by
    rintro rfl
    rw [Nat.zero_mul, eq_comm, Nat.mul_eq_zero] at hvalue
    exact hvalue.elim (ne_zero_of_log2 hc) (Nat.two_pow_pos k).ne'
  have hlog : m.log2 + j = 52 + k := by
    rw [← log2_mul_two_pow hm, hvalue, log2_mul_two_pow (ne_zero_of_log2 hc), hc]
  have hshift : (e - format.targetExponent (totalExponent m e)).toNat = j - k := by
    change (e - max ((m.log2 : ℤ) + 1 + e - 53) (-1074)).toNat = j - k
    omega
  have hscaled : m * 2 ^ (j - k) = c * 2 ^ (k - j) := by
    apply Nat.mul_right_cancel (Nat.two_pow_pos (min j k))
    rw [mul_assoc, mul_assoc, ← pow_add, ← pow_add]
    convert hvalue using 3 <;> omega
  simp only [UnpackedFloat.round, decreaseExponent, hshift, Nat.shiftLeft_eq, hscaled]
  rw [roundWithAccuracy_scaled s hc (by omega)]
  exact finite_congr rfl (by omega)

end Rounding

/-- A number in binary form that is equal to an integer. If it is not zero, all the digits of its
significand are there, and so there is only one such number. -/
def Denotes : UnpackedFloat → ℤ → Prop
  | .zero _, n => n = 0
  | .finite s m e _, n => m.log2 = 52 ∧ -52 ≤ e ∧ e ≤ 1 ∧ (s.apply m : ℚ) * 2 ^ e = n
  | _, _ => False

section Values

variable {s : Sign} {m : ℕ} {e a n : ℤ}

theorem apply_eq_mul (s : Sign) (n : ℤ) : s.apply n = s.apply 1 * n := by
  cases s
  · exact (neg_one_mul n).symm
  · exact (one_mul n).symm

@[simp] theorem natAbs_apply (s : Sign) (n : ℤ) : (s.apply n).natAbs = n.natAbs := by
  cases s
  · exact Int.natAbs_neg n
  · rfl

theorem magnitude_eq (h : (s.apply m : ℚ) * 2 ^ e = n) : (m : ℚ) * 2 ^ e = n.natAbs := by
  have hpower : (0 : ℚ) < 2 ^ e := zpow_pos two_pos e
  have habs := congrArg (|·|) h
  simp only [abs_mul, abs_of_pos hpower, ← Int.cast_abs, Int.abs_eq_natAbs, natAbs_apply] at habs
  exact habs

theorem mul_zpow_eq {k : ℕ} :
    (m : ℚ) * 2 ^ e = k ↔ m * 2 ^ e.toNat = k * 2 ^ (-e).toNat := by
  have hsplit : e = (e.toNat : ℤ) - ((-e).toNat : ℤ) := by omega
  nth_rewrite 1 [hsplit]
  rw [zpow_sub₀ two_ne_zero, zpow_natCast, zpow_natCast, ← mul_div_assoc,
    div_eq_iff (by positivity)]
  norm_cast

theorem value_scaled {c j k : ℕ} (h : m * 2 ^ j = c * 2 ^ k) (e : ℤ) :
    (c : ℚ) * 2 ^ (e + k - j) = m * 2 ^ e := by
  have hcast : (m : ℚ) * 2 ^ j = c * 2 ^ k := by exact_mod_cast h
  rw [zpow_sub₀ two_ne_zero, zpow_add₀ two_ne_zero, zpow_natCast, zpow_natCast, ← mul_div_assoc,
    div_eq_iff (by positivity)]
  linear_combination (-(2 : ℚ) ^ e) * hcast

theorem exists_significand {n : ℕ} (hn : n ≠ 0) (hsize : n ≤ 2 ^ 53) :
    ∃ c k, c.log2 = 52 ∧ k ≤ 53 ∧ c * 2 ^ k = n * 2 ^ 52 := by
  rcases hsize.lt_or_eq with hlt | rfl
  · have hlog : n.log2 < 53 := (Nat.log2_lt hn).2 hlt
    refine ⟨n * 2 ^ (52 - n.log2), n.log2, ?_, by omega, ?_⟩
    · rw [log2_mul_two_pow hn]
      omega
    · rw [mul_assoc, ← pow_add, Nat.sub_add_cancel (by omega)]
  · exact ⟨2 ^ 52, 53, Nat.log2_two_pow, le_rfl, by decide⟩

/-- Rounding is exact for the integers up to `2 ^ 53`. -/
theorem denotes_round (hvalue : (s.apply m : ℚ) * 2 ^ e = n) (hn : n ≠ 0)
    (hsize : n.natAbs ≤ 2 ^ 53) : Denotes (UnpackedFloat.round format s m e) n := by
  obtain ⟨c, k, hc, hk, hsame⟩ := exists_significand (Int.natAbs_ne_zero.2 hn) hsize
  have hcleared := mul_zpow_eq.1 (magnitude_eq hvalue)
  have hscaled : m * 2 ^ (e.toNat + 52) = c * 2 ^ (k + (-e).toNat) := by
    rw [pow_add, pow_add, ← mul_assoc, ← mul_assoc, hcleared, hsame]
    ring
  rw [round_scaled s hc hscaled (by omega)]
  refine ⟨hc, by omega, by omega, ?_⟩
  calc
    ((s.apply c : ℤ) : ℚ) * 2 ^ (e + ((k + (-e).toNat : ℕ) : ℤ) - ((e.toNat + 52 : ℕ) : ℤ)) =
        s.apply 1 * (m * 2 ^ e) := by
      rw [← value_scaled hscaled e, apply_eq_mul s c]
      push_cast
      ring
    _ = s.apply m * 2 ^ e := by
      rw [apply_eq_mul s m]
      push_cast
      ring
    _ = n := hvalue

theorem normalize_of_neg (ha : a < 0) (e : ℤ) (zeroSign : Sign) :
    UnpackedFloat.normalize format a e zeroSign =
      UnpackedFloat.round format .negative (-a).toNat e := by
  rw [UnpackedFloat.normalize, Int.compare_eq_lt.2 ha]

theorem normalize_of_pos (ha : 0 < a) (e : ℤ) (zeroSign : Sign) :
    UnpackedFloat.normalize format a e zeroSign =
      UnpackedFloat.round format .positive a.toNat e := by
  rw [UnpackedFloat.normalize, Int.compare_eq_gt.2 ha]

theorem denotes_normalize (hvalue : (a : ℚ) * 2 ^ e = n) (hsize : n.natAbs ≤ 2 ^ 53)
    (zeroSign : Sign) : Denotes (UnpackedFloat.normalize format a e zeroSign) n := by
  have hpower : (2 : ℚ) ^ e ≠ 0 := zpow_ne_zero e two_ne_zero
  have hzero : n = 0 ↔ a = 0 := by
    constructor
    · rintro rfl
      simpa [hpower] using hvalue
    · rintro rfl
      simpa using hvalue.symm
  rcases lt_trichotomy a 0 with ha | ha | ha
  · have happly : Sign.negative.apply ((-a).toNat : ℤ) = a := by
      change -((-a).toNat : ℤ) = a
      omega
    rw [normalize_of_neg ha]
    refine denotes_round ?_ (fun hn => ha.ne (hzero.1 hn)) hsize
    rw [happly]
    exact hvalue
  · have hnone : UnpackedFloat.normalize format a e zeroSign = .zero zeroSign := by
      rw [UnpackedFloat.normalize, ha]
      rfl
    rw [hnone]
    exact hzero.2 ha
  · have happly : Sign.positive.apply (a.toNat : ℤ) = a := by
      change (a.toNat : ℤ) = a
      omega
    rw [normalize_of_pos ha]
    refine denotes_round ?_ (fun hn => ha.ne' (hzero.1 hn)) hsize
    rw [happly]
    exact hvalue

end Values

section Operations

variable {u v : UnpackedFloat} {a b n : ℤ}

theorem Denotes.zero_or_finite (h : Denotes u n) :
    (∃ s, u = .zero s ∧ n = 0) ∨
      ∃ s m e hm, u = .finite s m e hm ∧ m.log2 = 52 ∧ -52 ≤ e ∧ e ≤ 1 ∧ n ≠ 0 ∧
        (s.apply m : ℚ) * 2 ^ e = n := by
  cases u with
  | notANumber => exact h.elim
  | infinity s => exact h.elim
  | zero s => exact Or.inl ⟨s, rfl, h⟩
  | finite s m e hm =>
      obtain ⟨hdigits, hlow, hhigh, hvalue⟩ := h
      refine Or.inr ⟨s, m, e, hm, rfl, hdigits, hlow, hhigh, ?_, hvalue⟩
      rintro rfl
      have happly : s.apply m ≠ 0 := by
        rw [← Int.natAbs_ne_zero, natAbs_apply]
        omega
      have hpower : (2 : ℚ) ^ e ≠ 0 := zpow_ne_zero e two_ne_zero
      exact mul_ne_zero (Int.cast_ne_zero.2 happly) hpower (by simpa using hvalue)

theorem denotes_pack (h : Denotes u n) : Denotes (unpack (pack u)) n := by
  obtain ⟨s, rfl, hn⟩ | ⟨s, m, e, hm, rfl, hdigits, hlow, hhigh, -, -⟩ := h.zero_or_finite
  · rw [unpack_pack_zero]
    exact hn
  · rw [unpack_pack_normal hdigits (by omega) (by omega)]
    exact h

theorem neg_apply (s : Sign) (n : ℤ) : (-s).apply n = -s.apply n := by
  cases s
  · exact (neg_neg n).symm
  · rfl

theorem denotes_neg (h : Denotes u n) : Denotes u.neg (-n) := by
  obtain ⟨s, rfl, rfl⟩ | ⟨s, m, e, hm, rfl, hdigits, hlow, hhigh, -, hvalue⟩ := h.zero_or_finite
  · exact rfl
  · refine ⟨hdigits, hlow, hhigh, ?_⟩
    rw [neg_apply]
    push_cast
    rw [← hvalue]
    ring

theorem denotes_abs (h : Denotes u n) : Denotes u.abs |n| := by
  obtain ⟨s, rfl, rfl⟩ | ⟨s, m, e, hm, rfl, hdigits, hlow, hhigh, -, hvalue⟩ := h.zero_or_finite
  · exact rfl
  · refine ⟨hdigits, hlow, hhigh, ?_⟩
    rw [Int.abs_eq_natAbs]
    exact magnitude_eq hvalue

theorem shiftLeft_value (s : Sign) (m : ℕ) {e target : ℤ} (h : target ≤ e) :
    (s.apply (m <<< (e - target).toNat : ℕ) : ℚ) * 2 ^ target = s.apply m * 2 ^ e := by
  have hsplit : e = ((e - target).toNat : ℤ) + target := by omega
  nth_rewrite 2 [hsplit]
  rw [zpow_add₀ two_ne_zero, zpow_natCast, Nat.shiftLeft_eq, apply_eq_mul, apply_eq_mul s m]
  push_cast
  ring

theorem denotes_add (hu : Denotes u a) (hv : Denotes v b) (hsize : (a + b).natAbs ≤ 2 ^ 53) :
    Denotes (UnpackedFloat.add format u v) (a + b) := by
  obtain ⟨s₁, rfl, rfl⟩ | ⟨s₁, m₁, e₁, hm₁, rfl, -, -, -, -, hvalue₁⟩ := hu.zero_or_finite <;>
    obtain ⟨s₂, rfl, rfl⟩ | ⟨s₂, m₂, e₂, hm₂, rfl, -, -, -, -, hvalue₂⟩ := hv.zero_or_finite
  · cases s₁ <;> cases s₂ <;> rfl
  · rw [zero_add]
    exact hv
  · rw [add_zero]
    exact hu
  · have hadd : UnpackedFloat.add format (.finite s₁ m₁ e₁ hm₁) (.finite s₂ m₂ e₂ hm₂) =
        UnpackedFloat.normalize format
          (s₁.apply (m₁ <<< (e₁ - min e₁ e₂).toNat : ℕ) +
            s₂.apply (m₂ <<< (e₂ - min e₁ e₂).toNat : ℕ)) (min e₁ e₂) .positive := rfl
    rw [hadd]
    refine denotes_normalize ?_ hsize .positive
    rw [Int.cast_add, add_mul, shiftLeft_value s₁ m₁ (min_le_left e₁ e₂),
      shiftLeft_value s₂ m₂ (min_le_right e₁ e₂), hvalue₁, hvalue₂, Int.cast_add]

theorem sub_eq_add_neg (u v : UnpackedFloat) :
    UnpackedFloat.sub format u v = UnpackedFloat.add format u v.neg := by
  cases u <;> cases v <;> try rfl
  case finite.finite s₁ m₁ e₁ _ s₂ m₂ e₂ _ =>
    simp only [UnpackedFloat.sub, UnpackedFloat.neg, UnpackedFloat.add, neg_apply]
    rfl

theorem denotes_sub (hu : Denotes u a) (hv : Denotes v b) (hsize : (a - b).natAbs ≤ 2 ^ 53) :
    Denotes (UnpackedFloat.sub format u v) (a - b) := by
  rw [sub_eq_add_neg, Int.sub_eq_add_neg]
  exact denotes_add hu (denotes_neg hv) hsize

theorem mul_apply (s t : Sign) (a b : ℤ) : (s * t).apply (a * b) = s.apply a * t.apply b := by
  cases s <;> cases t
  · exact (neg_mul_neg a b).symm
  · exact (neg_mul a b).symm
  · exact (mul_neg a b).symm
  · rfl

theorem denotes_mul (hu : Denotes u a) (hv : Denotes v b) (hsize : (a * b).natAbs ≤ 2 ^ 53) :
    Denotes (UnpackedFloat.mul format u v) (a * b) := by
  obtain ⟨s₁, rfl, rfl⟩ | ⟨s₁, m₁, e₁, hm₁, rfl, hdigits₁, -, -, ha, hvalue₁⟩ :=
      hu.zero_or_finite <;>
    obtain ⟨s₂, rfl, rfl⟩ | ⟨s₂, m₂, e₂, hm₂, rfl, hdigits₂, -, -, hb, hvalue₂⟩ :=
      hv.zero_or_finite
  · exact zero_mul 0
  · exact zero_mul b
  · exact mul_zero a
  · have hmul : UnpackedFloat.mul format (.finite s₁ m₁ e₁ hm₁) (.finite s₂ m₂ e₂ hm₂) =
        roundWithAccuracy format (s₁ * s₂) (m₁ * m₂) (e₁ + e₂) .exact := rfl
    have hdigits : 52 ≤ (m₁ * m₂).log2 := by
      rw [Nat.le_log2 (Nat.mul_pos hm₁ hm₂).ne']
      exact (bounds_of_log2 hdigits₁).1.trans (Nat.le_mul_of_pos_right m₁ hm₂)
    rw [hmul, ← round_eq_roundWithAccuracy _ hdigits]
    refine denotes_round ?_ (mul_ne_zero ha hb) hsize
    push_cast [mul_apply]
    rw [zpow_add₀ two_ne_zero, mul_mul_mul_comm, hvalue₁, hvalue₂]

theorem div_apply_mul (s t : Sign) (a b : ℤ) : (s / t).apply a * t.apply b = s.apply (a * b) := by
  cases s <;> cases t
  · exact mul_neg a b
  · exact neg_mul a b
  · exact neg_mul_neg a b
  · rfl

/-- Two significands with all their digits are divided with 53 digits behind the point. -/
theorem div_normal {s₁ s₂ : Sign} {m₁ m₂ : ℕ} {e₁ e₂ : ℤ} {hm₁ : 0 < m₁} {hm₂ : 0 < m₂}
    (hdigits₁ : m₁.log2 = 52) (hdigits₂ : m₂.log2 = 52) (he : -1021 ≤ e₁ - e₂) :
    UnpackedFloat.div format (.finite s₁ m₁ e₁ hm₁) (.finite s₂ m₂ e₂ hm₂) =
      roundWithAccuracy format (s₁ / s₂) (m₁ * 2 ^ 53 / m₂) (e₁ - e₂ - 53)
        (accuracyOfFraction (m₁ * 2 ^ 53 % m₂) m₂) := by
  have htarget : min (e₁ - e₂) (format.targetExponent
      (totalExponent m₁ e₁ - totalExponent m₂ e₂)) = e₁ - e₂ - 53 := by
    change min (e₁ - e₂) (max ((m₁.log2 : ℤ) + 1 + e₁ - (m₂.log2 + 1 + e₂) - 53) (-1074)) = _
    omega
  have hshift : (e₁ - e₂ - (e₁ - e₂ - 53)).toNat = 53 := by omega
  delta UnpackedFloat.div divCore
  dsimp only
  rw [htarget, hshift, Nat.shiftLeft_eq]

section Quotients

variable {s₁ s₂ : Sign} {m₁ m₂ k quotient : ℕ} {e₁ e₂ : ℤ}

theorem quotient_scaled (hk : e₁ - e₂ - 53 = -k)
    (hvalue : (m₁ : ℚ) * 2 ^ e₁ = quotient * (m₂ * 2 ^ e₂)) :
    m₁ * 2 ^ 53 = quotient * 2 ^ k * m₂ := by
  have hpower : (2 : ℚ) ^ e₁ * 2 ^ k = 2 ^ e₂ * 2 ^ 53 := by
    rw [← zpow_natCast, ← zpow_natCast, ← zpow_add₀ two_ne_zero, ← zpow_add₀ two_ne_zero]
    congr 1
    omega
  have hcast : (m₁ * 2 ^ 53 : ℚ) = quotient * 2 ^ k * m₂ := by
    apply mul_right_cancel₀ (zpow_ne_zero e₁ two_ne_zero : (2 : ℚ) ^ e₁ ≠ 0)
    linear_combination 2 ^ 53 * hvalue - quotient * m₂ * hpower
  exact_mod_cast hcast

theorem le_log2_quotient (hdigits₁ : m₁.log2 = 52) (hdigits₂ : m₂.log2 = 52) (hm₂ : 0 < m₂) :
    52 ≤ (m₁ * 2 ^ 53 / m₂).log2 := by
  have hlow := (bounds_of_log2 hdigits₁).1
  have hhigh := (bounds_of_log2 hdigits₂).2
  have hlarge : 2 ^ 52 ≤ m₁ * 2 ^ 53 / m₂ := by
    rw [Nat.le_div_iff_mul_le hm₂]
    exact Nat.mul_le_mul hlow hhigh.le
  have hpositive : m₁ * 2 ^ 53 / m₂ ≠ 0 := ((Nat.two_pow_pos 52).trans_le hlarge).ne'
  exact (Nat.le_log2 hpositive).2 hlarge

theorem quotient_value (hb : b ≠ 0) (hk : e₁ - e₂ - 53 = -k)
    (hwhole : m₁ * 2 ^ 53 = quotient * m₂)
    (hvalue₁ : (s₁.apply m₁ : ℚ) * 2 ^ e₁ = (n * b : ℤ))
    (hvalue₂ : (s₂.apply m₂ : ℚ) * 2 ^ e₂ = b) :
    ((s₁ / s₂).apply quotient : ℚ) * 2 ^ (-(k : ℤ)) = n := by
  have hpower : (2 : ℚ) ^ (-(k : ℤ)) * 2 ^ e₂ * 2 ^ 53 = 2 ^ e₁ := by
    rw [← zpow_natCast, ← zpow_add₀ two_ne_zero, ← zpow_add₀ two_ne_zero]
    congr 1
    omega
  have hsign : (s₁ / s₂).apply quotient * s₂.apply m₂ = s₁.apply m₁ * 2 ^ 53 := by
    rw [div_apply_mul, ← Nat.cast_mul, ← hwhole, apply_eq_mul, apply_eq_mul s₁ m₁]
    push_cast
    ring
  have hcast : ((s₁ / s₂).apply quotient : ℚ) * s₂.apply m₂ = s₁.apply m₁ * 2 ^ 53 := by
    exact_mod_cast hsign
  apply mul_right_cancel₀ (Int.cast_ne_zero.2 hb : (b : ℚ) ≠ 0)
  calc
    ((s₁ / s₂).apply quotient : ℚ) * 2 ^ (-(k : ℤ)) * b =
        (s₁ / s₂).apply quotient * s₂.apply m₂ * (2 ^ (-(k : ℤ)) * 2 ^ e₂) := by
      rw [← hvalue₂]
      ring
    _ = s₁.apply m₁ * (2 ^ (-(k : ℤ)) * 2 ^ e₂ * 2 ^ 53) := by
      rw [hcast]
      ring
    _ = n * b := by
      rw [hpower, hvalue₁, Int.cast_mul]

end Quotients

/-- A quotient that comes out even is exact. -/
theorem denotes_div (hu : Denotes u (n * b)) (hv : Denotes v b) (hb : b ≠ 0)
    (hsize : n.natAbs ≤ 2 ^ 53) : Denotes (UnpackedFloat.div format u v) n := by
  obtain ⟨s₂, rfl, rfl⟩ | ⟨s₂, m₂, e₂, hm₂, rfl, hdigits₂, hlow₂, hhigh₂, -, hvalue₂⟩ :=
    hv.zero_or_finite
  · exact absurd rfl hb
  obtain ⟨s₁, rfl, hzero⟩ | ⟨s₁, m₁, e₁, hm₁, rfl, hdigits₁, hlow₁, hhigh₁, hne, hvalue₁⟩ :=
    hu.zero_or_finite
  · exact (mul_eq_zero.1 hzero).resolve_right hb
  have hn : n ≠ 0 := left_ne_zero_of_mul hne
  obtain ⟨k, hk⟩ : ∃ k : ℕ, e₁ - e₂ - 53 = -k := ⟨(e₂ - e₁ + 53).toNat, by omega⟩
  have hmagnitude : (m₁ : ℚ) * 2 ^ e₁ = n.natAbs * (m₂ * 2 ^ e₂) := by
    rw [magnitude_eq hvalue₁, magnitude_eq hvalue₂, Int.natAbs_mul, Nat.cast_mul]
  have hwhole := quotient_scaled hk hmagnitude
  have hdigits := le_log2_quotient hdigits₁ hdigits₂ hm₂
  rw [div_normal hdigits₁ hdigits₂ (by omega), hk]
  rw [hwhole, Nat.mul_div_cancel _ hm₂] at hdigits ⊢
  rw [Nat.mul_mod_left]
  change Denotes (roundWithAccuracy format (s₁ / s₂) (n.natAbs * 2 ^ k) (-k) .exact) n
  rw [← round_eq_roundWithAccuracy _ hdigits]
  exact denotes_round (quotient_value hb hk hwhole hvalue₁ hvalue₂) hn hsize

theorem tmod_eq_apply {s : Sign} (ha : s.apply a.natAbs = a) (b : ℤ) :
    a.tmod b = s.apply (a.natAbs % b.natAbs : ℕ) := by
  have hmagnitude : ((a.natAbs : ℤ)).tmod b = (a.natAbs % b.natAbs : ℕ) := by
    rcases b.natAbs_eq with hb | hb
    · rw [hb, ← Int.ofNat_tmod, Int.natAbs_natCast]
    · rw [hb, Int.tmod_neg, ← Int.ofNat_tmod, Int.natAbs_neg, Int.natAbs_natCast]
  cases s with
  | positive =>
      change (a.natAbs : ℤ) = a at ha
      rw [← hmagnitude, ha]
      rfl
  | negative =>
      change -(a.natAbs : ℤ) = a at ha
      change _ = -((a.natAbs % b.natAbs : ℕ) : ℤ)
      rw [← hmagnitude, ← Int.neg_tmod, ha]

theorem apply_natAbs {s : Sign} {m : ℕ} {e : ℤ} (h : (s.apply m : ℚ) * 2 ^ e = n) :
    s.apply n.natAbs = n := by
  have hcast : (s.apply n.natAbs : ℚ) = n := by
    have hmagnitude : ((n.natAbs : ℤ) : ℚ) = m * 2 ^ e := (magnitude_eq h).symm
    rw [apply_eq_mul, Int.cast_mul, hmagnitude, ← h, apply_eq_mul s m, Int.cast_mul, mul_assoc]
    rfl
  exact_mod_cast hcast

theorem denotes_remainder (hu : Denotes u a) (hv : Denotes v b) (hb : b ≠ 0)
    (hsize : (a.tmod b).natAbs ≤ 2 ^ 53) : Denotes (Binary.remainder format u v) (a.tmod b) := by
  obtain ⟨s₂, rfl, rfl⟩ | ⟨s₂, m₂, e₂, hm₂, rfl, -, -, -, -, hvalue₂⟩ := hv.zero_or_finite
  · exact absurd rfl hb
  obtain ⟨s₁, rfl, rfl⟩ | ⟨s₁, m₁, e₁, hm₁, rfl, -, -, -, -, hvalue₁⟩ := hu.zero_or_finite
  · exact Int.zero_tmod b
  have hsign := tmod_eq_apply (apply_natAbs hvalue₁) b
  let left : ℕ := m₁ <<< (e₁ - min e₁ e₂).toNat
  let right : ℕ := m₂ <<< (e₂ - min e₁ e₂).toNat
  have hleft : (left : ℚ) * 2 ^ min e₁ e₂ = a.natAbs :=
    magnitude_eq ((shiftLeft_value s₁ m₁ (min_le_left e₁ e₂)).trans hvalue₁)
  have hright : (right : ℚ) * 2 ^ min e₁ e₂ = b.natAbs :=
    magnitude_eq ((shiftLeft_value s₂ m₂ (min_le_right e₁ e₂)).trans hvalue₂)
  have hrest : ((left % right : ℕ) : ℚ) * 2 ^ min e₁ e₂ = (a.natAbs % b.natAbs : ℕ) := by
    rw [mul_zpow_eq] at hleft hright ⊢
    rw [← Nat.mul_mod_mul_right, hleft, hright, Nat.mul_mod_mul_right]
  have hremainder : Binary.remainder format (.finite s₁ m₁ e₁ hm₁) (.finite s₂ m₂ e₂ hm₂) =
      if left % right = 0 then .zero s₁
      else UnpackedFloat.round format s₁ (left % right) (min e₁ e₂) := rfl
  rw [hremainder]
  split_ifs with hzero
  · rw [hzero, Nat.cast_zero, zero_mul] at hrest
    have hnone : a.natAbs % b.natAbs = 0 := by exact_mod_cast hrest.symm
    rw [hsign, hnone]
    cases s₁ <;> rfl
  · refine denotes_round ?_ ?_ hsize
    · rw [hsign, apply_eq_mul, apply_eq_mul s₁ (a.natAbs % b.natAbs : ℕ), Int.cast_mul,
        Int.cast_mul, mul_assoc]
      exact congrArg _ hrest
    · intro hnone
      rw [← Int.natAbs_eq_zero, Int.natAbs_tmod] at hnone
      rw [hnone] at hrest
      have hpower : (2 : ℚ) ^ min e₁ e₂ ≠ 0 := zpow_ne_zero _ two_ne_zero
      have hnothing : ((left % right : ℕ) : ℚ) = 0 :=
        (mul_eq_zero.1 (hrest.trans Nat.cast_zero)).resolve_right hpower
      exact hzero (Nat.cast_eq_zero.1 hnothing)

end Operations

section Doubles

variable {x y : Float} {a b n : ℤ}

theorem isFinite_of_denotes (h : Denotes (unpack x) n) : x.isFinite = true := by
  change (unpack x).isFinite = true
  obtain ⟨s, hx, -⟩ | ⟨s, m, e, hm, hx, -⟩ := h.zero_or_finite <;> rw [hx] <;> rfl

theorem isZero_of_denotes (h : Denotes (unpack x) n) : isZero x = decide (n = 0) := by
  unfold isZero
  obtain ⟨s, hx, rfl⟩ | ⟨s, m, e, hm, hx, -, -, -, hn, -⟩ := h.zero_or_finite <;> rw [hx]
  · rfl
  · exact (decide_eq_false hn).symm

theorem toRat?_of_unpack_zero {s : Sign} (h : unpack x = .zero s) :
    (reading x).toRat? = some 0 := by
  rw [reading, h]
  cases s <;> simp [Binary.Reading.ofUnpacked, Binary.Reading.toRat?, Binary.isNegativeSign]

theorem toRat?_of_unpack {s : Sign} {m : ℕ} {e : ℤ} {hm : 0 < m}
    (h : unpack x = .finite s m e hm) :
    (reading x).toRat? = some (s.apply 1 * (m * 2 ^ e) : ℚ) := by
  rw [reading, h]
  cases s <;>
    simp [Binary.Reading.ofUnpacked, Binary.Reading.toRat?, Binary.isNegativeSign, Sign.apply]

theorem toRat?_of_denotes (h : Denotes (unpack x) n) : (reading x).toRat? = some (n : ℚ) := by
  obtain ⟨s, hx, rfl⟩ | ⟨s, m, e, hm, hx, -, -, -, -, hvalue⟩ := h.zero_or_finite
  · rw [toRat?_of_unpack_zero hx, Int.cast_zero]
  · rw [toRat?_of_unpack hx, ← hvalue, apply_eq_mul s m]
    push_cast
    rw [mul_assoc]

theorem finiteResult?_of_denotes (h : Denotes (unpack x) n) (operandsFinite : Bool) :
    finiteResult? operandsFinite x = some x := by
  simp [finiteResult?, isFinite_of_denotes h]

theorem denotes_ofInt (hsize : n.natAbs ≤ 2 ^ 53) : Denotes (unpack (ofInt n)) n :=
  denotes_pack (denotes_normalize (by simp) hsize .positive)

theorem denotes_neg_float (h : Denotes (unpack x) n) : Denotes (unpack (-x)) (-n) :=
  denotes_pack (denotes_neg h)

theorem denotes_abs_float (h : Denotes (unpack x) n) : Denotes (unpack x.abs) |n| :=
  denotes_pack (denotes_abs h)

/-- A square is taken as a product of one and the base, squared once. -/
theorem denotes_square (h : Denotes (unpack x) n) (hsize : (n ^ 2).natAbs ≤ 2 ^ 53) :
    Denotes (unpack (wholePow x 2)) (n ^ 2) := by
  have hpow : wholePow x 2 = ofInt 1 * (x * x) := by
    rw [wholePow, if_pos (by decide), Binary.mulPow, Binary.mulPow]
    rfl
  have hone : Denotes (unpack (ofInt 1)) 1 := denotes_ofInt (by decide)
  rw [pow_two] at hsize ⊢
  have hsquare : Denotes (unpack (x * x)) (n * n) := denotes_pack (denotes_mul h h hsize)
  have hproduct : Denotes (unpack (ofInt 1 * (x * x))) (1 * (n * n)) :=
    denotes_pack (denotes_mul hone hsquare (by rwa [one_mul]))
  rw [one_mul] at hproduct
  rwa [hpow]

end Doubles

end Abacus.Binary64
