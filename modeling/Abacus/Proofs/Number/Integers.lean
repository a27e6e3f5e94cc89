import Abacus.Proofs.Number.Accuracy

/-!
# The doubles of integers

An integer that is taken as a double is near to it, keeps its sign, is zero only if it was, and is
no smaller than two if it was not, so that quotients of such doubles are finite. The way back is
open to every double that is equal to an integer, and only to these; so the square root and the
hundredth part of an integer may come out as integers, each by two roundings.
-/

namespace Abacus.Binary64

open Float.Model (UnpackedFloat)
open Float.Model.UnpackedFloat

section Readings

variable {r : Binary.Reading} {n : ℤ}

/-- The natural number that a significand and an exponent stand for. -/
def whole? (m : ℕ) (e : ℤ) : Option ℕ :=
  if 0 ≤ e then some (m <<< e.toNat)
  else if (m >>> (-e).toNat) <<< (-e).toNat = m then some (m >>> (-e).toNat) else none

theorem whole?_eq_some {m k : ℕ} {e : ℤ} : whole? m e = some k ↔ (m : ℚ) * 2 ^ e = k := by
  rw [mul_zpow_eq, whole?]
  by_cases he : 0 ≤ e
  · have hnone : (-e).toNat = 0 := by omega
    simp [he, hnone, Nat.shiftLeft_eq]
  · have hnone : e.toNat = 0 := by omega
    have hpower := Nat.two_pow_pos (-e).toNat
    simp only [he, if_false, hnone, pow_zero, mul_one, Nat.shiftLeft_eq, Nat.shiftRight_eq_div_pow]
    constructor
    · intro h
      split_ifs at h with hwhole
      obtain rfl := Option.some.inj h
      exact hwhole.symm
    · rintro rfl
      rw [Nat.mul_div_cancel _ hpower, if_pos rfl]

theorem toInt?_finite (negative : Bool) (m : ℕ) (e : ℤ) :
    (Binary.Reading.finite negative m e).toInt? =
      (whole? m e).map fun k : ℕ => if negative then -(k : ℤ) else k := by
  change Option.map _ ((whole? m e).bind fun k => some (k : ℤ)) = _
  cases whole? m e <;> rfl

/-- A number is read as an integer exactly if it is equal to one. -/
theorem toInt?_eq_some : r.toInt? = some n ↔ r.toRat? = some (n : ℚ) := by
  cases r with
  | nan => simp [Binary.Reading.toInt?, Binary.Reading.toRat?]
  | infinite negative => simp [Binary.Reading.toInt?, Binary.Reading.toRat?]
  | finite negative m e =>
      have hnonneg : (0 : ℚ) ≤ m * 2 ^ e := by positivity
      rw [toInt?_finite, Binary.Reading.toRat?, Option.some.injEq, Option.map_eq_some_iff]
      simp only [whole?_eq_some]
      constructor
      · rintro ⟨k, hk, rfl⟩
        rw [hk]
        split_ifs <;> push_cast <;> rfl
      · intro h
        refine ⟨n.natAbs, ?_, ?_⟩
        · rw [Nat.cast_natAbs, Int.cast_abs, ← h]
          split_ifs
          · rw [abs_neg, abs_of_nonneg hnonneg]
          · rw [abs_of_nonneg hnonneg]
        · split_ifs at h ⊢
          · have hn : (n : ℚ) ≤ 0 := by linarith
            have hn : n ≤ 0 := by exact_mod_cast hn
            omega
          · have hn : (0 : ℚ) ≤ n := by linarith
            have hn : 0 ≤ n := by exact_mod_cast hn
            omega

theorem toWord?_eq_some {w : Width} {x : Float} {a : Word w} :
    toWord? w x = some a ↔ (reading x).toRat? = some (a.val : ℚ) := by
  rw [toWord?, Option.bind_eq_some_iff, ← toInt?_eq_some]
  simp

end Readings

section Integers

variable {n : Integer}

theorem natAbs_le (n : Integer) : n.val.natAbs ≤ 2 ^ 63 := by
  have hleast := n.least_le
  have hgreatest := n.le_greatest
  rw [Width.int64_least] at hleast
  rw [Width.int64_greatest] at hgreatest
  omega

/-- The double of an integer is normal and near to it, and its exponent is that of the integer or
the next one. -/
theorem exists_unpack_ofInt (hn : n.val ≠ 0) :
    ∃ m e hm, unpack (ofInt n.val) =
      .finite (if n.val < 0 then .negative else .positive) m e hm ∧ m.log2 = 52 ∧
        n.val.natAbs.log2 - 52 ≤ e ∧ e ≤ 12 ∧ Near (m * 2 ^ e) |(n.val : ℝ)| := by
  have habs : n.val.natAbs ≠ 0 := Int.natAbs_ne_zero.2 hn
  have hlog : n.val.natAbs.log2 ≤ 63 := by
    have hsize := natAbs_le n
    exact log2_le_of_lt (by omega)
  have hvalue : (n.val.natAbs : ℝ) * 2 ^ (0 : ℤ) = |(n.val : ℝ)| := by
    rw [zpow_zero, mul_one, Nat.cast_natAbs, Int.cast_abs]
  rw [ofInt_eq hn, unpack_pack_round _ habs (by omega) (by omega)]
  generalize (if n.val < 0 then Sign.negative else Sign.positive) = s
  obtain ⟨m, e, hm, hround, hdigits, hlow, hhigh, hnear⟩ :=
    exists_round_near (e := 0) s habs (by omega)
  rw [hvalue] at hnear
  exact ⟨m, e, hm, hround, hdigits, by omega, by omega, hnear⟩

theorem signed_abs (i : ℤ) :
    (((if i < 0 then Sign.negative else .positive).apply 1 : ℤ) : ℝ) * |(i : ℝ)| = i := by
  by_cases hi : i < 0
  · have hcast : (i : ℝ) < 0 := by exact_mod_cast hi
    rw [if_pos hi, abs_of_neg hcast]
    simp [Sign.apply]
  · have hcast : (0 : ℝ) ≤ i := by exact_mod_cast not_lt.1 hi
    rw [if_neg hi, abs_of_nonneg hcast]
    simp [Sign.apply]

theorem isZero_ofInt (n : Integer) : isZero (ofInt n.val) = (n.val == 0) := by
  by_cases hn : n.val = 0
  · rw [hn, isZero_ofInt_zero]
    rfl
  · obtain ⟨m, e, hm, hunpack, -⟩ := exists_unpack_ofInt hn
    rw [isZero, hunpack, beq_eq_false_iff_ne.2 hn]

theorem isNegative_ofInt (n : Integer) : isNegative (ofInt n.val) = decide (n.val < 0) := by
  by_cases hn : n.val = 0
  · rw [hn]
    rfl
  · obtain ⟨m, e, hm, hunpack, -⟩ := exists_unpack_ofInt hn
    rw [isNegative, hunpack]
    by_cases hnegative : n.val < 0
    · rw [if_pos hnegative, decide_eq_true hnegative]
    · rw [if_neg hnegative, decide_eq_false hnegative]

theorem isDivisor_ofInt (hn : 2 ≤ n.val.natAbs) : isDivisor (unpack (ofInt n.val)) = true := by
  obtain ⟨m, e, hm, hunpack, hdigits, hexponent, -⟩ := exists_unpack_ofInt (n := n) (by omega)
  have hlog : 1 ≤ n.val.natAbs.log2 := (Nat.le_log2 (by omega)).2 hn
  rw [hunpack]
  exact isDivisor_finite.2 ⟨(bounds_of_log2 hdigits).1, by omega⟩

/-- The quotient of two integers that are taken as doubles is finite. -/
theorem isFinite_div_ofInt (a : Integer) {b : Integer} (hb : 2 ≤ b.val.natAbs) :
    (ofInt a.val / ofInt b.val).isFinite = true :=
  isFinite_div_of_isDivisor (isFinite_ofInt a) (isDivisor_ofInt hb)

end Integers

section Functions

variable {n : Integer}

theorem exists_sqrt_ofInt (hn : 0 ≤ n.val) :
    ∃ x y : ℚ, (reading (ofInt n.val)).toRat? = some x ∧
      (reading (ofInt n.val).sqrt).toRat? = some y ∧ Near x n.val ∧ Near y √x := by
  by_cases hzero : n.val = 0
  · have hroot : Denotes (unpack (ofInt 0).sqrt) 0 := by rfl
    rw [hzero]
    refine ⟨_, _, toRat?_of_denotes (denotes_ofInt (by decide)), toRat?_of_denotes hroot, ?_, ?_⟩
    · simpa using near_zero
    · simpa using near_zero
  · have hpositive : ¬n.val < 0 := by omega
    have habs : |(n.val : ℝ)| = n.val := abs_of_nonneg (by exact_mod_cast hn)
    obtain ⟨m, e, hm, hunpack, hdigits, hlow, hhigh, hnear⟩ := exists_unpack_ofInt hzero
    rw [if_neg hpositive] at hunpack
    rw [habs] at hnear
    obtain ⟨m', e', hm', hsqrt, hdigits', hlow', hhigh', hroot⟩ :=
      exists_sqrt_near hm hdigits (show -1074 ≤ e by omega)
    have hresult : unpack (ofInt n.val).sqrt = .finite .positive m' e' hm' := by
      have hdef : (ofInt n.val).sqrt = pack (UnpackedFloat.sqrt format (unpack (ofInt n.val))) := rfl
      rw [hdef, hunpack, hsqrt, unpack_pack_normal hdigits' (by omega) (by omega)]
    refine ⟨_, _, toRat?_of_unpack hunpack, toRat?_of_unpack hresult, ?_, ?_⟩
    · simpa [Sign.apply] using hnear
    · simpa [Sign.apply] using hroot

theorem exists_hundredth_ofInt (n : Integer) :
    ∃ x y : ℚ, (reading (ofInt n.val)).toRat? = some x ∧
      (reading (ofInt n.val / ofInt 100)).toRat? = some y ∧ Near x n.val ∧ Near y (x / 100) := by
  by_cases hzero : n.val = 0
  · have hquotient : Denotes (unpack (ofInt 0 / ofInt 100)) 0 := by rfl
    rw [hzero]
    refine ⟨_, _, toRat?_of_denotes (denotes_ofInt (by decide)), toRat?_of_denotes hquotient,
      ?_, ?_⟩
    · simpa using near_zero
    · simpa using near_zero
  · obtain ⟨m, e, hm, hunpack, hdigits, hlow, hhigh, hnear⟩ := exists_unpack_ofInt hzero
    have hsigned := signed_abs n.val
    generalize (if n.val < 0 then Sign.negative else .positive) = s at hunpack hsigned
    have hhundred : (100 * 2 ^ 46).log2 = 52 := by decide
    have hvalue : ((100 * 2 ^ 46 : ℕ) : ℝ) * 2 ^ (-46 : ℤ) = 100 := by norm_num
    obtain ⟨m', e', hm', hdiv, hdigits', hlow', hhigh', hquotient⟩ :=
      exists_div_near s .positive hm (by decide) hdigits hhundred
        (show -1021 ≤ e - -46 by omega)
    have hsign : s / .positive = s := by
      cases s <;> rfl
    rw [hsign] at hdiv
    rw [hvalue] at hquotient
    have hresult : unpack (ofInt n.val / ofInt 100) = .finite s m' e' hm' := by
      have hdef : ofInt n.val / ofInt 100 =
        pack (UnpackedFloat.div format (unpack (ofInt n.val)) (unpack (ofInt 100))) := rfl
      rw [hdef, hunpack, unpack_hundred, hdiv, unpack_pack_normal hdigits' (by omega) (by omega)]
    refine ⟨_, _, toRat?_of_unpack hunpack, toRat?_of_unpack hresult, ?_, ?_⟩
    · have hclose := hnear.apply s
      rw [hsigned] at hclose
      push_cast
      exact hclose
    · have hclose := hquotient.apply s
      rw [← mul_div_assoc] at hclose
      push_cast
      exact hclose

end Functions

end Abacus.Binary64
