import Abacus.Proofs.Number.Scaling
import Abacus.Proofs.Number.Whole

/-!
# Signs of doubles

Rounding does not look at the sign of a number. So the double of an integer with a minus sign is the
negated double of the integer, except that there is only one zero among the integers. A finite
double is its magnitude with its sign.
-/

namespace Abacus.Binary64

open Float.Model (UnpackedFloat totalExponent)
open Float.Model.UnpackedFloat

section Rounding

variable {m : ℕ} {e : ℤ}

theorem neg_roundWithAccuracy (s : Sign) (m : ℕ) (e : ℤ) (accuracy : Accuracy) :
    (roundWithAccuracy format s m e accuracy).neg = roundWithAccuracy format (-s) m e accuracy := by
  delta roundWithAccuracy
  dsimp only
  split <;> rfl

theorem neg_round (s : Sign) (m : ℕ) (e : ℤ) :
    (UnpackedFloat.round format s m e).neg = UnpackedFloat.round format (-s) m e :=
  neg_roundWithAccuracy s _ _ .exact

/-- A number with few digits is given more of them before it is rounded. -/
theorem round_eq_of_normal (s : Sign) (hlow : -1022 ≤ m.log2 + e) :
    UnpackedFloat.round format s m e =
      roundWithAccuracy format s (m * 2 ^ (52 - m.log2)) (e - (52 - m.log2 : ℕ)) .exact := by
  have hshift : (e - format.targetExponent (totalExponent m e)).toNat = 52 - m.log2 := by
    change (e - max ((m.log2 : ℤ) + 1 + e - 53) (-1074)).toNat = 52 - m.log2
    omega
  simp only [UnpackedFloat.round, decreaseExponent, hshift, Nat.shiftLeft_eq]

/-- A number is rounded to a normal one of the same size, or of the next power of two. -/
theorem exists_round_eq (s : Sign) (hm : m ≠ 0) (hlow : -1022 ≤ m.log2 + e) :
    ∃ m' e' hm', UnpackedFloat.round format s m e = .finite s m' e' hm' ∧ m'.log2 = 52 ∧
      m.log2 + e - 52 ≤ e' ∧ e' ≤ m.log2 + e - 51 := by
  have hlog := log2_mul_two_pow hm (52 - m.log2)
  obtain ⟨m', e', hm', hround, hdigits, hlow', hhigh', -⟩ :=
    exists_roundWithAccuracy_eq (s := s) (m := m * 2 ^ (52 - m.log2)) (e := e - (52 - m.log2 : ℕ))
      .exact (by omega) (by omega)
  rw [round_eq_of_normal s hlow]
  exact ⟨m', e', hm', hround, hdigits, by omega, by omega⟩

/-- A number that is rounded to a normal one is packed without loss. -/
theorem unpack_pack_round (s : Sign) (hm : m ≠ 0) (hlow : -1022 ≤ m.log2 + e)
    (hhigh : m.log2 + e ≤ 1022) :
    unpack (pack (UnpackedFloat.round format s m e)) = UnpackedFloat.round format s m e := by
  obtain ⟨m', e', hm', hround, hdigits, hlow', hhigh'⟩ := exists_round_eq s hm hlow
  rw [hround, unpack_pack_normal hdigits (by omega) (by omega)]

theorem ofInt_eq {n : ℤ} (hn : n ≠ 0) :
    ofInt n = pack (UnpackedFloat.round format (if n < 0 then .negative else .positive)
      n.natAbs 0) := by
  change pack (UnpackedFloat.normalize format n 0 .positive) = _
  rcases lt_or_gt_of_ne hn with hlt | hgt
  · have habs : (-n).toNat = n.natAbs := by omega
    rw [normalize_of_neg hlt, if_pos hlt, habs]
  · have habs : n.toNat = n.natAbs := by omega
    rw [normalize_of_pos hgt, if_neg (by omega), habs]

theorem ofInt_neg {n : ℕ} (hn : n ≠ 0) (hsize : n < 2 ^ 64) : ofInt (-n) = -ofInt n := by
  have hlog : n.log2 < 64 := (Nat.log2_lt hn).2 hsize
  have hneg : -ofInt n = pack (unpack (ofInt n)).neg := rfl
  have hpositive : ¬(n : ℤ) < 0 := by omega
  have hnegative : (-n : ℤ) < 0 := by omega
  rw [hneg, ofInt_eq (by omega : (n : ℤ) ≠ 0), ofInt_eq hnegative.ne, if_neg hpositive,
    if_pos hnegative, Int.natAbs_neg, Int.natAbs_natCast,
    unpack_pack_round _ hn (by omega) (by omega), neg_round]
  rfl

/-- The least integer is a double, and the decimal numeral without its sign is read as that double
without its sign. -/
theorem ofInt_least : ofInt Width.int64.least = -ofDecimal (2 ^ 63) 0 := by
  rfl

end Rounding

section Zeros

variable {x y z : Float}

theorem isZero_iff : isZero x = true ↔ ∃ s, unpack x = .zero s := by
  unfold isZero
  cases unpack x with
  | zero s => simp
  | _ => simp

theorem isFinite_of_isZero (h : isZero x = true) : x.isFinite = true := by
  obtain ⟨s, hs⟩ := isZero_iff.1 h
  change (unpack x).isFinite = true
  rw [hs]
  rfl

theorem isZero_pack_zero (s : Sign) : isZero (pack (.zero s)) = true :=
  isZero_iff.2 ⟨s, unpack_pack_zero s⟩

theorem isZero_neg (h : isZero x = true) : isZero (-x) = true := by
  obtain ⟨s, hs⟩ := isZero_iff.1 h
  have hneg : -x = pack (unpack x).neg := rfl
  rw [hneg, hs]
  exact isZero_pack_zero (-s)

theorem isZero_ofInt_zero : isZero (ofInt 0) = true :=
  isZero_pack_zero .positive

theorem isZero_of_isNegative (h : isNegative x = true) : isZero x = false := by
  unfold isNegative at h
  unfold isZero
  cases hx : unpack x with
  | zero s =>
      rw [hx] at h
      cases h
  | _ => rfl

/-- The power with a zero exponent is one, whatever the sign of that zero. -/
theorem pow_of_isZero_exponent (hz : isZero z = true) (x : Float) : pow x z = ofInt 1 := by
  obtain ⟨s, hs⟩ := isZero_iff.1 hz
  unfold pow
  rw [hs]

/-- The powers of a zero are zeros and infinities. -/
theorem exists_pow_of_isZero_base (hz : isZero z = true) (hy : y.isFinite = true)
    (hnonzero : isZero y = false) :
    ∃ s, pow z y = pack (if isNegative y then .infinity s else .zero s) := by
  obtain ⟨s, hs⟩ := isZero_iff.1 hz
  obtain ⟨t, ht⟩ | ⟨t, m, e, hm, ht, -, -⟩ := unpack_cases hy
  · rw [isZero_iff.2 ⟨t, ht⟩] at hnonzero
    cases hnonzero
  · refine ⟨if isOdd y then s else .positive, ?_⟩
    unfold pow
    rw [hs, ht]

end Zeros

section Negation

variable {x : Float}

theorem pack_unpack (x : Float) : pack (unpack x) = x :=
  Float.toBits_inj.1 (UInt64.toBitVec_inj.1 (pack_unpack_of_valid x.toModel.valid))

/-- The sign of a number is a bit of its own. -/
theorem unpack_packComponents_neg (s : Sign) (exponent : BitVec 11) (mantissa : BitVec 52) :
    UnpackedFloat.unpack format (packComponents format (-s) exponent mantissa) =
      (UnpackedFloat.unpack format (packComponents format s exponent mantissa)).neg := by
  delta UnpackedFloat.unpack
  simp only [unpackExponent_packComponents, unpackMantissa_packComponents,
    unpackSign_packComponents, Sign.ofBitVec_toBitVec]
  split_ifs <;> rfl

theorem unpack_pack_neg (u : UnpackedFloat) : unpack (pack u.neg) = (unpack (pack u)).neg := by
  cases u with
  | notANumber => rfl
  | infinity s => exact unpack_packComponents_neg s _ _
  | zero s => exact unpack_packComponents_neg s _ _
  | finite s m e hm =>
      change UnpackedFloat.unpack format (UnpackedFloat.pack format (.finite (-s) m e hm)) =
        (UnpackedFloat.unpack format (UnpackedFloat.pack format (.finite s m e hm))).neg
      delta UnpackedFloat.pack
      dsimp only
      split_ifs
      · exact unpack_packComponents_neg s _ _
      · exact unpack_packComponents_neg s _ _
      · exact unpack_packComponents_neg s _ _

theorem neg_neg_float (x : Float) : -(-x) = x := by
  have hneg : ∀ y : Float, -y = pack (unpack y).neg := fun _ => rfl
  have htwice : ∀ u : UnpackedFloat, u.neg.neg = u := by
    intro u
    cases u with
    | notANumber => rfl
    | infinity s => cases s <;> rfl
    | zero s => cases s <;> rfl
    | finite s m e hm => cases s <;> rfl
  rw [hneg (-x), hneg x, unpack_pack_neg, htwice, pack_unpack, pack_unpack]

theorem abs_of_reading {negative : Bool} {m : ℕ} {e : ℤ} (h : reading x = .finite negative m e) :
    x.abs = if negative then -x else x := by
  have hsign : (unpack x).abs = if negative then (unpack x).neg else unpack x := by
    unfold reading at h
    cases hx : unpack x with
    | notANumber =>
        rw [hx] at h
        cases h
    | infinity s =>
        rw [hx] at h
        cases h
    | zero s =>
        rw [hx] at h
        cases h
        cases s <;> rfl
    | finite s m e hm =>
        rw [hx] at h
        cases h
        cases s <;> rfl
  have habs : x.abs = pack (unpack x).abs := rfl
  rw [habs, hsign]
  cases negative with
  | true => rfl
  | false => exact pack_unpack x

/-- A finite number is its magnitude with its sign. -/
theorem signed_abs_float {negative : Bool} {m : ℕ} {e : ℤ} (h : reading x = .finite negative m e) :
    (if negative then -x.abs else x.abs) = x := by
  rw [abs_of_reading h]
  cases negative with
  | true => exact neg_neg_float x
  | false => rfl

end Negation

end Abacus.Binary64
