import Abacus.Proofs.Number.Nearest
import Abacus.Proofs.Number.Order
import Abacus.Proofs.Value.Finite

/-!
# Doubles as integers

A double is taken for an integer exactly if it is one and has a place among the integers. Whether it
has one can be told by comparing it with the two powers of two at the ends of the range, both of
which are doubles. The double that passes is not clamped when it is cast.
-/

namespace Abacus

namespace Binary64

open Float.Model (UnpackedFloat)
open Float.Model.UnpackedFloat

/-- The least power of two that is no integer of the calculator any more. -/
def limit : Float := ofInt (2 ^ 63)

/-- Whether a number has nothing behind the point. -/
def isWhole (x : Float) : Bool := (reading x).toInt?.isSome

/-- The integer to which a number is cast: what stands before the point, or the nearest end of the
range. -/
def clamp (x : Float) : Integer where
  val := x.toModel.toInt64.toInt
  least_le := Int64.le_toInt _
  le_greatest := Int.le_sub_one_of_lt (Int64.toInt_lt _)

variable {x : Float} {q : ℚ} {n : Integer}

section Limits

theorem isFinite_limit : limit.isFinite = true := by
  rfl

theorem isFinite_neg_limit : (-limit).isFinite = true := by
  rfl

theorem value_limit : value (unpack limit) = 2 ^ 63 := by
  have hunpack : unpack limit = .finite .positive (2 ^ 52) 11 (by decide) := by rfl
  rw [hunpack, value_positive]
  norm_num

theorem value_neg_limit : value (unpack (-limit)) = -2 ^ 63 := by
  have hunpack : unpack (-limit) = .finite .negative (2 ^ 52) 11 (by decide) := by rfl
  rw [hunpack, value_negative]
  norm_num

theorem lt_limit_iff (hx : x.isFinite = true) (hq : (reading x).toRat? = some q) :
    x < limit ↔ q < 2 ^ 63 := by
  rw [toRat?_eq_value hx] at hq
  rw [lt_iff_value hx isFinite_limit, value_limit, Option.some.inj hq]

theorem neg_limit_le_iff (hx : x.isFinite = true) (hq : (reading x).toRat? = some q) :
    -limit ≤ x ↔ -2 ^ 63 ≤ q := by
  rw [toRat?_eq_value hx] at hq
  rw [le_iff_value isFinite_neg_limit hx, value_neg_limit, Option.some.inj hq]

end Limits

section Casts

/-- What stands before the point of a number that is whole is all of it. -/
theorem roundToInt_of_whole {s : Sign} {m k : ℕ} {e : ℤ} (h : (m : ℚ) * 2 ^ e = k) :
    roundToInt s m e = s.apply k := by
  have hcut : roundToInt s m e =
      s.apply ((m <<< e.toNat / 2 ^ (0 - (e - e.toNat)).toNat : ℕ) : ℤ) := by
    simp only [roundToInt, decreaseExponent, shiftToExponent, mantissa_shiftRight,
      mantissa_ofMantissaAndAccuracy, sub_zero]
  rw [← whole?_eq_some, whole?] at h
  rw [hcut]
  congr 2
  split_ifs at h with he hwhole
  · have hnone : (0 - (e - e.toNat)).toNat = 0 := by omega
    rw [hnone, pow_zero, Nat.div_one]
    exact Option.some.inj h
  · have hnone : e.toNat = 0 := by omega
    have hshift : (0 - (e - e.toNat)).toNat = (-e).toNat := by omega
    rw [hshift, hnone, Nat.shiftLeft_zero, ← Nat.shiftRight_eq_div_pow]
    exact Option.some.inj h

theorem toInt_ofIntClamp (n : Integer) : (Int64.ofIntClamp n.val).toInt = n.val := by
  have hleast : Int64.minValue.toInt ≤ n.val := n.least_le
  have hgreatest : n.val ≤ Int64.maxValue.toInt := by
    rw [Int64.toInt_maxValue, ← Width.int64_greatest]
    exact n.le_greatest
  have hcast : Int64.ofIntLE n.val hleast hgreatest = Int64.ofIntClamp n.val :=
    Int64.ofIntLE_eq_ofIntClamp
  rw [← hcast, Int64.toInt_ofIntLE]

/-- An integer is cast to itself. -/
theorem clamp_of_toRat? (hn : (reading x).toRat? = some (n.val : ℚ)) : clamp x = n := by
  have htoInt : (unpack x).toInt Int64.minValue.toInt Int64.maxValue.toInt = n.val := by
    obtain ⟨s, hx⟩ | ⟨s, m, e, hm, hx, -⟩ := unpack_cases (isFinite_of_toRat? hn)
    · rw [toRat?_of_unpack_zero hx] at hn
      rw [hx]
      exact_mod_cast Option.some.inj hn
    · rw [toRat?_of_unpack hx, Option.some.injEq, ← mul_assoc] at hn
      have hvalue : (s.apply m : ℚ) * 2 ^ e = n.val := by
        rw [← hn, apply_eq_mul s m]
        push_cast
        rfl
      have hwhole : (m : ℚ) * 2 ^ e = n.val.natAbs := magnitude_eq hvalue
      rw [hx, UnpackedFloat.toInt, roundToInt_of_whole hwhole, apply_natAbs hvalue]
  apply Word.ext
  change (Int64.ofIntClamp ((unpack x).toInt _ _)).toInt = n.val
  rw [htoInt, toInt_ofIntClamp]

end Casts

end Binary64

namespace Value

open Binary64

variable {x : Float} {n : Integer}

theorem ofFloat_eq_integer :
    ofFloat x = .integer n ↔ (reading x).toRat? = some (n.val : ℚ) := by
  rw [← toWord?_eq_some, ofFloat]
  cases toWord? Width.int64 x <;> simp

theorem exists_ofFloat_eq_integer :
    (∃ n, ofFloat x = .integer n) ↔
      ∃ k : ℤ, (reading x).toRat? = some (k : ℚ) ∧ -2 ^ 63 ≤ k ∧ k < 2 ^ 63 := by
  simp only [ofFloat_eq_integer]
  constructor
  · rintro ⟨n, hn⟩
    have hgreatest := n.le_greatest
    rw [Width.int64_greatest] at hgreatest
    exact ⟨n.val, hn, n.least_le, by omega⟩
  · rintro ⟨k, hk, hleast, hless⟩
    exact ⟨⟨k, hleast, Int.le_sub_one_of_lt hless⟩, hk⟩

theorem ofFloat_eq_decimal (h : ∀ n, ofFloat x ≠ .integer n) : ofFloat x = .decimal x := by
  unfold ofFloat at h ⊢
  split
  · next n hn =>
      rw [hn] at h
      exact absurd rfl (h n)
  · rfl

/-- The tests that a double has to pass to be taken for an integer. -/
def passes (x : Float) : Bool :=
  x.isFinite && isWhole x && decide (-limit ≤ x) && decide (x < limit)

theorem passes_iff : passes x = true ↔ ∃ n, ofFloat x = .integer n := by
  rw [exists_ofFloat_eq_integer]
  simp only [passes, isWhole, Bool.and_eq_true, decide_eq_true_eq, Option.isSome_iff_exists,
    toInt?_eq_some]
  constructor
  · rintro ⟨⟨⟨hx, k, hk⟩, hleast⟩, hless⟩
    rw [neg_limit_le_iff hx hk] at hleast
    rw [lt_limit_iff hx hk] at hless
    exact ⟨k, hk, by exact_mod_cast hleast, by exact_mod_cast hless⟩
  · rintro ⟨k, hk, hleast, hless⟩
    have hx := isFinite_of_toRat? hk
    refine ⟨⟨⟨hx, k, hk⟩, ?_⟩, ?_⟩
    · rw [neg_limit_le_iff hx hk]
      exact_mod_cast hleast
    · rw [lt_limit_iff hx hk]
      exact_mod_cast hless

/-- A double is taken for an integer by four tests and a cast. They come to this: the integer is
equal to the double, there is one whenever the double is equal to an integer in range, both zeros
among them, and every other double stays the one it is. So the cast is never clamped. -/
theorem ofFloat_lossless (x : Float) :
    ofFloat x = (if passes x then .integer (clamp x) else .decimal x) ∧
    (∀ n : Integer, ofFloat x = .integer n ↔
      x.isFinite = true ∧ (reading x).toRat? = some (n.val : ℚ)) ∧
    ((∃ n, ofFloat x = .integer n) ↔ x.isFinite = true ∧
      ∃ k : ℤ, (reading x).toRat? = some (k : ℚ) ∧ -2 ^ 63 ≤ k ∧ k < 2 ^ 63) ∧
    ((∀ n, ofFloat x ≠ .integer n) → ofFloat x = .decimal x) ∧
    (Binary64.isZero x = true → ofFloat x = .integer Word.zero) ∧
    ∀ n, ofFloat x = .integer n → clamp x = n := by
  have hclamp : ∀ n, ofFloat x = .integer n → clamp x = n := by
    intro n hn
    exact clamp_of_toRat? (ofFloat_eq_integer.1 hn)
  refine ⟨?_, ?_, ?_, ofFloat_eq_decimal, ?_, hclamp⟩
  · split_ifs with hpasses
    · obtain ⟨n, hn⟩ := passes_iff.1 hpasses
      rw [hn, hclamp n hn]
    · apply ofFloat_eq_decimal
      rwa [passes_iff, not_exists] at hpasses
  · intro n
    rw [ofFloat_eq_integer, iff_and_self]
    exact isFinite_of_toRat?
  · rw [exists_ofFloat_eq_integer, iff_and_self]
    rintro ⟨k, hk, -⟩
    exact isFinite_of_toRat? hk
  · intro hzero
    obtain ⟨s, hs⟩ := isZero_iff.1 hzero
    rw [ofFloat_eq_integer, toRat?_of_unpack_zero hs]
    rfl

example : passes limit = false ∧ passes (-limit) = true := by
  decide +kernel

end Value

end Abacus
