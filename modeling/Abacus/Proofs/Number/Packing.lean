import Mathlib
import Abacus.Proofs.Number.Finite

/-!
# Normal doubles

A normal number has all the digits of its significand, and so a double gives it back as it was
packed into it.
-/

namespace Abacus.Binary64

open Float.Model (UnpackedFloat)
open Float.Model.UnpackedFloat

variable {s : Sign} {m : ℕ} {e : ℤ}

theorem bounds_of_log2 (hm : m.log2 = 52) : 2 ^ 52 ≤ m ∧ m < 2 ^ 53 := by
  have hne : m ≠ 0 := by
    rintro rfl
    simp at hm
  exact (Nat.log2_eq_iff hne).1 hm

theorem toNat_one_append_ofNat (hm : m.log2 = 52) : (1#1 ++ BitVec.ofNat 52 m).toNat = m := by
  obtain ⟨hlow, hhigh⟩ := bounds_of_log2 hm
  have hrest : m % 2 ^ 52 < 2 ^ 52 := Nat.mod_lt _ (Nat.two_pow_pos 52)
  rw [BitVec.toNat_append, BitVec.toNat_ofNat, BitVec.toNat_ofNat,
    ← Nat.shiftLeft_add_eq_or_of_lt hrest]
  simp only [Nat.shiftLeft_eq, Nat.reducePow, Nat.reduceMod] at *
  omega

theorem unpack_pack_zero (s : Sign) : unpack (pack (.zero s)) = .zero s := by
  cases s <;> rfl

theorem unpack_packComponents (s : Sign) {exponent : BitVec 11} (mantissa : BitVec 52)
    (hall : exponent ≠ -1#_) (hzero : exponent ≠ 0#_) :
    ∃ hm, UnpackedFloat.unpack format (packComponents format s exponent mantissa) =
      .finite s (1#1 ++ mantissa).toNat (exponent.toNat - 1075) hm := by
  generalize hbits : packComponents format s exponent mantissa = b
  have hexponent : unpackExponent b = exponent := hbits ▸ unpackExponent_packComponents
  have hmantissa : unpackMantissa b = mantissa := hbits ▸ unpackMantissa_packComponents
  have hsign : unpackSign b = s.toBitVec := by
    rw [← hbits, unpackSign_packComponents]
  delta UnpackedFloat.unpack
  dsimp only
  rw [hexponent, if_neg hall, if_neg hzero, exponentBias_eq]
  simp only [hmantissa, hsign, Sign.ofBitVec_toBitVec]
  refine ⟨(Nat.two_pow_pos 52).trans_le ?_, rfl⟩
  rw [BitVec.toNat_append]
  exact Nat.left_le_or

theorem finite_congr {m' : ℕ} {e' : ℤ} {hm : 0 < m} {hm' : 0 < m'} (hmantissa : m = m')
    (hexponent : e = e') : UnpackedFloat.finite s m e hm = .finite s m' e' hm' := by
  subst hmantissa hexponent
  rfl

/-- A normal number is the same after it has been packed. -/
theorem unpack_pack_normal {hm : 0 < m} (hsignificand : m.log2 = 52) (he₀ : -1074 ≤ e)
    (he : e ≤ 971) : unpack (pack (.finite s m e hm)) = .finite s m e hm := by
  have hdigits : m.log2 + 1 = format.mantissaBits := by
    rw [hsignificand]
    rfl
  have hbiased : (e + format.exponentBias + format.mantissaBitsWithoutImplicit).toNat =
      (e + 1075).toNat := by
    rw [exponentBias_eq]
    simp only [Nat.cast_ofNat]
    omega
  have hpack : UnpackedFloat.pack format (.finite s m e hm) =
      packComponents format s (BitVec.ofNat 11 (e + 1075).toNat) (BitVec.ofNat 52 m) := by
    delta UnpackedFloat.pack
    dsimp only
    rw [hbiased]
    generalize hvalue : (e + 1075).toNat = biased at *
    rw [if_neg (by simp only [Nat.reducePow]; omega), if_pos hdigits]
  have hvalue : (BitVec.ofNat 11 (e + 1075).toNat).toNat = (e + 1075).toNat := by
    rw [BitVec.toNat_ofNat, Nat.mod_eq_of_lt (by omega)]
  have hall : BitVec.ofNat 11 (e + 1075).toNat ≠ -1#11 := by
    intro h
    have htoNat : (e + 1075).toNat = 2047 := hvalue ▸ congrArg BitVec.toNat h
    omega
  have hzero : BitVec.ofNat 11 (e + 1075).toNat ≠ 0#11 := by
    intro h
    have htoNat : (e + 1075).toNat = 0 := hvalue ▸ congrArg BitVec.toNat h
    omega
  obtain ⟨hm', hunpack⟩ := unpack_packComponents s (BitVec.ofNat 52 m) hall hzero
  have hunpack : unpack (pack (.finite s m e hm)) = _ := (congrArg _ hpack).trans hunpack
  rw [hunpack]
  apply finite_congr (toNat_one_append_ofNat hsignificand)
  rw [hvalue]
  omega

end Abacus.Binary64
