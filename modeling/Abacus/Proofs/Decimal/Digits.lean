import Mathlib.Data.List.DropRight
import Abacus.Proofs.Decimal.Numeral
import Abacus.Proofs.Decimal.Rounding

/-!
# The digits of decimal numbers

A decimal number is written by cutting its digits at the point, after zeros in front have made up
for missing ones. The zeros at the end of the fraction can be left out without a change of value.
-/

namespace Abacus

section Digits

theorem isDigit_of_mem_toDigits {n : ℕ} {c : Char} (h : c ∈ Nat.toDigits 10 n) :
    isDigit c = true := by
  have hdigit : c.isDigit = true := Nat.isDigit_of_mem_toDigits (by decide) (by decide) h
  obtain ⟨hlow, hhigh⟩ := Bool.and_eq_true_iff.1 hdigit
  exact Bool.and_eq_true_iff.2 ⟨hlow, hhigh⟩

/-- The digits of a number begin with a zero only if it is zero. -/
theorem head?_toDigits_ne_zero {n : ℕ} (hn : n ≠ 0) : (Nat.toDigits 10 n).head? ≠ some '0' := by
  induction n using Nat.strongRecOn with
  | ind n ih =>
      rcases Nat.lt_or_ge n 10 with hsmall | hlarge
      · have hdigit : ∀ k < 10, k ≠ 0 → [k.digitChar].head? ≠ some '0' := by decide
        rw [Nat.toDigits_of_lt_base hsmall]
        exact hdigit n hsmall hn
      · have hfront : Nat.toDigits 10 (n / 10) ≠ [] := Nat.toDigits_ne_nil
        rw [Nat.toDigits_of_base_le (by decide) hlarge, List.head?_append_of_ne_nil _ hfront]
        exact ih (n / 10) (by omega) (by omega)

theorem isDigit_of_mem_replicate {k : ℕ} {c : Char} (h : c ∈ List.replicate k '0') :
    isDigit c = true := by
  rw [List.eq_of_mem_replicate h]
  decide

theorem isDigit_of_mem_positions {d : Decimal} {c : Char}
    (h : c ∈ d.positions.1 ∨ c ∈ d.positions.2) : isDigit c = true := by
  unfold Decimal.positions at h
  split at h
  · simp only [List.mem_append, List.not_mem_nil, or_false] at h
    exact h.elim isDigit_of_mem_toDigits isDigit_of_mem_replicate
  · rw [List.splitAt_eq] at h
    have hmem := h.elim List.mem_of_mem_take List.mem_of_mem_drop
    rw [List.mem_append] at hmem
    exact hmem.elim isDigit_of_mem_replicate isDigit_of_mem_toDigits

end Digits

namespace Decimal

variable (m places : ℕ)

section Positions

/-- The digits of `m`, with zeros in front where there is none before the point otherwise. -/
def padded : List Char :=
  List.replicate (places + 1 - size m) '0' ++ Nat.toDigits 10 m

theorem length_padded : (padded m places).length = max (size m) (places + 1) := by
  have hlength : (Nat.toDigits 10 m).length = size m := rfl
  rw [padded, List.length_append, List.length_replicate, hlength]
  omega

theorem padded_of_lt (h : places < size m) : padded m places = Nat.toDigits 10 m := by
  rw [padded, Nat.sub_eq_zero_of_le h]
  rfl

theorem ofDigitChars_padded : Nat.ofDigitChars 10 (padded m places) 0 = m := by
  simp [padded, Nat.ofDigitChars_append]

theorem positions_eq :
    (⟨m, -places⟩ : Decimal).positions =
      ((padded m places).take (max (size m) (places + 1) - places),
        (padded m places).drop (max (size m) (places + 1) - places)) := by
  unfold positions
  dsimp only
  split_ifs with h
  · obtain rfl : places = 0 := by omega
    have hlength := length_padded m 0
    rw [padded_of_lt m 0 (size_pos m)] at hlength ⊢
    simp [List.take_of_length_le, List.drop_of_length_le, hlength]
  · have hplaces : (- -(places : ℤ)).toNat = places := by omega
    have hlength := length_padded m places
    simp only [padded, size] at hlength ⊢
    rw [hplaces, List.splitAt_eq, hlength]

theorem positions_append :
    (⟨m, -places⟩ : Decimal).positions.1 ++ (⟨m, -places⟩ : Decimal).positions.2 =
      padded m places := by
  rw [positions_eq]
  exact List.take_append_drop _ _

theorem length_whole : (⟨m, -places⟩ : Decimal).positions.1.length = max (size m - places) 1 := by
  rw [positions_eq, List.length_take, length_padded]
  omega

theorem length_fraction : (⟨m, -places⟩ : Decimal).positions.2.length = places := by
  rw [positions_eq, List.length_drop, length_padded]
  omega

/-- A number with a digit of its own before the point is not written with a zero in front. -/
theorem head?_whole (hm : m ≠ 0) (h : places < size m) :
    (⟨m, -places⟩ : Decimal).positions.1.head? ≠ some '0' := by
  have hcut : max (size m) (places + 1) - places ≠ 0 := by omega
  rw [positions_eq, List.head?_take, if_neg hcut, padded_of_lt m places h]
  exact head?_toDigits_ne_zero hm

end Positions

section Trailing

variable (digits : List Char)

theorem dropTrailingZeros_eq : dropTrailingZeros digits = digits.rdropWhile (· = '0') := rfl

theorem exists_append_replicate :
    ∃ k, digits = dropTrailingZeros digits ++ List.replicate k '0' := by
  refine ⟨(digits.rtakeWhile (· = '0')).length, ?_⟩
  have hzeros : digits.rtakeWhile (· = '0') =
      List.replicate (digits.rtakeWhile (· = '0')).length '0' := by
    rw [List.eq_replicate_iff]
    exact ⟨rfl, fun c hc => by simpa using List.mem_rtakeWhile_imp hc⟩
  rw [← hzeros, dropTrailingZeros_eq, List.rdropWhile_append_rtakeWhile]

theorem isPrefix_dropTrailingZeros : dropTrailingZeros digits <+: digits :=
  List.rdropWhile_prefix _ _

theorem getLast?_dropTrailingZeros : (dropTrailingZeros digits).getLast? ≠ some '0' := by
  intro hlast
  rw [dropTrailingZeros_eq] at hlast
  obtain ⟨hne, hzero⟩ := List.mem_getLast?_eq_getLast (Option.mem_def.2 hlast)
  exact List.rdropWhile_last_not _ _ hne (by simpa using hzero.symm)

end Trailing

/-- The numeral of a decimal number, without zeros at the end of its fraction and without a point
where no fraction is left. -/
def numeral (d : Decimal) (exponent : Option ExponentPart) : Numeral :=
  let fraction := dropTrailingZeros d.positions.2
  ⟨d.positions.1, if fraction = [] then none else some fraction, exponent⟩

section Written

variable (d : Decimal) (exponent : Option ExponentPart)

theorem fraction_numeral :
    (d.numeral exponent).fraction.getD [] = dropTrailingZeros d.positions.2 := by
  unfold numeral
  dsimp only
  split_ifs with hnone
  · exact hnone.symm
  · rfl

theorem chars_numeral :
    (d.numeral exponent).chars =
      joinPositions (d.positions.1, dropTrailingZeros d.positions.2) ++
        exponent.elim [] (·.chars) := by
  unfold numeral
  cases hfraction : dropTrailingZeros d.positions.2 with
  | nil => simp [Numeral.chars, joinPositions]
  | cons c rest => simp [Numeral.chars, joinPositions]

end Written

end Decimal

/-- The number that a numeral denotes. -/
def Numeral.toRat (n : Numeral) : ℚ := (⟨n.significand, n.lastExponent⟩ : Decimal).toRat

/-- The digits of a numeral that has been rounded to a number of places: there is no zero in front
of another digit, no zero at the end of the fraction, and no point without a fraction. -/
structure Numeral.IsTrimmed (n : Numeral) (places : ℕ) : Prop where
  scanned : n.IsScanned
  whole : n.whole ≠ []
  front : n.whole.length = 1 ∨ n.whole.head? ≠ some '0'
  fraction : ∀ digits ∈ n.fraction,
    digits ≠ [] ∧ digits.length ≤ places ∧ digits.getLast? ≠ some '0'

namespace Numeral

variable {n : Numeral}

theorem IsTrimmed.mono {places limit : ℕ} (h : n.IsTrimmed places) (hle : places ≤ limit) :
    n.IsTrimmed limit := by
  refine ⟨h.scanned, h.whole, h.front, ?_⟩
  intro digits hdigits
  obtain ⟨hne, hlength, hlast⟩ := h.fraction digits hdigits
  exact ⟨hne, hlength.trans hle, hlast⟩

theorem IsTrimmed.exists_head? {places : ℕ} (h : n.IsTrimmed places) :
    ∃ c, n.chars.head? = some c ∧ isDigit c = true := by
  obtain ⟨c, more, hwhole⟩ := List.exists_cons_of_ne_nil h.whole
  have hdigits := h.scanned.whole
  rw [hwhole] at hdigits
  refine ⟨c, ?_, List.all_eq_true.1 hdigits c (List.mem_cons_self ..)⟩
  rw [chars, hwhole]
  rfl

/-- No other number is written like zero. -/
theorem chars_ne_zero (h : n.IsScanned) (hvalue : n.toRat ≠ 0) : n.chars ≠ ['0'] := by
  intro hchars
  have hscan := scan_chars h
  rw [hchars] at hscan
  obtain rfl : ⟨['0'], none, none⟩ = n := congrArg Prod.fst hscan
  have hzero : (⟨['0'], none, none⟩ : Numeral).significand = 0 := rfl
  rw [toRat, Decimal.toRat, hzero, Nat.cast_zero, zero_mul] at hvalue
  exact hvalue rfl

end Numeral

namespace Decimal

section Value

variable (m places : ℕ) {exponent : Option ExponentPart}

theorem isTrimmed_numeral (hexponent : ∀ e ∈ exponent, e.IsScanned) :
    ((⟨m, -places⟩ : Decimal).numeral exponent).IsTrimmed places := by
  have hfront := isPrefix_dropTrailingZeros (⟨m, -places⟩ : Decimal).positions.2
  have hfraction : ∀ digits ∈ ((⟨m, -places⟩ : Decimal).numeral exponent).fraction,
      digits ≠ [] ∧ digits = dropTrailingZeros (⟨m, -places⟩ : Decimal).positions.2 := by
    intro digits hdigits
    obtain ⟨hne, heq⟩ := Option.ite_none_left_eq_some.1 (Option.mem_def.1 hdigits)
    obtain rfl := Option.some.inj heq
    exact ⟨hne, rfl⟩
  refine ⟨⟨?_, ?_, hexponent⟩, ?_, ?_, ?_⟩
  · exact List.all_eq_true.2 fun c hc => isDigit_of_mem_positions (Or.inl hc)
  · intro digits hdigits
    obtain ⟨-, rfl⟩ := hfraction digits hdigits
    exact List.all_eq_true.2 fun c hc => isDigit_of_mem_positions (Or.inr (hfront.subset hc))
  · refine List.ne_nil_of_length_pos ?_
    rw [numeral, length_whole]
    omega
  · rw [numeral, length_whole]
    by_cases hsize : size m ≤ places + 1
    · left
      omega
    · right
      have hm : m ≠ 0 := by
        rintro rfl
        exact hsize (Nat.le_add_left 1 places)
      exact head?_whole m places hm (by omega)
  · intro digits hdigits
    obtain ⟨hne, rfl⟩ := hfraction digits hdigits
    have hle := hfront.length_le
    rw [length_fraction] at hle
    exact ⟨hne, hle, getLast?_dropTrailingZeros _⟩

/-- Before the point there is one digit, or there are several that do not begin with a zero. Only a
zero with a positive exponent would be written with several zeros. -/
theorem front_positions (d : Decimal) (hzero : d.significand = 0 → d.exponent = 0) :
    d.positions.1 ≠ [] ∧ (d.positions.1.length = 1 ∨ d.positions.1.head? ≠ some '0') := by
  obtain ⟨m, e⟩ := d
  rcases le_or_gt e 0 with he | he
  · obtain ⟨places, rfl⟩ := Int.exists_eq_neg_ofNat he
    have htrimmed : ((⟨m, -places⟩ : Decimal).numeral none).IsTrimmed places :=
      isTrimmed_numeral m places nofun
    exact ⟨htrimmed.whole, htrimmed.front⟩
  · have hm : m ≠ 0 := by
      rintro rfl
      exact he.ne' (hzero rfl)
    have hsome : Nat.toDigits 10 m ≠ [] := Nat.toDigits_ne_nil
    unfold positions
    dsimp only
    rw [if_pos he.le]
    refine ⟨List.append_ne_nil_of_left_ne_nil hsome _, Or.inr ?_⟩
    rw [List.head?_append_of_ne_nil _ hsome]
    exact head?_toDigits_ne_zero hm

theorem toRat_numeral :
    ((⟨m, -places⟩ : Decimal).numeral exponent).toRat =
      (⟨m, -places⟩ : Decimal).toRat * 10 ^ (exponent.elim 0 (·.toInt)) := by
  obtain ⟨k, hk⟩ := exists_append_replicate (⟨m, -places⟩ : Decimal).positions.2
  have hlength := length_fraction m places
  have hdigits := ofDigitChars_padded m places
  rw [← positions_append, hk, ← List.append_assoc, Nat.ofDigitChars_append,
    Nat.ofDigitChars_replicate_zero] at hdigits
  rw [hk, List.length_append, List.length_replicate] at hlength
  have hwhole : ((⟨m, -places⟩ : Decimal).numeral exponent).whole =
      (⟨m, -places⟩ : Decimal).positions.1 := rfl
  have hexponent : ((⟨m, -places⟩ : Decimal).numeral exponent).exponent = exponent := rfl
  rw [Numeral.toRat, Numeral.significand, Numeral.lastExponent, fraction_numeral, hwhole, hexponent]
  generalize dropTrailingZeros (⟨m, -places⟩ : Decimal).positions.2 = trimmed at *
  generalize Nat.ofDigitChars 10 ((⟨m, -places⟩ : Decimal).positions.1 ++ trimmed) 0 = n at *
  subst hdigits hlength
  -- The `k` zeros that are left out make the power of ten of the last digit larger by `k`.
  have hlast : (exponent.elim 0 (·.toInt) : ℤ) - trimmed.length =
      k + (-(trimmed.length + k : ℕ) : ℤ) + exponent.elim 0 (·.toInt) := by
    push_cast
    ring
  rw [toRat, toRat, hlast, ten_zpow_add, ten_zpow_add, zpow_natCast]
  push_cast
  ring

end Value

end Decimal

/-- The exponent of ten that is written for an integer. -/
def ExponentPart.ofInt (e : ℤ) : ExponentPart :=
  ⟨'e', if e < 0 then some '-' else none, Nat.toDigits 10 e.natAbs⟩

namespace ExponentPart

variable (e : ℤ)

theorem chars_ofInt : (ofInt e).chars = 'e' :: (toString e).toList := by
  cases e with
  | ofNat k => simp [ofInt, chars, toString, Int.repr]
  | negSucc k => simp [ofInt, chars, toString, Int.repr]

theorem toInt_ofInt : (ofInt e).toInt = e := by
  have hsign : (ofInt e).sign = some '-' ↔ e < 0 := by
    unfold ofInt
    split_ifs with hnegative <;> simp [hnegative]
  have hdigits : Nat.ofDigitChars 10 (ofInt e).digits 0 = e.natAbs := Nat.ofDigitChars_ten_toDigits
  simp only [toInt, hsign, hdigits]
  split_ifs <;> omega

theorem isScanned_ofInt : (ofInt e).IsScanned where
  mark := Or.inl rfl
  sign := by
    unfold ofInt
    dsimp only
    split_ifs <;> simp
  digits := List.all_eq_true.2 fun _ => isDigit_of_mem_toDigits
  digits_ne_nil := Nat.toDigits_ne_nil

end ExponentPart

end Abacus
