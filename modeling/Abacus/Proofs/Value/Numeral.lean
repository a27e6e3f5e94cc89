import Abacus.Proofs.Decimal.Digits
import Abacus.Value.Json

/-!
# The numerals of doubles

A double is written with a point or an exponent, so that it is not taken for an integer. What is
written is a number of JSON: all of it is scanned, and no zero stands in front of another digit.
-/

namespace Abacus

namespace Decimal

open RoundingInterval

section Shortest

variable {i : RoundingInterval} {tie : TieRule} {digits : ℕ} {d : Decimal}

/-- A positive value is at least one unit of its last digit. -/
theorem significand_nearest? (hvalue : 0 < i.value) (h : i.nearest? tie digits = some d) :
    d.significand ≠ 0 := by
  obtain ⟨hlow, -⟩ := leadingExponent_spec hvalue
  have hunit : (10 : ℚ) ^ (leadingExponent i.value - (digits - 1 : ℕ)) ≤ i.value := by
    refine le_trans (zpow_le_zpow_right₀ (by norm_num) ?_) hlow
    omega
  have hbelow : 1 ≤ (i.value / 10 ^ (leadingExponent i.value - (digits - 1 : ℕ))).floor := by
    rw [Rat.le_floor_iff]
    exact_mod_cast (one_le_div (ten_zpow_pos _)).2 hunit
  unfold nearest? at h
  extract_lets exponent unit below rest upper at h
  have hpositive : below ≠ 0 := by
    have : 0 < below := Int.lt_toNat.2 hbelow
    omega
  split at h
  · cases h
  · cases h
    exact hpositive
  · cases h
    exact Nat.succ_ne_zero _
  · cases h
    dsimp only
    split
    · exact Nat.succ_ne_zero _
    · exact hpositive

theorem significand_normalize (h : d.significand ≠ 0) : (normalize d).significand ≠ 0 := by
  fun_induction normalize d with
  | case1 d hlast => exact h
  | case2 d hlast ih =>
      apply ih
      dsimp only
      omega

theorem significand_shortest {m : ℕ} (hm : m ≠ 0) (e : ℤ) :
    (shortest tie m e).significand ≠ 0 ∨ shortest tie m e = ⟨0, 0⟩ := by
  have hvalue : 0 < (ofDouble m e).value := by
    have hpositive : (0 : ℚ) < m := by exact_mod_cast Nat.pos_of_ne_zero hm
    exact mul_pos hpositive (zpow_pos two_pos e)
  unfold shortest
  extract_lets interval
  cases hfound : (List.range enoughDigits).findSome? fun n => interval.nearest? tie (n + 1) with
  | none => exact Or.inr rfl
  | some d =>
      obtain ⟨n, -, hnearest⟩ := List.exists_of_findSome?_eq_some hfound
      exact Or.inl (significand_nearest? hvalue hnearest)

end Shortest

end Decimal

namespace Value

/-- No zeros are put behind the digit of zero. -/
theorem exponent_decimalOf {m : ℕ} {e : ℤ} (h : (decimalOf m e).significand = 0) :
    (decimalOf m e).exponent = 0 := by
  unfold decimalOf at h ⊢
  split_ifs at h ⊢ with hm
  · rfl
  · rcases Decimal.significand_shortest hm e with hsome | hnone
    · exact absurd h (Decimal.significand_normalize hsome)
    · rw [hnone, Decimal.normalize, dif_pos (Or.inl rfl)]

section Plain

variable (d : Decimal)

theorem fraction_plainNumeral :
    ∃ fraction, (plainNumeral d).fraction = some fraction ∧ fraction ≠ [] ∧
      ∀ c ∈ fraction, isDigit c = true := by
  refine ⟨_, rfl, ?_, ?_⟩
  · split
    · decide
    · next hsome => simpa using hsome
  · intro c hc
    split at hc
    · rw [List.mem_singleton] at hc
      subst hc
      decide
    · exact isDigit_of_mem_positions (Or.inr hc)

theorem isScanned_plainNumeral : (plainNumeral d).IsScanned where
  whole := List.all_eq_true.2 fun _ hc => isDigit_of_mem_positions (Or.inl hc)
  fraction := by
    obtain ⟨fraction, hfraction, -, hdigits⟩ := fraction_plainNumeral d
    rw [hfraction]
    rintro _ ⟨⟩
    exact List.all_eq_true.2 hdigits
  exponent := nofun

theorem isNumeral_plainNumeral (hzero : d.significand = 0 → d.exponent = 0) :
    Json.isNumeral (plainNumeral d) = true := by
  have hwhole : (plainNumeral d).whole = d.positions.1 := rfl
  obtain ⟨hne, hfront⟩ := d.front_positions hzero
  obtain ⟨fraction, hfraction, hsome, -⟩ := fraction_plainNumeral d
  simpa [Json.isNumeral, hwhole, hfraction, hne, hsome] using hfront

end Plain

section Scientific

variable {digits : List Char} (exponent : ℤ)

theorem isScanned_scientificNumeral (hdigits : ∀ c ∈ digits, isDigit c = true) :
    (scientificNumeral digits exponent).IsScanned where
  whole := List.all_eq_true.2 fun c hc => hdigits c (List.mem_of_mem_take hc)
  fraction := by
    intro more hmore
    obtain ⟨-, heq⟩ := Option.ite_none_left_eq_some.1 (Option.mem_def.1 hmore)
    obtain rfl := Option.some.inj heq
    exact List.all_eq_true.2 fun c hc => hdigits c (List.mem_of_mem_drop hc)
  exponent := by
    rintro _ ⟨⟩
    refine ⟨Or.inl rfl, ?_, List.all_eq_true.2 fun _ => isDigit_of_mem_toDigits,
      Nat.toDigits_ne_nil⟩
    dsimp only
    split_ifs <;> simp

theorem isNumeral_scientificNumeral (hsome : digits ≠ []) :
    Json.isNumeral (scientificNumeral digits exponent) = true := by
  obtain ⟨first, more, rfl⟩ := List.exists_cons_of_ne_nil hsome
  cases more <;> rfl

end Scientific

/-- The text of a double is not that of an integer. -/
theorem isWhole_numeralOf (d : Decimal) : (numeralOf d).isWhole = false := by
  unfold numeralOf
  extract_lets digits exponent
  split
  · rfl
  · simp [scientificNumeral, Numeral.isWhole]

theorem isScanned_numeralOf (d : Decimal) : (numeralOf d).IsScanned := by
  unfold numeralOf
  extract_lets digits exponent
  split
  · exact isScanned_plainNumeral d
  · exact isScanned_scientificNumeral exponent fun _ => isDigit_of_mem_toDigits

theorem isNumeral_numeralOf {d : Decimal} (hzero : d.significand = 0 → d.exponent = 0) :
    Json.isNumeral (numeralOf d) = true := by
  unfold numeralOf
  extract_lets digits exponent
  split
  · exact isNumeral_plainNumeral d hzero
  · exact isNumeral_scientificNumeral exponent Nat.toDigits_ne_nil

end Value

end Abacus
