import Abacus.Proofs.Arithmetic

/-!
# Division of words

Quotients of words are rounded toward zero, and a remainder has the sign of the dividend. Both are
given for every divisor but zero, except that the least word of a signed width cannot be divided by
minus one. No product of words is divided that way by one of its factors, so a division undoes a
multiplication.
-/

namespace Abacus.Arithmetic

variable {w : Width} {a b p : Word w}

theorem divide_of_zero (hb : b.val = 0) : divide a b = .error .divisionByZero :=
  if_pos (isZero_eq_true.2 hb)

theorem divide_of_nonzero (hb : b.val ≠ 0) : divide a b = orOverflow .divide (Word.div? a b) :=
  if_neg (mt isZero_eq_true.1 hb)

theorem remainder_of_zero (hb : b.val = 0) : remainder a b = .error .divisionByZero :=
  if_pos (isZero_eq_true.2 hb)

theorem remainder_of_nonzero (hb : b.val ≠ 0) :
    remainder a b = orOverflow .remainder (Word.rem? a b) :=
  if_neg (mt isZero_eq_true.1 hb)

/-! ## The quotient out of range -/

section Overflow

theorem div?_of_overflow (ha : a.val = w.least) (hb : b.val = -1) : Word.div? a b = none := by
  rw [Option.eq_none_iff_forall_ne_some]
  intro q hq
  obtain ⟨hnonzero, hvalue⟩ := Word.div?_eq_some.1 hq
  exact (Word.contains_tdiv hnonzero).1 (hvalue ▸ q.contains_val) ⟨ha, hb⟩

theorem divide_of_overflow (ha : a.val = w.least) (hb : b.val = -1) :
    divide a b = .error (.overflow .divide) := by
  rw [divide_of_nonzero (by omega), div?_of_overflow ha hb]
  rfl

theorem remainder_of_overflow (ha : a.val = w.least) (hb : b.val = -1) :
    remainder a b = .error (.overflow .remainder) := by
  rw [remainder_of_nonzero (by omega), Word.rem?, div?_of_overflow ha hb]
  rfl

end Overflow

/-! ## All other quotients -/

section Quotients

theorem exists_divide (hb : b.val ≠ 0) (hexcept : ¬(a.val = w.least ∧ b.val = -1)) :
    ∃ q : Word w, q.val = a.val.tdiv b.val ∧ divide a b = .ok q := by
  have hq := (Word.contains_tdiv hb).2 hexcept
  exact ⟨⟨a.val.tdiv b.val, hq.1, hq.2⟩, rfl, divide_eq_ok.2 ⟨hb, rfl⟩⟩

theorem exists_remainder (hb : b.val ≠ 0) (hexcept : ¬(a.val = w.least ∧ b.val = -1)) :
    ∃ r : Word w, r.val = a.val.tmod b.val ∧ remainder a b = .ok r := by
  have hr := Word.contains_tmod a b
  exact ⟨⟨a.val.tmod b.val, hr.1, hr.2⟩, rfl, remainder_eq_ok.2 ⟨hb, hexcept, rfl⟩⟩

/-- What a quotient rounded toward zero leaves is smaller than the divisor. -/
theorem abs_tmod_lt {m n : ℤ} (hn : n ≠ 0) : |m.tmod n| < |n| := by
  rw [Int.abs_eq_natAbs, Int.abs_eq_natAbs, Int.natAbs_tmod]
  exact_mod_cast Nat.mod_lt _ (Int.natAbs_pos.2 hn)

theorem tmod_eq_zero_or_sign (m n : ℤ) : m.tmod n = 0 ∨ (m.tmod n).sign = m.sign := by
  by_cases hdvd : n ∣ m
  · exact Or.inl (Int.dvd_iff_tmod_eq_zero.1 hdvd)
  · right
    rw [Int.sign_tmod, if_neg hdvd]

/-- Quotient and remainder of two words, rounded toward zero. -/
structure IsDivision (a b : Word w) (quotient rest : Except ArithmeticError (Word w)) : Prop where
  zero : quotient = .error .divisionByZero ↔ b.val = 0
  zero_rest : rest = .error .divisionByZero ↔ b.val = 0
  overflow : quotient = .error (.overflow .divide) ↔
    w.signed = true ∧ a.val = w.least ∧ b.val = -1
  overflow_rest : rest = .error (.overflow .remainder) ↔
    w.signed = true ∧ a.val = w.least ∧ b.val = -1
  regular : b.val ≠ 0 → ¬(w.signed = true ∧ a.val = w.least ∧ b.val = -1) →
    ∃ q r : Word w, quotient = .ok q ∧ rest = .ok r ∧ a.val = q.val * b.val + r.val ∧
      |r.val| < |b.val| ∧ (r.val = 0 ∨ r.val.sign = a.val.sign)

/-- There is no minus one without a sign. -/
theorem signed_of_val (hb : b.val = -1) : w.signed = true := by
  cases hs : w.signed with
  | true => rfl
  | false =>
      have hnonneg := b.val_nonneg hs
      omega

theorem isDivision (a b : Word w) : IsDivision a b (divide a b) (remainder a b) := by
  by_cases hb : b.val = 0
  · rw [divide_of_zero hb, remainder_of_zero hb]
    constructor <;> simp [hb]
  by_cases hexcept : a.val = w.least ∧ b.val = -1
  · have hsigned := signed_of_val hexcept.2
    rw [divide_of_overflow hexcept.1 hexcept.2, remainder_of_overflow hexcept.1 hexcept.2]
    constructor <;> simp [hexcept, hsigned]
  · obtain ⟨q, hq, hquotient⟩ := exists_divide hb hexcept
    obtain ⟨r, hr, hrest⟩ := exists_remainder hb hexcept
    have hfine : ¬(w.signed = true ∧ a.val = w.least ∧ b.val = -1) := fun h => hexcept h.2
    rw [hquotient, hrest]
    refine ⟨by simp [hb], by simp [hb], by simp [hfine], by simp [hfine], fun _ _ => ?_⟩
    refine ⟨q, r, rfl, rfl, ?_, ?_, ?_⟩
    · rw [hq, hr, Int.mul_comm, Int.mul_tdiv_add_tmod]
    · rw [hr]
      exact abs_tmod_lt hb
    · rw [hr]
      exact tmod_eq_zero_or_sign a.val b.val

/-- The product of two words is divided by one of them without a remainder. -/
theorem divide_product (hb : b.val ≠ 0) (hp : checkedMultiply a b = .ok p) :
    divide p b = .ok a ∧ remainder p b = .ok Word.zero := by
  have hvalue := checkedMultiply_eq_ok.1 hp
  have hquotient : p.val.tdiv b.val = a.val := by
    rw [hvalue, Int.mul_tdiv_cancel _ hb]
  have hrange : w.Contains (p.val.tdiv b.val) := by
    rw [hquotient]
    exact a.contains_val
  refine ⟨divide_eq_ok.2 ⟨hb, hquotient.symm⟩, ?_⟩
  refine remainder_eq_ok.2 ⟨hb, (Word.contains_tdiv hb).1 hrange, ?_⟩
  rw [hvalue, Int.mul_tmod_left]
  rfl

/-- Division of words is rounded toward zero. It fails for a zero divisor and where the quotient is
out of range, and undoes every multiplication that is exact. -/
theorem division_truncated (a b : Word w) :
    IsDivision a b (divide a b) (remainder a b) ∧
      ∀ p, b.val ≠ 0 → checkedMultiply a b = .ok p →
        divide p b = .ok a ∧ remainder p b = .ok Number.zero :=
  ⟨isDivision a b, fun _ hb hp => divide_product hb hp⟩

/-- On bytes with a sign, `-7 * 18` is divided by `18` again. -/
theorem division_truncated_byte :
    let a : Word (.signedBits 8) := ⟨-7, by decide, by decide⟩
    let b : Word (.signedBits 8) := ⟨18, by decide, by decide⟩
    let p : Word (.signedBits 8) := ⟨-126, by decide, by decide⟩
    b.val ≠ 0 ∧ checkedMultiply a b = .ok p ∧ divide p b = .ok a ∧
      remainder p b = .ok Number.zero := by
  intro a b p
  have hproduct : checkedMultiply a b = .ok p := checkedMultiply_eq_ok.2 (by decide)
  have hback := (division_truncated a b).2 p (by decide) hproduct
  exact ⟨by decide, hproduct, hback.1, hback.2⟩

end Quotients

end Abacus.Arithmetic
