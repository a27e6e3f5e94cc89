import Abacus.Proofs.Number.Division
import Abacus.Proofs.Number.Integers
import Abacus.Proofs.Session.Exactness

/-!
# Operations on integers in exact mode

What each operation gives for any two integers: the exact integer where there is one in range, and
otherwise a double or an error. The errors are told apart by the operands alone.
-/

namespace Abacus

open Arithmetic

variable {op : Operation} {a b : Integer} {n : ℤ} {result : Except ArithmeticError Value}

/-! ## Results that are exact or out of range -/

/-- The exact integer where it is in range, else an overflow of the operation. -/
structure IsExact (op : Operation) (n : ℤ) (result : Except ArithmeticError Value) : Prop where
  fits : Width.int64.Contains n → ∃ c : Integer, c.val = n ∧ result = .ok (.integer c)
  overflows : ¬Width.int64.Contains n → result = .error (.overflow op)

theorem isExact_ofInt? (op : Operation) (n : ℤ) :
    IsExact op n ((orOverflow op (Word.ofInt? Width.int64 n)).map .integer) := by
  constructor
  · intro hn
    rw [Word.ofInt?_of_contains hn]
    exact ⟨_, rfl, rfl⟩
  · intro hn
    rw [Word.ofInt?_eq_none.2 hn]
    rfl

theorem isExact_add (a b : Integer) :
    IsExact .add (a.val + b.val) (applyIntegers .add a b) :=
  isExact_ofInt? .add _

theorem isExact_subtract (a b : Integer) :
    IsExact .subtract (a.val - b.val) (applyIntegers .subtract a b) :=
  isExact_ofInt? .subtract _

theorem isExact_multiply (a b : Integer) :
    IsExact .multiply (a.val * b.val) (applyIntegers .multiply a b) :=
  isExact_ofInt? .multiply _

/-! ## Remainders -/

/-- The remainder of a division of integers, which is rounded toward zero. -/
structure IsRemainder (a b : Integer) (result : Except ArithmeticError Value) : Prop where
  zero : result = .error .divisionByZero ↔ b.val = 0
  overflow : result = .error (.overflow .remainder) ↔ a.val = Width.int64.least ∧ b.val = -1
  rest : b.val ≠ 0 → ¬(a.val = Width.int64.least ∧ b.val = -1) →
    ∃ (c : Integer) (q : ℤ), result = .ok (.integer c) ∧ a.val = b.val * q + c.val ∧
      |c.val| < |b.val| ∧ (c.val = 0 ∨ c.val.sign = a.val.sign)

theorem isRemainder (a b : Integer) : IsRemainder a b (applyIntegers .remainder a b) := by
  unfold applyIntegers
  by_cases hb : b.val = 0
  · rw [remainder_of_zero hb]
    exact ⟨by simp [Except.map, hb], by simp [Except.map, hb], fun hnonzero => absurd hb hnonzero⟩
  by_cases hexcept : a.val = Width.int64.least ∧ b.val = -1
  · rw [remainder_of_overflow hexcept.1 hexcept.2]
    exact ⟨by simp [Except.map, hb], by simp [Except.map, hexcept], fun _ h => absurd hexcept h⟩
  · obtain ⟨c, hc, hresult⟩ := exists_remainder hb hexcept
    rw [hresult]
    refine ⟨by simp [Except.map, hb], by simp [Except.map, hexcept], fun _ _ => ?_⟩
    refine ⟨c, a.val.tdiv b.val, rfl, ?_, ?_, ?_⟩
    · rw [hc, Int.mul_tdiv_add_tmod]
    · rw [hc]
      exact abs_tmod_lt hb
    · rw [hc]
      exact tmod_eq_zero_or_sign a.val b.val

/-! ## Quotients -/

theorem divideIntegers_of_zero (hb : b.val = 0) :
    divideIntegers a b = .error .divisionByZero := by
  rw [divideIntegers, remainder_of_zero hb]

theorem divideIntegers_of_overflow (ha : a.val = Width.int64.least) (hb : b.val = -1) :
    divideIntegers a b = .error (.overflow .divide) := by
  rw [divideIntegers, remainder_of_overflow ha hb]

theorem exists_quotient (hb : b.val ≠ 0) (hexcept : ¬(a.val = Width.int64.least ∧ b.val = -1))
    (hdvd : b.val ∣ a.val) :
    ∃ c : Integer, c.val * b.val = a.val ∧ divideIntegers a b = .ok (.integer c) := by
  have hc := (Word.contains_tdiv hb).2 hexcept
  have hvalue := Int.tdiv_mul_cancel hdvd
  exact ⟨⟨a.val.tdiv b.val, hc.1, hc.2⟩, hvalue, divideIntegers_eq_integer.2 ⟨hb, hvalue.symm⟩⟩

/-- A quotient that does not come out even is one of doubles. -/
theorem divideIntegers_of_not_dvd (hb : b.val ≠ 0) (hdvd : ¬b.val ∣ a.val) :
    (Binary64.ofInt a.val / Binary64.ofInt b.val).isFinite = true ∧
      divideIntegers a b =
        .ok (.decimal (Binary64.ofInt a.val / Binary64.ofInt b.val)) := by
  have hlarge : 2 ≤ b.val.natAbs := by
    by_contra hsmall
    have hunit : b.val.natAbs = 1 := by omega
    exact hdvd (Int.natAbs_dvd.1 (by simp [hunit]))
  have hfinite := Binary64.isFinite_div_ofInt a hlarge
  have hexcept : ¬(a.val = Width.int64.least ∧ b.val = -1) := by omega
  obtain ⟨r, hr, hrem⟩ := exists_remainder hb hexcept
  have hrest : r.val ≠ 0 := by
    rw [hr]
    exact mt Int.dvd_iff_tmod_eq_zero.2 hdvd
  have hnonzero : Binary64.isZero (Binary64.ofInt b.val) = false := by
    rw [Binary64.isZero_ofInt, beq_eq_false_iff_ne]
    exact hb
  have hdouble : floatResult .divide (Binary64.ofInt a.val) (Binary64.ofInt b.val) = .ok _ :=
    floatResult_eq_double (by decide) (fun _ => hnonzero) hfinite
  exact ⟨hfinite, divideIntegers_eq_ok.2 ⟨r, hrem, Or.inr ⟨hrest, _, hdouble, rfl⟩⟩⟩

/-- The quotient of integers: an integer where it comes out even, else a double. -/
structure IsQuotient (a b : Integer) (result : Except ArithmeticError Value) : Prop where
  zero : result = .error .divisionByZero ↔ b.val = 0
  overflow : result = .error (.overflow .divide) ↔ a.val = Width.int64.least ∧ b.val = -1
  even : (∃ c : Integer, result = .ok (.integer c)) ↔
    b.val ≠ 0 ∧ b.val ∣ a.val ∧ ¬(a.val = Width.int64.least ∧ b.val = -1)
  even_value : ∀ c : Integer, result = .ok (.integer c) → c.val * b.val = a.val
  uneven : (∃ x, result = .ok (.decimal x)) ↔ b.val ≠ 0 ∧ ¬b.val ∣ a.val
  uneven_value : ∀ x, result = .ok (.decimal x) →
    x = Binary64.ofInt a.val / Binary64.ofInt b.val ∧ x.isFinite = true

theorem isQuotient (a b : Integer) : IsQuotient a b (divideIntegers a b) := by
  by_cases hb : b.val = 0
  · rw [divideIntegers_of_zero hb]
    constructor <;> simp [hb]
  by_cases hexcept : a.val = Width.int64.least ∧ b.val = -1
  · rw [divideIntegers_of_overflow hexcept.1 hexcept.2]
    constructor <;> simp [hexcept]
  by_cases hdvd : b.val ∣ a.val
  · obtain ⟨c, hc, hresult⟩ := exists_quotient hb hexcept hdvd
    rw [hresult]
    constructor <;> simp [hb, hexcept, hdvd, hc]
  · obtain ⟨hfinite, hresult⟩ := divideIntegers_of_not_dvd hb hdvd
    rw [hresult]
    constructor <;> simp [hb, hexcept, hdvd, hfinite]

/-! ## Powers -/

/-- A power with an exponent that is not negative: the exact one, or an overflow. -/
structure IsPower (a b : Integer) (result : Except ArithmeticError Value) : Prop where
  whole : 0 ≤ b.val → IsExact .power (a.val ^ b.val.toNat) result
  negative : b.val < 0 → ∀ c : Integer, result ≠ .ok (.integer c)

theorem powerIntegers_cases (hb : 0 ≤ b.val) :
    (∃ c : Integer, powerIntegers a b = .ok (.integer c)) ∨
      powerIntegers a b = .error (.overflow .power) := by
  unfold powerIntegers
  rw [if_neg (by omega)]
  split_ifs
  · rw [power]
    cases Number.pow? a b.val.toNat with
    | none => exact Or.inr rfl
    | some c => exact Or.inl ⟨c, rfl⟩
  all_goals first
    | exact Or.inl ⟨_, rfl⟩
    | exact Or.inr rfl

theorem isPower (a b : Integer) : IsPower a b (powerIntegers a b) := by
  constructor
  · intro hb
    constructor
    · intro hn
      exact ⟨⟨_, hn.1, hn.2⟩, rfl, powerIntegers_eq_integer.2 ⟨hb, rfl⟩⟩
    · intro hn
      rcases powerIntegers_cases (a := a) hb with ⟨c, hc⟩ | hoverflow
      · obtain ⟨-, hvalue⟩ := powerIntegers_eq_integer.1 hc
        exact absurd (hvalue ▸ c.contains_val) hn
      · exact hoverflow
  · intro hb c hc
    obtain ⟨hnonneg, -⟩ := powerIntegers_eq_integer.1 hc
    omega

/-! ## All operations -/

/-- What each operation gives for two integers. -/
theorem apply_integers_exact (a b : Integer) :
    let result := fun op => Operation.apply op .exact (.integer a) (.integer b)
    IsExact .add (a.val + b.val) (result .add) ∧
      IsExact .subtract (a.val - b.val) (result .subtract) ∧
      IsExact .multiply (a.val * b.val) (result .multiply) ∧
      IsQuotient a b (result .divide) ∧
      IsRemainder a b (result .remainder) ∧
      IsPower a b (result .power) :=
  ⟨isExact_add a b, isExact_subtract a b, isExact_multiply a b, isQuotient a b, isRemainder a b,
    isPower a b⟩

end Abacus
