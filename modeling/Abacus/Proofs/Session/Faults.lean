import Abacus.Proofs.Session.Integers
import Abacus.Proofs.Session.Invariant
import Abacus.Proofs.Session.Zeros

/-!
# What operations fail with

An operation gives finite values only, an overflow is one of the operation itself, and there is only
one reason for which a division by zero is reported: a zero divisor, or a zero that is raised to a
negative power.
-/

namespace Abacus

open Arithmetic

variable {op : Operation} {a b : Integer} {x y : Float} {v w : Value} {mode : NumberMode}

/-! ## Division by zero -/

section Zeros

namespace Value

/-- A value below zero; the negative zero is not. -/
def IsNegative : Value → Prop
  | .integer n => n.val < 0
  | .decimal x => Binary64.isNegative x = true

theorem isZero_toFloat (v : Value) : Binary64.isZero v.toFloat = v.isZero := by
  cases v with
  | integer n => exact Binary64.isZero_ofInt n
  | decimal x => rfl

theorem isNegative_toFloat (v : Value) : Binary64.isNegative v.toFloat = true ↔ v.IsNegative := by
  cases v with
  | integer n =>
      rw [toFloat, Binary64.isNegative_ofInt, decide_eq_true_eq]
      rfl
  | decimal x => rfl

theorem isFinite_toFloat_iff (v : Value) : v.toFloat.isFinite = true ↔ v.IsFinite := by
  cases v with
  | integer n => exact iff_of_true (Binary64.isFinite_ofInt n) trivial
  | decimal x => rfl

end Value

/-- A zero divisor, or a zero that is raised to a finite negative power. -/
def Operation.DividesByZero (op : Operation) (lhs rhs : Value) : Prop :=
  ((op = .divide ∨ op = .remainder) ∧ rhs.isZero = true) ∨
    (op = .power ∧ lhs.isZero = true ∧ rhs.IsFinite ∧ rhs.IsNegative)

theorem dividesByZero_toFloat :
    op.DividesByZero (.decimal v.toFloat) (.decimal w.toFloat) ↔ op.DividesByZero v w := by
  simp only [Operation.DividesByZero, Value.isZero, Value.IsFinite, Value.IsNegative,
    Value.isZero_toFloat, Value.isFinite_toFloat_iff, Value.isNegative_toFloat]

end Zeros

/-! ## Truthful results -/

section Truth

variable {α β : Type} {p : Prop} {r : Except ArithmeticError α}

/-- Every fault of a result is what it says: an overflow names the operation, and a division by zero
is reported exactly where `p` holds. -/
def Truthful (op : Operation) (p : Prop) : Except ArithmeticError α → Prop
  | .ok _ => ¬p
  | .error .divisionByZero => p
  | .error (.overflow named) => named = op ∧ ¬p
  | .error (.domain _) => ¬p

theorem truthful_orOverflow (x : Option α) (hp : ¬p) : Truthful op p (orOverflow op x) := by
  cases x with
  | none => exact ⟨rfl, hp⟩
  | some a => exact hp

theorem truthful_map {f : α → β} : Truthful op p (r.map f) ↔ Truthful op p r := by
  cases r with
  | ok a => rfl
  | error e => cases e <;> rfl

theorem Truthful.congr {q : Prop} (h : Truthful op p r) (hpq : p ↔ q) : Truthful op q r :=
  propext hpq ▸ h

theorem Truthful.overflow (h : Truthful op p r) {named : Operation}
    (hr : r = .error (.overflow named)) : named = op := by
  rw [hr] at h
  exact h.1

theorem Truthful.divisionByZero (h : Truthful op p r) : r = .error .divisionByZero ↔ p := by
  cases r with
  | ok a => exact iff_of_false nofun h
  | error e =>
      cases e with
      | divisionByZero => exact iff_of_true rfl h
      | overflow named => exact iff_of_false nofun h.2
      | domain fault => exact iff_of_false nofun h

end Truth

/-! ## Doubles -/

section Doubles

theorem not_dividesByZero (hdivide : op ≠ .divide) (hremainder : op ≠ .remainder)
    (hpower : op ≠ .power) : ¬op.DividesByZero v w := by
  rintro (⟨rfl | rfl, -⟩ | ⟨rfl, -⟩)
  · exact hdivide rfl
  · exact hremainder rfl
  · exact hpower rfl

theorem dividesByZero_of_divisor (h : op = .divide ∨ op = .remainder) :
    op.DividesByZero v w ↔ w.isZero = true := by
  rcases h with rfl | rfl <;> simp [Operation.DividesByZero]

theorem dividesByZero_power :
    Operation.power.DividesByZero v w ↔ v.isZero = true ∧ w.IsFinite ∧ w.IsNegative := by
  simp [Operation.DividesByZero]

theorem truthful_divisor (h : op = .divide ∨ op = .remainder) (z : Option Float) :
    Truthful op (op.DividesByZero (.decimal x) (.decimal y))
      (if Binary64.isZero y then .error .divisionByZero else orOverflow op z) := by
  have hzero := dividesByZero_of_divisor (v := .decimal x) (w := .decimal y) h
  split_ifs with hy
  · exact hzero.2 hy
  · exact truthful_orOverflow z (mt hzero.1 hy)

/-- The powers of zero with a finite negative exponent are infinite, so they never get through. -/
theorem truthful_floatPower (x y : Float) :
    Truthful .power (Operation.power.DividesByZero (.decimal x) (.decimal y)) (floatPower x y) := by
  have hdivides := dividesByZero_power (v := .decimal x) (w := .decimal y)
  by_cases hzero : Operation.power.DividesByZero (.decimal x) (.decimal y)
  · obtain ⟨hx, hy, hsign⟩ := hdivides.1 hzero
    rw [floatPower_zero_of_isNegative hx hy hsign]
    exact hzero
  · unfold floatPower
    dsimp only
    split_ifs with hnan hinfinite hdivision
    · exact hzero
    · rw [Bool.and_eq_true] at hinfinite hdivision
      exact hdivides.2 ⟨hdivision.1, hinfinite.2, hdivision.2⟩
    · exact ⟨rfl, hzero⟩
    · exact hzero

theorem truthful_floatResult (op : Operation) (x y : Float) :
    Truthful op (op.DividesByZero (.decimal x) (.decimal y)) (floatResult op x y) := by
  cases op with
  | divide => exact truthful_divisor (Or.inl rfl) _
  | remainder => exact truthful_divisor (Or.inr rfl) _
  | power => exact truthful_floatPower x y
  | _ => exact truthful_orOverflow _ (not_dividesByZero nofun nofun nofun)

theorem truthful_applyFloats (op : Operation) (x y : Float) :
    Truthful op (op.DividesByZero (.decimal x) (.decimal y)) (applyFloats op x y) := by
  have hresult := truthful_floatResult op x y
  unfold applyFloats
  cases hfloat : floatResult op x y with
  | error e =>
      rw [hfloat] at hresult
      cases e <;> exact hresult
  | ok z =>
      rw [hfloat] at hresult
      simp only [bind, Except.bind]
      split_ifs
      · exact hresult
      · exact ⟨rfl, hresult⟩
      · exact hresult

end Doubles

/-! ## Integers -/

section Integers

theorem isZero_integer : (Value.integer b).isZero = true ↔ b.val = 0 :=
  beq_iff_eq

theorem truthful_remainder (a b : Integer) :
    Truthful .remainder (Operation.remainder.DividesByZero (.integer a) (.integer b))
      (Arithmetic.remainder a b) := by
  have hdivides := dividesByZero_of_divisor (v := .integer a) (w := .integer b) (Or.inr rfl)
  by_cases hb : b.val = 0
  · rw [remainder_of_zero hb]
    exact hdivides.2 (isZero_integer.2 hb)
  · rw [remainder_of_nonzero hb]
    exact truthful_orOverflow _ (mt hdivides.1 (mt isZero_integer.1 hb))

theorem truthful_divideIntegers (a b : Integer) :
    Truthful .divide (Operation.divide.DividesByZero (.integer a) (.integer b))
      (divideIntegers a b) := by
  have hdivides := dividesByZero_of_divisor (v := .integer a) (w := .integer b) (Or.inl rfl)
  by_cases hb : b.val = 0
  · rw [divideIntegers_of_zero hb]
    exact hdivides.2 (isZero_integer.2 hb)
  have hnot : ¬Operation.divide.DividesByZero (.integer a) (.integer b) :=
    mt hdivides.1 (mt isZero_integer.1 hb)
  by_cases hexcept : a.val = Width.int64.least ∧ b.val = -1
  · rw [divideIntegers_of_overflow hexcept.1 hexcept.2]
    exact ⟨rfl, hnot⟩
  by_cases hdvd : b.val ∣ a.val
  · obtain ⟨c, -, hc⟩ := exists_quotient hb hexcept hdvd
    rw [hc]
    exact hnot
  · rw [(divideIntegers_of_not_dvd hb hdvd).2]
    exact hnot

theorem truthful_powerIntegers (a b : Integer) :
    Truthful .power (Operation.power.DividesByZero (.integer a) (.integer b))
      (powerIntegers a b) := by
  by_cases hb : b.val < 0
  · have hfloats := truthful_applyFloats .power (Binary64.ofInt a.val) (Binary64.ofInt b.val)
    rw [powerIntegers, if_pos hb]
    exact hfloats.congr (dividesByZero_toFloat (v := .integer a) (w := .integer b))
  · have hnot : ¬Operation.power.DividesByZero (.integer a) (.integer b) := by
      intro hdivides
      exact hb (dividesByZero_power.1 hdivides).2.2
    rcases powerIntegers_cases (a := a) (not_lt.1 hb) with ⟨c, hc⟩ | hoverflow
    · rw [hc]
      exact hnot
    · rw [hoverflow]
      exact ⟨rfl, hnot⟩

theorem truthful_applyIntegers (op : Operation) (a b : Integer) :
    Truthful op (op.DividesByZero (.integer a) (.integer b)) (applyIntegers op a b) := by
  cases op with
  | divide => exact truthful_divideIntegers a b
  | remainder => exact truthful_map.2 (truthful_remainder a b)
  | power => exact truthful_powerIntegers a b
  | _ => exact truthful_map.2 (truthful_orOverflow _ (not_dividesByZero nofun nofun nofun))

end Integers

/-! ## All values -/

theorem truthful_apply (op : Operation) (mode : NumberMode) (v w : Value) :
    Truthful op (op.DividesByZero v w) (op.apply mode v w) := by
  have hfloats : Truthful op (op.DividesByZero v w) (applyFloats op v.toFloat w.toFloat) :=
    (truthful_applyFloats op v.toFloat w.toFloat).congr dividesByZero_toFloat
  cases mode with
  | float => exact hfloats
  | exact =>
      cases v with
      | decimal x => exact hfloats
      | integer a =>
          cases w with
          | decimal y => exact hfloats
          | integer b => exact truthful_applyIntegers op a b

/-- Where a double is involved, so is the result. -/
theorem apply_decimal (hdecimal : mode = .float ∨ v.isInteger = false ∨ w.isInteger = false)
    {result : Value} (h : op.apply mode v w = .ok result) : result.isInteger = false := by
  cases hresult : result with
  | decimal x => rfl
  | integer n =>
      rw [hresult] at h
      cases mode with
      | float => exact absurd h applyFloats_ne_integer
      | exact =>
          obtain ⟨a, b, rfl, rfl, -⟩ := apply_eq_integer.1 h
          rcases hdecimal with hdecimal | hdecimal | hdecimal <;> cases hdecimal

/-- An operation on any two values, finite or not, gives a finite value or fails for the reason it
reports. -/
theorem apply_safe (op : Operation) (mode : NumberMode) (lhs rhs : Value) :
    (∀ result, op.apply mode lhs rhs = .ok result →
      result.IsFinite ∧
        (mode = .float ∨ lhs.isInteger = false ∨ rhs.isInteger = false →
          result.isInteger = false)) ∧
      (∀ named, op.apply mode lhs rhs = .error (.overflow named) → named = op) ∧
      (op.apply mode lhs rhs = .error .divisionByZero ↔
        ((op = .divide ∨ op = .remainder) ∧ rhs.isZero = true) ∨
          (op = .power ∧ lhs.isZero = true ∧ rhs.IsFinite ∧ rhs.IsNegative)) := by
  have htruthful := truthful_apply op mode lhs rhs
  refine ⟨?_, fun named hnamed => htruthful.overflow hnamed, htruthful.divisionByZero⟩
  intro result hresult
  exact ⟨(proper_apply hresult).finite, fun hdecimal => apply_decimal hdecimal hresult⟩

end Abacus
