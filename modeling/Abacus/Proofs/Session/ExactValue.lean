import Mathlib.Data.Rat.Lemmas
import Mathlib.Algebra.Order.Field.Rat
import Mathlib.Tactic.Ring
import Mathlib.Tactic.Linarith
import Abacus.Session.Basic
import Abacus.Proofs.Number.Word

/-!
# Exact values

What an expression denotes in the rational numbers, with no regard to the calculator's integers, and
the condition under which those have a place for it.
-/

namespace Abacus

/-- The part of a rational number before the point. -/
def truncate (q : ℚ) : ℤ := q.num.tdiv q.den

theorem truncate_div {a b : ℤ} (hb : b ≠ 0) : truncate ((a : ℚ) / b) = a.tdiv b := by
  unfold truncate
  obtain ⟨c, hnum, hden⟩ := Rat.exists_eq_mul_div_num_and_eq_mul_div_den a hb
  generalize ((a : ℚ) / b).num = x at *
  generalize (((a : ℚ) / b).den : ℤ) = y at *
  subst hnum hden
  rcases lt_trichotomy c 0 with hc | hc | hc
  · rw [← Int.mul_tdiv_mul_of_pos x y (Int.neg_pos_of_neg hc), Int.neg_mul, Int.neg_mul,
      Int.neg_tdiv_neg]
  · exact absurd (by rw [hc, Int.zero_mul]) hb
  · rw [Int.mul_tdiv_mul_of_pos x y hc]

/-- The exact result of an operation, if it has one. A power has one where its exponent is whole. -/
def Operation.rational? : Operation → ℚ → ℚ → Option ℚ
  | .add, a, b => some (a + b)
  | .subtract, a, b => some (a - b)
  | .multiply, a, b => some (a * b)
  | .divide, a, b => if b = 0 then none else some (a / b)
  | .remainder, a, b => if b = 0 then none else some (a - b * truncate (a / b))
  | .power, a, b => if b.den = 1 ∧ (a = 0 → 0 ≤ b) then some (a ^ b.num) else none

namespace Operation

variable {a b n : ℤ}

theorem rational?_add_eq_some : add.rational? a b = some (n : ℚ) ↔ n = a + b := by
  rw [rational?, Option.some_inj]
  norm_cast
  exact eq_comm

theorem rational?_subtract_eq_some : subtract.rational? a b = some (n : ℚ) ↔ n = a - b := by
  rw [rational?, Option.some_inj]
  norm_cast
  exact eq_comm

theorem rational?_multiply_eq_some : multiply.rational? a b = some (n : ℚ) ↔ n = a * b := by
  rw [rational?, Option.some_inj]
  norm_cast
  exact eq_comm

theorem rational?_divide_eq_some :
    divide.rational? a b = some (n : ℚ) ↔ b ≠ 0 ∧ a = n * b := by
  by_cases hb : b = 0
  · simp [rational?, hb]
  · have hcast : (b : ℚ) ≠ 0 := Int.cast_ne_zero.2 hb
    rw [rational?, if_neg hcast, Option.some_inj, div_eq_iff hcast]
    norm_cast
    exact (and_iff_right hb).symm

theorem rational?_remainder_eq_some :
    remainder.rational? a b = some (n : ℚ) ↔ b ≠ 0 ∧ n = a.tmod b := by
  by_cases hb : b = 0
  · simp [rational?, hb]
  · have hcast : (b : ℚ) ≠ 0 := Int.cast_ne_zero.2 hb
    rw [rational?, if_neg hcast, Option.some_inj, truncate_div hb, Int.tmod_def, and_iff_right hb]
    norm_cast
    exact eq_comm

theorem rational?_power_eq_some (hb : 0 ≤ b) :
    power.rational? a b = some (n : ℚ) ↔ n = a ^ b.toNat := by
  obtain ⟨k, rfl⟩ := Int.eq_ofNat_of_zero_le hb
  have hwhole : ((k : ℤ) : ℚ).den = 1 ∧ ((a : ℚ) = 0 → 0 ≤ ((k : ℤ) : ℚ)) :=
    ⟨Rat.den_intCast k, fun _ => Int.cast_nonneg hb⟩
  rw [rational?, if_pos hwhole, Option.some_inj, Rat.num_intCast, zpow_natCast]
  norm_cast
  exact eq_comm

end Operation

/-- Where integers are computed with as such: negative exponents are left to the doubles, and there
is no remainder where the quotient is out of range. -/
def Operation.Admits : Operation → ℚ → ℚ → Prop
  | .remainder, a, b => ¬(a = Width.int64.least ∧ b = -1)
  | .power, _, b => 0 ≤ b
  | _, _, _ => True

/-- The exact result of a function that has one. -/
def Function.rational? : Function → ℚ → Option ℚ
  | .square, a => some (a ^ 2)
  | .abs, a => some |a|
  | _, _ => none

namespace Function

variable {a n : ℤ}

theorem rational?_square_eq_some : square.rational? a = some (n : ℚ) ↔ n = a ^ 2 := by
  rw [rational?, Option.some_inj]
  norm_cast
  exact eq_comm

theorem rational?_abs_eq_some : abs.rational? a = some (n : ℚ) ↔ n = |a| := by
  rw [rational?, Option.some_inj]
  norm_cast
  exact eq_comm

end Function

def Value.integer? : Value → Option ℤ
  | .integer n => some n.val
  | .decimal _ => none

theorem Value.integer?_eq_some {v : Value} {n : Integer} :
    v.integer? = some n.val ↔ v = .integer n := by
  cases v with
  | decimal x => simp [integer?]
  | integer m => simp [integer?, Word.ext_iff]

/-- The integer that a name stands for in a session, if it stands for one. -/
def Session.integer? (s : Session) (name : String) : Option ℤ :=
  (if name = answerName then some s.answer else s.bindings.find? name).bind Value.integer?

namespace Expr

/-- The exact value of an expression over integers, if it has one. -/
def rational? (valuation : String → Option ℤ) : Expr → Option ℚ
  | .literal (.integer n) => some n.val
  | .literal (.decimal _) => none
  | .variable name => (valuation name).map Int.cast
  | .negate operand => (operand.rational? valuation).map fun a => -a
  | .binary op lhs rhs =>
    (lhs.rational? valuation).bind fun a => (rhs.rational? valuation).bind fun b => op.rational? a b
  | .call function argument =>
    (argument.rational? valuation).bind fun a =>
      (Function.ofName? function).bind fun f => f.rational? a

/-- An expression and all the expressions in it. -/
def subexpressions : Expr → List Expr
  | .literal v => [.literal v]
  | .variable name => [.variable name]
  | .negate operand => .negate operand :: operand.subexpressions
  | .binary op lhs rhs => .binary op lhs rhs :: (lhs.subexpressions ++ rhs.subexpressions)
  | .call function argument => .call function argument :: argument.subexpressions

/-- Whether the calculator's integers have a place for the value of an expression and for what is
computed on the way from its operands to it. -/
structure Fits (valuation : String → Option ℤ) (e : Expr) : Prop where
  inRange : ∃ n : ℤ, Width.int64.Contains n ∧ e.rational? valuation = some (n : ℚ)
  admits : ∀ op lhs rhs a b, e = .binary op lhs rhs → lhs.rational? valuation = some a →
    rhs.rational? valuation = some b → op.Admits a b

theorem Fits.exists_integer {valuation : String → Option ℤ} {e : Expr} (h : e.Fits valuation) :
    ∃ n : Integer, e.rational? valuation = some (n.val : ℚ) := by
  obtain ⟨n, hn, hvalue⟩ := h.inRange
  exact ⟨⟨n, hn.1, hn.2⟩, hvalue⟩

theorem fits_of_not_binary {valuation : String → Option ℤ} {e : Expr} {n : Integer}
    (h : e.rational? valuation = some (n.val : ℚ)) (hshape : ∀ op lhs rhs, e ≠ .binary op lhs rhs) :
    e.Fits valuation where
  inRange := ⟨n.val, n.contains_val, h⟩
  admits := fun op lhs rhs _ _ he _ _ => absurd he (hshape op lhs rhs)

theorem fits_binary {valuation : String → Option ℤ} {op : Operation} {lhs rhs : Expr} {a b : ℚ}
    {n : Integer} (ha : lhs.rational? valuation = some a) (hb : rhs.rational? valuation = some b)
    (h : op.rational? a b = some (n.val : ℚ)) (hadmits : op.Admits a b) :
    (binary op lhs rhs).Fits valuation where
  inRange := ⟨n.val, n.contains_val, by simp [rational?, ha, hb, h]⟩
  admits := by
    rintro _ _ _ a' b' ⟨⟩ ha' hb'
    rw [ha, Option.some_inj] at ha'
    rw [hb, Option.some_inj] at hb'
    subst ha' hb'
    exact hadmits

theorem mem_subexpressions_self (e : Expr) : e ∈ e.subexpressions := by
  cases e <;> simp [subexpressions]

theorem subexpressions_subset {d e : Expr} (h : d ∈ e.subexpressions) :
    d.subexpressions ⊆ e.subexpressions := by
  induction e with
  | literal v =>
      obtain rfl := List.mem_singleton.1 h
      exact List.Subset.refl _
  | «variable» name =>
      obtain rfl := List.mem_singleton.1 h
      exact List.Subset.refl _
  | negate operand ih =>
      rcases List.mem_cons.1 h with rfl | h
      · exact List.Subset.refl _
      · exact List.subset_cons_of_subset _ (ih h)
  | binary op lhs rhs ihl ihr =>
      rcases List.mem_cons.1 h with rfl | h
      · exact List.Subset.refl _
      rcases List.mem_append.1 h with h | h
      · exact List.subset_cons_of_subset _ (List.subset_append_of_subset_left _ (ihl h))
      · exact List.subset_cons_of_subset _ (List.subset_append_of_subset_right _ (ihr h))
  | call function argument ih =>
      rcases List.mem_cons.1 h with rfl | h
      · exact List.Subset.refl _
      · exact List.subset_cons_of_subset _ (ih h)

end Expr

end Abacus
