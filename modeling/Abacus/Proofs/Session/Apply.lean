import Abacus.Proofs.Except
import Abacus.Proofs.Number.Finite
import Abacus.Session.Apply

/-!
# When an operation succeeds

Operations on doubles only ever give finite doubles, and a quotient of integers is an integer
exactly if nothing is left.
-/

namespace Abacus

variable {op : Operation} {a b : Integer} {x y : Float} {v : Value}

theorem applyFloats_eq_ok :
    applyFloats op x y = .ok v ↔
      ∃ z, floatResult op x y = .ok z ∧ z.isNaN = false ∧ z.isFinite = true ∧ .decimal z = v := by
  unfold applyFloats
  rw [bind_eq_ok]
  refine exists_congr fun z => and_congr_right fun _ => ?_
  cases z.isNaN <;> cases z.isFinite <;> simp

/-- What an operation computes from two doubles, with no regard to zero divisors and overflow. -/
def Operation.double : Operation → Float → Float → Float
  | .add, x, y => x + y
  | .subtract, x, y => x - y
  | .multiply, x, y => x * y
  | .divide, x, y => x / y
  | .remainder, x, y => Binary64.remainder x y
  | .power, x, y => Binary64.pow x y

theorem floatResult_eq_double (hop : op ≠ .power)
    (hzero : op = .divide ∨ op = .remainder → Binary64.isZero y = false)
    (hfinite : (op.double x y).isFinite = true) : floatResult op x y = .ok (op.double x y) := by
  have hresult : ∀ operandsFinite,
      Binary64.finiteResult? operandsFinite (op.double x y) = some (op.double x y) := by
    intro operandsFinite
    simp [Binary64.finiteResult?, hfinite]
  cases op with
  | add => exact congrArg (Arithmetic.orOverflow .add) (hresult _)
  | subtract => exact congrArg (Arithmetic.orOverflow .subtract) (hresult _)
  | multiply => exact congrArg (Arithmetic.orOverflow .multiply) (hresult _)
  | divide =>
      have hy : Binary64.isZero y = false := hzero (Or.inl rfl)
      simp only [floatResult, Arithmetic.divide, Number.isZero, Number.div?, hy, Bool.false_eq_true,
        if_false]
      exact congrArg (Arithmetic.orOverflow .divide) (hresult _)
  | remainder =>
      have hy : Binary64.isZero y = false := hzero (Or.inr rfl)
      simp only [floatResult, Arithmetic.remainder, Number.isZero, Number.rem?, hy,
        Bool.false_eq_true, if_false]
      rfl
  | power => exact absurd rfl hop

theorem applyFloats_eq_double (hop : op ≠ .power)
    (hzero : op = .divide ∨ op = .remainder → Binary64.isZero y = false)
    (hfinite : (op.double x y).isFinite = true) :
    applyFloats op x y = .ok (.decimal (op.double x y)) :=
  applyFloats_eq_ok.2 ⟨_, floatResult_eq_double hop hzero hfinite,
    Binary64.isNaN_of_isFinite hfinite, hfinite, rfl⟩

theorem divideIntegers_eq_ok :
    divideIntegers a b = .ok v ↔
      ∃ r, Arithmetic.remainder a b = .ok r ∧
        ((r.val = 0 ∧ ∃ n, Arithmetic.divide a b = .ok n ∧ .integer n = v) ∨
          (r.val ≠ 0 ∧ ∃ z, Arithmetic.divide (Binary64.ofInt a.val) (Binary64.ofInt b.val) =
            .ok z ∧ .decimal z = v)) := by
  unfold divideIntegers
  cases hrem : Arithmetic.remainder a b with
  | error e => cases e <;> simp
  | ok r =>
      by_cases hzero : r.val = 0
      · simp [hzero, map_eq_ok]
      · simp [hzero, map_eq_ok]

end Abacus
