import Abacus.Arithmetic
import Abacus.NumberMode
import Abacus.Value.Basic

/-!
# Operations on values

In exact mode two integers give the exact integer where there is one in range; a quotient that does
not come out even and a power with a negative exponent are doubles. All other operands are taken as
doubles, and the result has to be a finite one.
-/

namespace Abacus

open Arithmetic

def maxWholeExponent : Nat := 0xFFFFFFFF

def floatPower (base exponent : Float) : Except ArithmeticError Float :=
  let result := Binary64.pow base exponent
  if result.isNaN && !base.isNaN && !exponent.isNaN then
    .error (.domain (.fractionalPower base exponent))
  else if !result.isFinite && base.isFinite && exponent.isFinite then
    if Binary64.isZero base && Binary64.isNegative exponent then .error .divisionByZero
    else .error (.overflow .power)
  else .ok result

/-- The result of an operation on doubles, which need not be finite. -/
def floatResult (op : Operation) (a b : Float) : Except ArithmeticError Float :=
  match op with
  | .add => checkedAdd a b
  | .subtract => checkedSubtract a b
  | .multiply => checkedMultiply a b
  | .divide => divide a b
  | .remainder => Arithmetic.remainder a b
  | .power => floatPower a b

def applyFloats (op : Operation) (a b : Float) : Except ArithmeticError Value := do
  let result ← floatResult op a b
  if result.isNaN then .error (.domain (.undefined op a b))
  else if !result.isFinite then .error (.overflow op)
  else .ok (.decimal result)

/-- A quotient of integers: an integer if it comes out even, else a double. -/
def divideIntegers (a b : Integer) : Except ArithmeticError Value :=
  match Arithmetic.remainder a b with
  | .ok r =>
    if r.val = 0 then (divide a b).map .integer
    else (divide (Binary64.ofInt a.val) (Binary64.ofInt b.val)).map .decimal
  | .error (.overflow _) => .error (.overflow .divide)
  | .error e => .error e

/-- A power of integers. Beyond `maxWholeExponent` only `0`, `1` and `-1` stay in range. -/
def powerIntegers (a b : Integer) : Except ArithmeticError Value :=
  if b.val < 0 then applyFloats .power (Binary64.ofInt a.val) (Binary64.ofInt b.val)
  else if b.val ≤ maxWholeExponent then (power a b.val.toNat).map .integer
  else if a.val = 0 ∨ a.val = 1 then .ok (.integer a)
  else if a.val = -1 then .ok (.integer (if b.val % 2 = 0 then Word.one else a))
  else .error (.overflow .power)

def applyIntegers (op : Operation) (a b : Integer) : Except ArithmeticError Value :=
  match op with
  | .add => (checkedAdd a b).map .integer
  | .subtract => (checkedSubtract a b).map .integer
  | .multiply => (checkedMultiply a b).map .integer
  | .divide => divideIntegers a b
  | .remainder => (Arithmetic.remainder a b).map .integer
  | .power => powerIntegers a b

def Operation.apply (op : Operation) (mode : NumberMode) (lhs rhs : Value) :
    Except ArithmeticError Value :=
  match mode, lhs, rhs with
  | .exact, .integer a, .integer b => applyIntegers op a b
  | _, lhs, rhs => applyFloats op lhs.toFloat rhs.toFloat

end Abacus
