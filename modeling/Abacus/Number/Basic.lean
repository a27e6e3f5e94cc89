import Abacus.Number.Binary32
import Abacus.Number.Binary64
import Abacus.Number.Word

/-!
# Numbers

What the arithmetic operations need of a type of numbers. The total operations always answer:
words wrap around, floating-point numbers follow their format. The checked ones give nothing where
the result has no place in the type: a word out of range, an infinite or undefined result of
finite floating-point operands, a quotient or remainder by zero.
-/

namespace Abacus

class Number (α : Type) where
  zero : α
  one : α
  isZero : α → Bool
  add : α → α → α
  sub : α → α → α
  mul : α → α → α
  add? : α → α → Option α
  sub? : α → α → Option α
  mul? : α → α → Option α
  div? : α → α → Option α
  rem? : α → α → Option α
  pow? : α → Nat → Option α

instance : Number (Word w) where
  zero := Word.zero
  one := Word.one
  isZero a := a.val == 0
  add := Word.add
  sub := Word.sub
  mul := Word.mul
  add? := Word.add?
  sub? := Word.sub?
  mul? := Word.mul?
  div? := Word.div?
  rem? := Word.rem?
  pow? := Word.pow?

instance : Number Float where
  zero := Binary64.ofInt 0
  one := Binary64.ofInt 1
  isZero := Binary64.isZero
  add x y := x + y
  sub x y := x - y
  mul x y := x * y
  add? x y := Binary64.finiteResult? (x.isFinite && y.isFinite) (x + y)
  sub? x y := Binary64.finiteResult? (x.isFinite && y.isFinite) (x - y)
  mul? x y := Binary64.finiteResult? (x.isFinite && y.isFinite) (x * y)
  div? x y :=
    if Binary64.isZero y then none
    else Binary64.finiteResult? (x.isFinite && y.isFinite) (x / y)
  rem? x y := if Binary64.isZero y then none else some (Binary64.remainder x y)
  pow? x n := Binary64.finiteResult? x.isFinite (Binary64.wholePow x n)

instance : Number Float32 where
  zero := Binary32.ofInt 0
  one := Binary32.ofInt 1
  isZero := Binary32.isZero
  add x y := x + y
  sub x y := x - y
  mul x y := x * y
  add? x y := Binary32.finiteResult? (x.isFinite && y.isFinite) (x + y)
  sub? x y := Binary32.finiteResult? (x.isFinite && y.isFinite) (x - y)
  mul? x y := Binary32.finiteResult? (x.isFinite && y.isFinite) (x * y)
  div? x y :=
    if Binary32.isZero y then none
    else Binary32.finiteResult? (x.isFinite && y.isFinite) (x / y)
  rem? x y := if Binary32.isZero y then none else some (Binary32.remainder x y)
  pow? x n := Binary32.finiteResult? x.isFinite (Binary32.wholePow x n)

end Abacus
