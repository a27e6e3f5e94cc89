import Abacus.Decimal.Display
import Abacus.Number.Basic
import Abacus.Operation

/-!
# Arithmetic

The operations on any type of numbers, with the reasons for which they fail. Addition, subtraction
and multiplication come twice: total, and checked.
-/

namespace Abacus

/-- Why an operation has no value at its operands, apart from a zero divisor and overflow. -/
inductive DomainFault where
  | rootOfNegative (x : Float)
  | undefined (op : Operation) (lhs rhs : Float)
  | fractionalPower (base exponent : Float)
  | magnitude (n : Integer)

inductive ArithmeticError where
  | divisionByZero
  | overflow (op : Operation)
  | domain (fault : DomainFault)

def DomainFault.message : DomainFault → String
  | .rootOfNegative x => "square root of negative number " ++ Decimal.display x
  | .undefined op a b =>
    op.name ++ " of " ++ Decimal.display a ++ " and " ++ Decimal.display b ++ " is undefined"
  | .fractionalPower base exponent =>
    "cannot raise " ++ Decimal.display base ++ " to the fractional power " ++
      Decimal.display exponent
  | .magnitude n => "abs(" ++ toString n.val ++ ") does not fit in a 64-bit integer"

def ArithmeticError.message : ArithmeticError → String
  | .divisionByZero => "Division by zero"
  | .overflow op => "Arithmetic overflow in " ++ op.name
  | .domain fault => "Math domain error: " ++ fault.message

namespace Arithmetic

variable {α : Type} [Number α]

def orOverflow (op : Operation) : Option α → Except ArithmeticError α
  | some a => .ok a
  | none => .error (.overflow op)

def add (a b : α) : α := Number.add a b

def subtract (a b : α) : α := Number.sub a b

def multiply (a b : α) : α := Number.mul a b

def checkedAdd (a b : α) : Except ArithmeticError α := orOverflow .add (Number.add? a b)

def checkedSubtract (a b : α) : Except ArithmeticError α := orOverflow .subtract (Number.sub? a b)

def checkedMultiply (a b : α) : Except ArithmeticError α := orOverflow .multiply (Number.mul? a b)

/-- The quotient; of words the one rounded toward zero. -/
def divide (a b : α) : Except ArithmeticError α :=
  if Number.isZero b then .error .divisionByZero else orOverflow .divide (Number.div? a b)

/-- What the quotient leaves, with the sign of the dividend. -/
def remainder (a b : α) : Except ArithmeticError α :=
  if Number.isZero b then .error .divisionByZero else orOverflow .remainder (Number.rem? a b)

def power (base : α) (exponent : Nat) : Except ArithmeticError α :=
  orOverflow .power (Number.pow? base exponent)

def square (a : α) : Except ArithmeticError α := power a 2

def squareRoot (x : Float) : Except ArithmeticError Float :=
  if Binary64.isNegative x then .error (.domain (.rootOfNegative x)) else .ok x.sqrt

def percentage (x : Float) : Float := x / Binary64.ofInt 100

end Arithmetic

end Abacus
