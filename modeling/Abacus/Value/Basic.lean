import Abacus.Decimal.Numeral
import Abacus.Number.Binary64

/-!
# Values

What the calculator computes with: an integer or a double.
-/

namespace Abacus

inductive Value where
  | integer (n : Integer)
  | decimal (x : Float)
deriving DecidableEq

namespace Value

instance : Inhabited Value := ⟨.integer Word.zero⟩

def zero : Value := .integer Word.zero

def toFloat : Value → Float
  | .integer n => Binary64.ofInt n.val
  | .decimal x => x

def isInteger : Value → Bool
  | .integer _ => true
  | .decimal _ => false

def isZero : Value → Bool
  | .integer n => n.val == 0
  | .decimal x => Binary64.isZero x

/-- The integer equal to a double where the calculator has one, else the double itself. -/
def ofFloat (x : Float) : Value :=
  match Binary64.toWord? Width.int64 x with
  | some n => .integer n
  | none => .decimal x

/-- The value of a numeral with a sign. Digits alone are an integer if it is in range; everything
else is a double, which has to be finite. -/
def ofNumeral? (negative : Bool) (n : Numeral) : Option Value :=
  if n.hasDigits then
    let integer? : Option Integer :=
      if n.isWhole then
        Word.ofInt? Width.int64 (if negative then -(n.significand : Int) else n.significand)
      else none
    match integer? with
    | some i => some (.integer i)
    | none =>
      let x := n.toFloat
      if x.isFinite then some (.decimal (if negative then -x else x)) else none
  else none

end Value

end Abacus
