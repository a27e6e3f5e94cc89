/-!
# Binary floating point

What the two binary formats share: the reading of a number as sign, significand and exponent, the
exact remainder of a division, the passage from one format to another, and powers by repeated
squaring.
-/

namespace Abacus.Binary

open Float.Model (UnpackedFloat Format)

/-- What a binary number denotes: nothing, an infinity, or `± significand * 2 ^ exponent`. -/
inductive Reading where
  | nan
  | infinite (negative : Bool)
  | finite (negative : Bool) (significand : Nat) (exponent : Int)
deriving DecidableEq

def isNegativeSign : UnpackedFloat.Sign → Bool
  | .negative => true
  | .positive => false

def Reading.ofUnpacked : UnpackedFloat → Reading
  | .notANumber => .nan
  | .infinity s => .infinite (isNegativeSign s)
  | .zero s => .finite (isNegativeSign s) 0 0
  | .finite s m e _ => .finite (isNegativeSign s) m e

def Reading.toInt? : Reading → Option Int
  | .finite negative m e =>
    let magnitude : Option Nat :=
      if 0 ≤ e then some (m <<< e.toNat)
      else
        let whole := m >>> (-e).toNat
        if whole <<< (-e).toNat = m then some whole else none
    magnitude.map fun n => if negative then -(n : Int) else n
  | _ => none

def Reading.toRat? : Reading → Option Rat
  | .finite negative m e =>
    let magnitude : Rat := m * 2 ^ e
    some (if negative then -magnitude else magnitude)
  | _ => none

def convert (format : Format) : UnpackedFloat → UnpackedFloat
  | .finite s m e _ => UnpackedFloat.round format s m e
  | special => special

/-- What is left of the dividend after the whole number of divisors in it, rounded toward zero, is
taken away. It is exact, has the sign of the dividend, and is undefined for a zero divisor and for
an infinite dividend. -/
def remainder (format : Format) : UnpackedFloat → UnpackedFloat → UnpackedFloat
  | .notANumber, _ => .notANumber
  | _, .notANumber => .notANumber
  | .infinity _, _ => .notANumber
  | _, .zero _ => .notANumber
  | x, .infinity _ => x
  | .zero s, .finite .. => .zero s
  | .finite s m₁ e₁ _, .finite _ m₂ e₂ _ =>
    let e := min e₁ e₂
    let r := m₁ <<< (e₁ - e).toNat % m₂ <<< (e₂ - e).toNat
    if r = 0 then .zero s else UnpackedFloat.round format s r e

/-- `acc * base ^ exponent`, each product rounded, where the base is squared once for each further
bit of the exponent. -/
def mulPow [Mul α] (acc base : α) (exponent : Nat) : α :=
  let acc := if exponent % 2 = 1 then acc * base else acc
  if exponent < 2 then acc else mulPow acc (base * base) (exponent / 2)
termination_by exponent

end Abacus.Binary
