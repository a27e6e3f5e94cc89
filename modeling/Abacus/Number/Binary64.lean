import Abacus.Number.Binary
import Abacus.Number.Word

/-!
# Double precision

The double-precision numbers: conversions from and to integers and decimals, and the operations
that the core library does not define.
-/

namespace Abacus.Binary64

open Float.Model (UnpackedFloat)

abbrev format : Float.Model.Format := .binary64

/-- The least significand of a double that is not subnormal. -/
def leastNormal : Nat := 0x10000000000000

def pack (x : UnpackedFloat) : Float := .ofModel (.pack x)

def unpack (x : Float) : UnpackedFloat := x.toModel.unpack

def reading (x : Float) : Binary.Reading := .ofUnpacked (unpack x)

def ofInt (n : Int) : Float := .ofModel (.ofInt n)

def ofDecimal (mantissa : Nat) (exponent : Int) : Float :=
  .ofModel (.ofScientific mantissa exponent)

def isZero (x : Float) : Bool :=
  match unpack x with
  | .zero _ => true
  | _ => false

/-- Whether a number is less than zero; the negative zero is not. -/
def isNegative (x : Float) : Bool :=
  match unpack x with
  | .finite .negative .. => true
  | .infinity .negative => true
  | _ => false

/-- Whether a number is an odd integer. -/
def isOdd (x : Float) : Bool :=
  match (reading x).toInt? with
  | some n => n % 2 == 1
  | none => false

/-- The word that a number is equal to, if there is one; both zeros are equal to `0`. -/
def toWord? (w : Width) (x : Float) : Option (Word w) :=
  (reading x).toInt?.bind (Word.ofInt? w)

def remainder (x y : Float) : Float := pack (Binary.remainder format (unpack x) (unpack y))

/-- A result of finite operands has to be finite itself; other operands may give any result. -/
def finiteResult? (operandsFinite : Bool) (x : Float) : Option Float :=
  if operandsFinite && !x.isFinite then none else some x

/-- A power in the sense of the C library. The power with a zero exponent is one. The powers of a zero
are zeros and infinities, with its sign if the exponent is odd. -/
def pow (base exponent : Float) : Float :=
  match unpack base, unpack exponent with
  | _, .zero _ => ofInt 1
  | .zero _, .notANumber => pack .notANumber
  | .zero s, _ =>
    let sign := if isOdd exponent then s else .positive
    pack (if isNegative exponent then .infinity sign else .zero sign)
  | _, _ => base.pow exponent

/-- The greatest exponent to which a power is taken by repeated squaring. -/
def squaringLimit : Nat := 0x7FFFFFFF

def wholePow (base : Float) (exponent : Nat) : Float :=
  if exponent ≤ squaringLimit then Binary.mulPow (ofInt 1) base exponent
  else pow base (ofInt exponent)

end Abacus.Binary64
