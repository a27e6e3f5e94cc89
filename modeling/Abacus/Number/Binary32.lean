import Abacus.Number.Binary64

/-!
# Single precision

The single-precision numbers: the passage to double precision and back, and the operations that
the core library does not define.
-/

namespace Abacus.Binary32

open Float.Model (UnpackedFloat)

abbrev format : Float.Model.Format := .binary32

def pack (x : UnpackedFloat) : Float32 := .ofModel (.pack x)

def unpack (x : Float32) : UnpackedFloat := x.toModel.unpack

def ofInt (n : Int) : Float32 := .ofModel (.ofInt n)

def isZero (x : Float32) : Bool :=
  match unpack x with
  | .zero _ => true
  | _ => false

def widen (x : Float32) : Float := Binary64.pack (Binary.convert Binary64.format (unpack x))

def narrow (x : Float) : Float32 := pack (Binary.convert format (Binary64.unpack x))

def remainder (x y : Float32) : Float32 := pack (Binary.remainder format (unpack x) (unpack y))

/-- A result of finite operands has to be finite itself; other operands may give any result. -/
def finiteResult? (operandsFinite : Bool) (x : Float32) : Option Float32 :=
  if operandsFinite && !x.isFinite then none else some x

/-- A power with a whole exponent. Exponents beyond the limit of repeated squaring go through
double precision, which holds them exactly. -/
def wholePow (base : Float32) (exponent : Nat) : Float32 :=
  if exponent ≤ Binary64.squaringLimit then Binary.mulPow (ofInt 1) base exponent
  else narrow (Binary64.wholePow (widen base) exponent)

end Abacus.Binary32
