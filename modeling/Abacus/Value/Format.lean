import Abacus.Decimal.Display
import Abacus.Value.Basic

/-!
# Values as text

Integers are written in full. Doubles are rounded to a number of digits, with trailing zeros left
out: to places after the point in the middle range, to digits of the leading one elsewhere.
-/

namespace Abacus.Value

def defaultPrecision : Nat := 10

/-- More digits after the point than this are never written. -/
def maxPrecision : Nat := 17

/-- More digits after the leading one than this are never written. -/
def maxScientificPrecision : Nat := 15

/-- Doubles of this magnitude and more are written with an exponent. -/
def scientificThreshold : Rat := 1000000000000000

/-- Doubles of less than this magnitude are written with an exponent: the double nearest to one
unit of the last place. -/
def smallestShown (precision : Nat) : Rat :=
  ((Binary64.reading (Binary64.ofDecimal 1 (-precision))).toRat?).getD 0

def formatScientific (magnitude : Rat) (precision : Nat) : List Char :=
  let (mantissa, exponent) := Decimal.toScientific magnitude precision
  let (whole, fraction) := mantissa.positions
  Decimal.joinPositions (whole, Decimal.dropTrailingZeros fraction) ++ 'e' ::
    (toString exponent).toList

def formatPlaces (magnitude : Rat) (precision : Nat) : List Char :=
  let (whole, fraction) := (Decimal.toPlaces magnitude precision).positions
  Decimal.joinPositions (whole, Decimal.dropTrailingZeros fraction)

def formatMagnitude (magnitude : Rat) (precision : Nat) : List Char :=
  if scientificThreshold ≤ magnitude ∨ magnitude < smallestShown precision then
    formatScientific magnitude (min precision maxScientificPrecision)
  else formatPlaces magnitude precision

def formatFloat (x : Float) (precision : Nat) : List Char :=
  match Binary64.reading x with
  | .nan => Decimal.nanText
  | .infinite negative => Decimal.infinityText negative
  | .finite _ 0 _ => ['0']
  | .finite negative m e =>
    let text := formatMagnitude (m * 2 ^ e) (min precision maxPrecision)
    if text = ['0'] then text else Decimal.signed negative text

def format (precision : Nat) : Value → String
  | .integer n => toString n.val
  | .decimal x => String.ofList (formatFloat x precision)

def text (v : Value) : String := v.format defaultPrecision

end Abacus.Value
