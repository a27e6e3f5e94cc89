/-!
# Decimal rounding

Exact rounding of rational numbers to a grid of decimal numbers.
-/

namespace Abacus

structure Decimal where
  significand : Nat
  exponent : Int
deriving DecidableEq, Inhabited

namespace Decimal

def toRat (d : Decimal) : Rat := d.significand * 10 ^ d.exponent

def size (n : Nat) : Nat := (Nat.toDigits 10 n).length

def roundHalfEven (q : Rat) : Int :=
  let below := q.floor
  let rest := q - below
  if rest < 1 / 2 then below
  else if 1 / 2 < rest then below + 1
  else below + below % 2

/-- The exponent of the leading digit of a positive rational number: the greatest `e` with
`10 ^ e ≤ q`. -/
def leadingExponent (q : Rat) : Int :=
  let n := q.num.natAbs
  if q.den ≤ n then size (n / q.den) - 1 else -size ((q.den - 1) / n)

def toPlaces (q : Rat) (places : Nat) : Decimal :=
  ⟨(roundHalfEven (q * 10 ^ places)).toNat, -places⟩

/-- A positive rational number rounded to one digit before the point and `places` after it, with
the power of ten that belongs to the digit before the point. Where rounding makes a further digit,
that power is the next one. -/
def toScientific (q : Rat) (places : Nat) : Decimal × Int :=
  let e := leadingExponent q
  let n := (roundHalfEven (q * 10 ^ (places - e))).toNat
  if size n = places + 2 then (⟨n / 10, -places⟩, e + 1) else (⟨n, -places⟩, e)

def positions (d : Decimal) : List Char × List Char :=
  let digits := Nat.toDigits 10 d.significand
  if 0 ≤ d.exponent then (digits ++ List.replicate d.exponent.toNat '0', [])
  else
    let places := (-d.exponent).toNat
    let padded := List.replicate (places + 1 - digits.length) '0' ++ digits
    padded.splitAt (padded.length - places)

def dropTrailingZeros (digits : List Char) : List Char :=
  (digits.reverse.dropWhile (· = '0')).reverse

def joinPositions : List Char × List Char → List Char
  | (whole, []) => whole
  | (whole, fraction) => whole ++ '.' :: fraction

end Decimal

end Abacus
