import Abacus.Decimal.Rounding
import Abacus.Number.Binary64

/-!
# Shortest decimals

The shortest decimal number that reads back as a given double: of the decimal numbers that round
to the double, those with the fewest digits, and of these the nearest to the double.
-/

namespace Abacus.Decimal

inductive TieRule where
  | upward
  | toEven
deriving DecidableEq

/-- The rational numbers that round to one double. The ends belong to it when its significand is
even. -/
structure RoundingInterval where
  low : Rat
  value : Rat
  high : Rat
  closed : Bool

namespace RoundingInterval

/-- The interval of the double `significand * 2 ^ exponent`. Below a power of two the doubles lie
twice as close, except at the least exponent. -/
def ofDouble (significand : Nat) (exponent : Int) : RoundingInterval where
  low :=
    if significand = Binary64.leastNormal ∧ Binary64.format.minExponent < exponent then
      (significand - 1 / 4) * 2 ^ exponent
    else (significand - 1 / 2) * 2 ^ exponent
  value := significand * 2 ^ exponent
  high := (significand + 1 / 2) * 2 ^ exponent
  closed := significand % 2 == 0

def contains (i : RoundingInterval) (q : Rat) : Bool :=
  if i.closed then i.low ≤ q && q ≤ i.high else i.low < q && q < i.high

/-- The decimal number in the interval that is nearest to its value among those with `digits`
digits. Only the two neighbours of the value on their grid come into question. -/
def nearest? (i : RoundingInterval) (tie : TieRule) (digits : Nat) : Option Decimal :=
  let exponent := leadingExponent i.value - (digits - 1 : Nat)
  let unit : Rat := 10 ^ exponent
  let below := (i.value / unit).floor.toNat
  let rest := i.value / unit - below
  let upper := 1 / 2 < rest || rest = 1 / 2 && (tie == .upward || below % 2 == 1)
  match i.contains (below * unit), i.contains ((below + 1 : Nat) * unit) with
  | false, false => none
  | true, false => some ⟨below, exponent⟩
  | false, true => some ⟨below + 1, exponent⟩
  | true, true => some ⟨if upper then below + 1 else below, exponent⟩

end RoundingInterval

/-- Seventeen digits tell all doubles apart. -/
def enoughDigits : Nat := 17

def shortest (tie : TieRule) (significand : Nat) (exponent : Int) : Decimal :=
  let interval := RoundingInterval.ofDouble significand exponent
  ((List.range enoughDigits).findSome? fun n => interval.nearest? tie (n + 1)).getD default

def normalize (d : Decimal) : Decimal :=
  if h : d.significand = 0 ∨ d.significand % 10 ≠ 0 then d
  else normalize ⟨d.significand / 10, d.exponent + 1⟩
termination_by d.significand
decreasing_by
  have : d.significand ≠ 0 := fun hz => h (Or.inl hz)
  exact Nat.div_lt_self (by omega) (by decide)

end Abacus.Decimal
