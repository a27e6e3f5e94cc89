/-!
# Character ranges

A class of characters as a list of ranges of code points in ascending order.
-/

namespace Abacus.Text

/-- Ranges of code points, both ends included, in ascending order. -/
structure CharRanges where
  ranges : List (Nat × Nat)

/-- Whether a code point lies in one of the ranges; ranges that start above it are not visited. -/
def covers : List (Nat × Nat) → Nat → Bool
  | [], _ => false
  | (first, last) :: rest, n => if n < first then false else n ≤ last || covers rest n

def CharRanges.contains (ranges : CharRanges) (c : Char) : Bool :=
  covers ranges.ranges c.toNat

end Abacus.Text
