import Abacus.Decimal.Shortest

/-!
# Doubles as plain text

The text of a double inside a sentence: its shortest digits, written out without an exponent.
-/

namespace Abacus.Decimal

def infinityText (negative : Bool) : List Char :=
  if negative then ['-', 'i', 'n', 'f'] else ['i', 'n', 'f']

def nanText : List Char := ['N', 'a', 'N']

def signed (negative : Bool) (text : List Char) : List Char :=
  if negative then '-' :: text else text

/-- The digits of a double. Of two equally near shortest decimals the upper one is taken. -/
def displayChars (x : Float) : List Char :=
  match Binary64.reading x with
  | .nan => nanText
  | .infinite negative => infinityText negative
  | .finite negative 0 _ => signed negative ['0']
  | .finite negative m e =>
    signed negative (joinPositions (normalize (shortest .upward m e)).positions)

def display (x : Float) : String := String.ofList (displayChars x)

end Abacus.Decimal
