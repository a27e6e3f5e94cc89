import Abacus.Number.Binary64

/-!
# Numerals

Unsigned decimal numerals as they are written: digits, perhaps a point with more digits, perhaps an
exponent. An exponent mark only counts when digits follow it, after a sign or directly.
-/

namespace Abacus

def isDigit (c : Char) : Bool := '0' ≤ c && c ≤ '9'

structure ExponentPart where
  mark : Char
  sign : Option Char
  digits : List Char
deriving DecidableEq

structure Numeral where
  whole : List Char
  fraction : Option (List Char)
  exponent : Option ExponentPart
deriving DecidableEq

namespace ExponentPart

def chars (e : ExponentPart) : List Char := e.mark :: (e.sign.toList ++ e.digits)

def toInt (e : ExponentPart) : Int :=
  let n : Int := Nat.ofDigitChars 10 e.digits 0
  if e.sign = some '-' then -n else n

def scan? : List Char → Option (ExponentPart × List Char)
  | mark :: rest =>
    if mark = 'e' ∨ mark = 'E' then
      let (sign, rest) : Option Char × List Char :=
        match rest with
        | '+' :: more => (some '+', more)
        | '-' :: more => (some '-', more)
        | _ => (none, rest)
      let digits := rest.takeWhile isDigit
      if digits.isEmpty then none else some (⟨mark, sign, digits⟩, rest.dropWhile isDigit)
    else none
  | [] => none

end ExponentPart

namespace Numeral

def chars (n : Numeral) : List Char :=
  n.whole ++ (n.fraction.elim [] ('.' :: ·)) ++ (n.exponent.elim [] (·.chars))

/-- The longest numeral at the front of a text, with what follows it. It may be empty. -/
def scan (cs : List Char) : Numeral × List Char :=
  let whole := cs.takeWhile isDigit
  let (fraction, rest) : Option (List Char) × List Char :=
    match cs.dropWhile isDigit with
    | '.' :: more => (some (more.takeWhile isDigit), more.dropWhile isDigit)
    | rest => (none, rest)
  match ExponentPart.scan? rest with
  | some (exponent, rest) => (⟨whole, fraction, some exponent⟩, rest)
  | none => (⟨whole, fraction, none⟩, rest)

def isWhole (n : Numeral) : Bool := n.fraction.isNone && n.exponent.isNone

def hasDigits (n : Numeral) : Bool := !n.whole.isEmpty || !(n.fraction.getD []).isEmpty

/-- The digits before and after the point as one integer. -/
def significand (n : Numeral) : Nat :=
  Nat.ofDigitChars 10 (n.whole ++ n.fraction.getD []) 0

/-- The power of ten that belongs to the last digit. -/
def lastExponent (n : Numeral) : Int :=
  n.exponent.elim 0 (·.toInt) - (n.fraction.getD []).length

def toFloat (n : Numeral) : Float := Binary64.ofDecimal n.significand n.lastExponent

end Numeral

end Abacus
