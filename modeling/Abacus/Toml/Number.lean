import Abacus.Number.Word
import Abacus.Text.Front
import Abacus.Text.Hexadecimal
import Abacus.Toml.Basic
import Abacus.Decimal.Numeral

/-!
# TOML numbers

Integers in decimal with a sign, or without one in hexadecimal, octal or binary; floats with a
fraction or an exponent, infinite or undefined. Single underscores may stand between digits, and no
zero in front of a whole part. Integers have 64 bits, and no positive float is too large to be
finite.
-/

namespace Abacus.Toml

open Text (Front Reader hexValue? hexNumber?)

/-- Digits that satisfy a test, without the underscores between them, and what follows. -/
def digitRun (isDigit : Char → Bool) : List Char → List Char × List Char
  | '_' :: rest => ([], '_' :: rest)
  | c :: '_' :: d :: rest =>
    if isDigit c then
      if isDigit d then
        let (more, behind) := digitRun isDigit (d :: rest)
        (c :: more, behind)
      else ([c], '_' :: d :: rest)
    else ([], c :: '_' :: d :: rest)
  | c :: rest =>
    if isDigit c then
      let (more, behind) := digitRun isDigit rest
      (c :: more, behind)
    else ([], c :: rest)
  | [] => ([], [])

/-- The digits of a whole part: a zero alone, or digits that start with another one. -/
def wholeRun : List Char → List Char × List Char
  | '0' :: rest => (['0'], rest)
  | cs => digitRun isDigit cs

def splitSign : List Char → Option Char × List Char
  | '+' :: rest => (some '+', rest)
  | '-' :: rest => (some '-', rest)
  | cs => (none, cs)

def ofInt? (n : Int) : Option Toml := (Word.ofInt? Width.int64 n).map fun word => .integer word.val

def readBased (base : Nat) : Reader Toml := fun cs => do
  let isDigit (c : Char) : Bool := (hexValue? c).any (· < base)
  let (digits, rest) := digitRun isDigit cs
  let n ← digits.foldlM (fun n c => (hexValue? c).map (base * n + ·)) 0
  Front.of? cs (← ofInt? n) rest

def fractionRun : List Char → Option (Option (List Char) × List Char)
  | '.' :: rest =>
    match digitRun isDigit rest with
    | ([], _) => none
    | (digits, behind) => some (some digits, behind)
  | cs => some (none, cs)

def exponentRun : List Char → Option (Option ExponentPart × List Char)
  | c :: rest =>
    if c = 'e' ∨ c = 'E' then
      let (sign, digits) := splitSign rest
      match digitRun isDigit digits with
      | ([], _) => none
      | (digits, behind) => some (some ⟨c, sign, digits⟩, behind)
    else some (none, c :: rest)
  | [] => some (none, [])

/-- The float of a numeral with a sign; none for a positive one that is too large. -/
def ofNumeral? (negative : Bool) (n : Numeral) : Option Toml :=
  let x := n.toFloat
  if negative then some (.float (-x)) else if x.isFinite then some (.float x) else none

def readDecimal : Reader Toml := fun cs => do
  let (sign, unsigned) := splitSign cs
  let negative := sign == some '-'
  match unsigned with
  | 'i' :: 'n' :: 'f' :: rest =>
    let infinity : Float := Float.ofBits 0x7FF0000000000000
    Front.of? cs (.float (if negative then -infinity else infinity)) rest
  | 'n' :: 'a' :: 'n' :: rest =>
    Front.of? cs (.float (Float.ofBits 0x7FF8000000000000)) rest
  | _ =>
    let (whole, rest) := wholeRun unsigned
    if whole.isEmpty then none
    else
      let (fraction, rest) ← fractionRun rest
      let (exponent, rest) ← exponentRun rest
      let numeral : Numeral := ⟨whole, fraction, exponent⟩
      let v ←
        if numeral.isWhole then
          ofInt? (if negative then -(numeral.significand : Int) else numeral.significand)
        else ofNumeral? negative numeral
      Front.of? cs v rest

def readNumber : Reader Toml
  | '0' :: 'x' :: rest => (readBased 16 rest).map (·.widen (Nat.le_add_right _ 2))
  | '0' :: 'o' :: rest => (readBased 8 rest).map (·.widen (Nat.le_add_right _ 2))
  | '0' :: 'b' :: rest => (readBased 2 rest).map (·.widen (Nat.le_add_right _ 2))
  | cs => readDecimal cs

end Abacus.Toml
