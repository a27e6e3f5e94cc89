import Abacus.Decimal.Shortest
import Abacus.Json.Printer
import Abacus.Json.Reader
import Abacus.NumberMode
import Abacus.Operation
import Abacus.Value.Basic

/-!
# Values in JSON

An integer is written in digits alone, a double always with a point or an exponent, so that reading
tells them apart. Doubles that are not finite have no place in JSON and are written as null.

A double is read from as many leading digits as a 64-bit word holds, scaled by powers of ten.
-/

namespace Abacus

namespace Json

def maxSignificand : Nat := 0xFFFFFFFFFFFFFFFF

def maxScale : Nat := 308

def powerOfTen (n : Nat) : Float := Binary64.ofDecimal 1 n

/-- `x * 10 ^ exponent`, rounded at each step of at most `maxScale`; none if it is too large. -/
def scale (x : Float) (exponent : Int) : Option Float :=
  if exponent.natAbs ≤ maxScale then
    if 0 ≤ exponent then
      let scaled := x * powerOfTen exponent.toNat
      if scaled.isInf then none else some scaled
    else some (x / powerOfTen exponent.natAbs)
  else if Binary64.isZero x then some x
  else if 0 ≤ exponent then none
  else scale (x / powerOfTen maxScale) (exponent + maxScale)
termination_by exponent.natAbs
decreasing_by simp only [maxScale] at *; omega

def appendDigit? (significand : Nat) (digit : Char) : Option Nat :=
  let next := 10 * significand + (digit.toNat - '0'.toNat)
  if next ≤ maxSignificand then some next else none

/-- The leading digits that fit, and the digits that are left. -/
def takeDigits (significand : Nat) : List Char → Nat × List Char
  | [] => (significand, [])
  | d :: rest =>
    match appendDigit? significand d with
    | some next => takeDigits next rest
    | none => (significand, d :: rest)

def readMagnitude (n : Numeral) : Option Float :=
  let (whole, dropped) := takeDigits 0 n.whole
  let fraction := n.fraction.getD []
  let (significand, ignored) := takeDigits whole fraction
  let exponent : Int := n.exponent.elim 0 (·.toInt)
  let used := fraction.length - ignored.length
  scale (Binary64.ofInt significand) (exponent + dropped.length - used)

end Json

namespace Value

/-- The value of a number. Digits alone are an integer if it is in range and not `-0`. -/
def ofNumber? (negative : Bool) (n : Numeral) : Option Value :=
  let integer? : Option Integer :=
    if n.isWhole && !(negative && n.significand == 0) then
      Word.ofInt? Width.int64 (if negative then -(n.significand : Int) else n.significand)
    else none
  match integer? with
  | some i => some (.integer i)
  | none => (Json.readMagnitude n).map fun x => .decimal (if negative then -x else x)

def ofJson? : Json → Option Value
  | .number negative n => ofNumber? negative n
  | _ => none

/-- The exponents of the leading digit at which a double is written without an exponent. -/
def leastPlainExponent : Int := -5

def greatestPlainExponent : Int := 15

/-- A decimal number without an exponent, with at least one digit behind the point. -/
def plainNumeral (d : Decimal) : Numeral :=
  let (whole, fraction) := d.positions
  ⟨whole, some (if fraction.isEmpty then ['0'] else fraction), none⟩

/-- Digits with the point behind the first of them, and the exponent of that digit. -/
def scientificNumeral (digits : List Char) (exponent : Int) : Numeral :=
  let sign := if exponent < 0 then '-' else '+'
  ⟨digits.take 1, if digits.length = 1 then none else some (digits.drop 1),
    some ⟨'e', some sign, Nat.toDigits 10 exponent.natAbs⟩⟩

/-- The numeral of a decimal number: plain in the middle range, else with an exponent. -/
def numeralOf (d : Decimal) : Numeral :=
  let digits := Nat.toDigits 10 d.significand
  let exponent := d.exponent + digits.length - 1
  if d.significand = 0 ∨ leastPlainExponent ≤ exponent ∧ exponent ≤ greatestPlainExponent then
    plainNumeral d
  else scientificNumeral digits exponent

/-- The decimal number that is written for `significand * 2 ^ exponent`. -/
def decimalOf (significand : Nat) (exponent : Int) : Decimal :=
  if significand = 0 then ⟨0, 0⟩ else .normalize (.shortest .toEven significand exponent)

def floatToJson (x : Float) : Json :=
  match Binary64.reading x with
  | .finite negative m e => .number negative (numeralOf (decimalOf m e))
  | _ => .null

def toJson : Value → Json
  | .integer n => .number (n.val < 0) ⟨Nat.toDigits 10 n.val.natAbs, none, none⟩
  | .decimal x => floatToJson x

end Value

namespace Json

def getAlternative? : Json → Option String
  | .string text? => text?
  | .object [(name, .null)] => name
  | _ => none

end Json

def Operation.ofJson? (j : Json) : Option Operation := j.getAlternative?.bind Operation.ofName?

def NumberMode.ofJson? (j : Json) : Option NumberMode := j.getAlternative?.bind NumberMode.ofName?

end Abacus
