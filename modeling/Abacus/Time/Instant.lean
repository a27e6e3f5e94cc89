import Abacus.Decimal.Numeral
import Abacus.Text.Blank
import Abacus.Time.Calendar

/-!
# Instants

Moments in universal time to the nanosecond, the text under which they are stored, and the reading
of such texts. A stored text names its offset from universal time. The reader allows blanks between
the parts, digits fewer than usual, and a space between date and time.
-/

namespace Abacus

/-- The minutes since 1970-01-01T00:00Z, the second of the minute, which is 60 in a leap second, and
the nanosecond of the second. -/
structure Instant where
  minutes : Int
  second : Nat
  nanosecond : Nat
deriving DecidableEq

namespace Instant

/-- The instant so many nanoseconds after 1970-01-01T00:00Z. -/
def ofNanoseconds (n : Int) : Instant :=
  ⟨n / 60000000000, (n / 1000000000 % 60).toNat, (n % 1000000000).toNat⟩

def date (t : Instant) : Date := Date.ofDays (t.minutes / 1440)

def hour (t : Instant) : Nat := (t.minutes % 1440 / 60).toNat

def minute (t : Instant) : Nat := (t.minutes % 60).toNat

def padded (width n : Nat) : List Char :=
  let digits := Nat.toDigits 10 n
  List.replicate (width - digits.length) '0' ++ digits

/-- A year: four digits, with a sign where they are not enough. -/
def yearChars (year : Int) : List Char :=
  if 0 ≤ year ∧ year ≤ 9999 then padded 4 year.toNat
  else (if year < 0 then '-' else '+') :: padded 4 year.natAbs

def dateChars (t : Instant) : List Char :=
  let d := t.date
  yearChars d.year ++ '-' :: padded 2 d.month ++ '-' :: padded 2 d.day

def clockChars (t : Instant) : List Char :=
  padded 2 t.hour ++ ':' :: padded 2 t.minute ++ ':' :: padded 2 t.second

/-- The fraction of a second, in thousandths, millionths or billionths, whichever first is exact. -/
def fractionChars (t : Instant) : List Char :=
  if t.nanosecond = 0 then []
  else if t.nanosecond % 1000000 = 0 then '.' :: padded 3 (t.nanosecond / 1000000)
  else if t.nanosecond % 1000 = 0 then '.' :: padded 6 (t.nanosecond / 1000)
  else '.' :: padded 9 t.nanosecond

def text (t : Instant) : String :=
  String.ofList (t.dateChars ++ 'T' :: t.clockChars ++ t.fractionChars ++ ['Z'])

def shortText (t : Instant) : String :=
  String.ofList (t.dateChars ++ ' ' :: t.clockChars)

/-- At least one digit and at most `limit`, after blanks. -/
def readNumber (limit : Nat) (cs : List Char) : Option (Nat × List Char) :=
  let cs := Text.trimFront cs
  let digits := (cs.take limit).takeWhile isDigit
  if digits.isEmpty then none else some (Nat.ofDigitChars 10 digits 0, cs.drop digits.length)

/-- A year of up to four digits, or of any number of digits after a sign. -/
def readYear (cs : List Char) : Option (Int × List Char) :=
  match Text.trimFront cs with
  | '-' :: rest => do
    let (n, rest) ← unsigned rest
    some (-(n : Int), rest)
  | '+' :: rest => do
    let (n, rest) ← unsigned rest
    some ((n : Int), rest)
  | rest => do
    let (n, rest) ← readNumber 4 rest
    some ((n : Int), rest)
where
  unsigned (cs : List Char) : Option (Nat × List Char) :=
    let digits := cs.takeWhile isDigit
    if digits.isEmpty then none else some (Nat.ofDigitChars 10 digits 0, cs.dropWhile isDigit)

def skipMark (mark : Char) (cs : List Char) : Option (List Char) :=
  match Text.trimFront cs with
  | c :: rest => if c = mark then some rest else none
  | [] => none

/-- The nanoseconds of a fraction, if there is one. Digits beyond the ninth do not count. -/
def readFraction : List Char → Option (Nat × List Char)
  | '.' :: rest =>
    let digits := (rest.takeWhile isDigit).take 9
    if digits.isEmpty then none
    else
      let filled := digits ++ List.replicate (9 - digits.length) '0'
      some (Nat.ofDigitChars 10 filled 0, rest.dropWhile isDigit)
  | cs => some (0, cs)

def readOffset : List Char → Option (Int × List Char)
  | c₁ :: c₂ :: c₃ :: rest =>
    if c₁ = 'Z' ∨ c₁ = 'z' then some (0, c₂ :: c₃ :: rest)
    else if "utc".toList = [c₁, c₂, c₃].map Char.toLower then some (0, rest)
    else do
      let sign : Int ← if c₁ = '+' then some 1 else if c₁ = '-' ∨ c₁ = '−' then some (-1) else none
      match rest.dropWhile fun c => c = ':' || Text.isBlank c with
      | m₁ :: m₂ :: rest =>
        if [c₂, c₃, m₁, m₂].all isDigit ∧ m₁ < '6' then
          let hours := Nat.ofDigitChars 10 [c₂, c₃] 0
          if hours < 24 then some (sign * (hours * 60 + Nat.ofDigitChars 10 [m₁, m₂] 0), rest)
          else none
        else none
      | _ => none
  | c :: rest => if c = 'Z' ∨ c = 'z' then some (0, rest) else none
  | [] => none

def readDate (cs : List Char) : Option (Date × List Char) := do
  let (year, cs) ← readYear cs
  let (month, cs) ← readNumber 2 (← skipMark '-' cs)
  let (day, cs) ← readNumber 2 (← skipMark '-' cs)
  let date : Date := ⟨year, month, day⟩
  if date.isValid && Date.minYear ≤ year && year ≤ Date.maxYear then some (date, cs) else none

def readClock (cs : List Char) : Option ((Nat × Nat × Nat × Nat) × List Char) := do
  let (hour, cs) ← readNumber 2 cs
  let (minute, cs) ← readNumber 2 (← skipMark ':' cs)
  let (second, cs) ← readNumber 2 (← skipMark ':' cs)
  let (nanosecond, cs) ← readFraction cs
  if hour ≤ 23 ∧ minute ≤ 59 ∧ second ≤ 60 then some ((hour, minute, second, nanosecond), cs)
  else none

def read? (text : String) : Option Instant := do
  let (date, cs) ← readDate text.toList
  let cs ← match cs with
    | c :: rest => if c = 'T' ∨ c = 't' ∨ c = ' ' then some rest else none
    | [] => none
  let ((hour, minute, second, nanosecond), cs) ← readClock cs
  let (offset, cs) ← readOffset (Text.trimFront cs)
  let minutes := date.toDays * 1440 + hour * 60 + minute - offset
  if cs.all Text.isBlank && Date.isDayInRange (minutes / 1440) then
    some ⟨minutes, second, nanosecond⟩
  else none

end Instant

end Abacus
