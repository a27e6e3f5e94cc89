import Abacus.Decimal.Numeral
import Abacus.Text.Front
import Abacus.Time.Calendar
import Abacus.Toml.Basic

/-!
# TOML dates and times

A date, a time, or both with a `T` or a blank between them and perhaps an offset behind. They have
to be possible, where the second 60 is.
-/

namespace Abacus.Toml

open Text (Front Reader)

def fixedDigits (count : Nat) (cs : List Char) : Option (Nat × List Char) :=
  let digits := cs.take count
  if digits.length = count ∧ digits.all isDigit then
    some (Nat.ofDigitChars 10 digits 0, cs.drop count)
  else none

def twoDigits (greatest : Nat) (cs : List Char) : Option (Nat × List Char) := do
  let (n, rest) ← fixedDigits 2 cs
  if n ≤ greatest then some (n, rest) else none

def skipChar (c : Char) : List Char → Option (List Char)
  | d :: rest => if c = d then some rest else none
  | [] => none

def skipDate (cs : List Char) : Option (List Char) := do
  let (year, cs) ← fixedDigits 4 cs
  let (month, cs) ← fixedDigits 2 (← skipChar '-' cs)
  let (day, cs) ← fixedDigits 2 (← skipChar '-' cs)
  let date : Date := ⟨year, month, day⟩
  if date.isValid then some cs else none

def skipFraction (cs : List Char) : List Char :=
  match cs with
  | '.' :: d :: rest => if isDigit d then rest.dropWhile isDigit else cs
  | _ => cs

def skipTime (cs : List Char) : Option (List Char) := do
  let (_, cs) ← twoDigits 23 cs
  let (_, cs) ← twoDigits 59 (← skipChar ':' cs)
  let (_, cs) ← twoDigits 60 (← skipChar ':' cs)
  some (skipFraction cs)

def skipOffset (cs : List Char) : List Char :=
  match cs with
  | c :: rest =>
    if c = 'Z' ∨ c = 'z' then rest
    else if c = '+' ∨ c = '-' then
      let numeric : Option (List Char) := do
        let (_, cs) ← twoDigits 23 rest
        let (_, cs) ← twoDigits 59 (← skipChar ':' cs)
        some cs
      numeric.getD cs
    else cs
  | [] => []

def skipTimeOfDate (cs : List Char) : List Char :=
  match cs with
  | c :: rest =>
    if c = 'T' ∨ c = 't' ∨ c = ' ' then
      match skipTime rest with
      | some behind => skipOffset behind
      | none => cs
    else cs
  | [] => []

def readMoment : Reader Toml := fun cs => do
  let rest ← ((skipDate cs).map skipTimeOfDate).or (skipTime cs)
  Front.of? cs (.moment (String.ofList (cs.take (cs.length - rest.length)))) rest

end Abacus.Toml
