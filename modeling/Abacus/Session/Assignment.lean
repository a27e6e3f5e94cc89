import Abacus.Decimal.Numeral
import Abacus.Text.Blank

/-!
# Assignments

A line of the form `name = expression`. The name is an ASCII identifier; blanks may stand around it
and behind the equals sign. The expression is all that follows and goes to the end of the line.
-/

namespace Abacus.Assignment

def isNameStart (c : Char) : Bool :=
  ('A' ≤ c && c ≤ 'Z') || ('a' ≤ c && c ≤ 'z') || c == '_'

def isNameChar (c : Char) : Bool := isNameStart c || isDigit c

/-- A name that can be assigned to, apart from the reserved ones. -/
def IsName (name : List Char) : Prop :=
  ∃ c rest, name = c :: rest ∧ isNameStart c = true ∧ rest.all isNameChar = true

def splitChars? (cs : List Char) : Option (List Char × List Char) :=
  match Text.trimFront cs with
  | [] => none
  | c :: rest =>
    if isNameStart c then
      match Text.trimFront (rest.dropWhile isNameChar) with
      | '=' :: behind =>
        let expression := Text.trimFront behind
        if expression.contains '\n' then none
        else some (c :: rest.takeWhile isNameChar, expression)
      | _ => none
    else none

def split? (text : String) : Option (String × String) :=
  (splitChars? text.toList).map fun (name, expression) =>
    (String.ofList name, String.ofList expression)

end Abacus.Assignment
