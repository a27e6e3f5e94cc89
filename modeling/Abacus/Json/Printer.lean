import Abacus.Json.Basic
import Abacus.Json.Quoted

/-!
# Writing JSON

The two layouts of a value: on one line without blanks, and with each item and each member on a line
of its own, two blanks further in than the brackets around it.
-/

namespace Abacus.Json

/-- A string; one without a text is written as the empty string. -/
def stringChars (text? : Option String) : List Char := quoted (text?.getD "")

def scalarChars : Json → List Char
  | .null => ['n', 'u', 'l', 'l']
  | .bool true => ['t', 'r', 'u', 'e']
  | .bool false => ['f', 'a', 'l', 's', 'e']
  | .number negative numeral => if negative then '-' :: numeral.chars else numeral.chars
  | .string text? => stringChars text?
  | .array _ => ['[', ']']
  | .object _ => ['\x7b', '\x7d']

def separated (separator : List Char) : List (List Char) → List Char
  | [] => []
  | [one] => one
  | first :: more => first ++ separator ++ separated separator more

mutual

def compactChars : Json → List Char
  | .array items => '[' :: separated [','] (compactItems items) ++ [']']
  | .object members => '\x7b' :: separated [','] (compactMembers members) ++ ['\x7d']
  | scalar => scalarChars scalar

def compactItems : List Json → List (List Char)
  | [] => []
  | j :: rest => compactChars j :: compactItems rest

def compactMembers : List (Option String × Json) → List (List Char)
  | [] => []
  | (name, j) :: rest => (stringChars name ++ ':' :: compactChars j) :: compactMembers rest

end

def lineBreak (depth : Nat) : List Char := '\n' :: List.replicate (2 * depth) ' '

def block (depth : Nat) (opening closing : Char) (items : List (List Char)) : List Char :=
  if items.isEmpty then [opening, closing]
  else
    opening :: lineBreak (depth + 1) ++ separated (',' :: lineBreak (depth + 1)) items ++
      lineBreak depth ++ [closing]

mutual

/-- A value over several lines, in brackets of the given depth. -/
def indentedChars (depth : Nat) : Json → List Char
  | .array items => block depth '[' ']' (indentedItems (depth + 1) items)
  | .object members => block depth '\x7b' '\x7d' (indentedMembers (depth + 1) members)
  | scalar => scalarChars scalar

def indentedItems (depth : Nat) : List Json → List (List Char)
  | [] => []
  | j :: rest => indentedChars depth j :: indentedItems depth rest

def indentedMembers (depth : Nat) : List (Option String × Json) → List (List Char)
  | [] => []
  | (name, j) :: rest =>
    (stringChars name ++ ':' :: ' ' :: indentedChars depth j) :: indentedMembers depth rest

end

def compact (j : Json) : String := String.ofList (compactChars j)

def indented (j : Json) : String := String.ofList (indentedChars 0 j)

end Abacus.Json
