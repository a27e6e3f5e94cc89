import Abacus.Decimal.Numeral

/-!
# JSON

JSON as it is written: numbers keep their digits, objects keep the order of their members and may
name one twice. A string may spell half of a surrogate pair; such a string denotes no text.
-/

namespace Abacus

inductive Json where
  | null
  | bool (b : Bool)
  | number (negative : Bool) (numeral : Numeral)
  | string (text? : Option String)
  | array (items : List Json)
  | object (members : List (Option String × Json))

namespace Json

def text (s : String) : Json := .string (some s)

def record (members : List (String × Json)) : Json :=
  .object (members.map fun (name, j) => (some name, j))

def getText? : Json → Option String
  | .string text? => text?
  | _ => none

end Json

end Abacus
