import Abacus.Session.Basic

/-!
# Operands

Numbers given on their own: an optional sign and a numeral, with blanks around them.
-/

namespace Abacus

def Value.ofChars? (cs : List Char) : Option Value :=
  let (negative, unsigned) : Bool × List Char :=
    match cs with
    | '-' :: rest => (true, rest)
    | '+' :: rest => (false, rest)
    | _ => (false, cs)
  match Numeral.scan unsigned with
  | (numeral, []) => Value.ofNumeral? negative numeral
  | _ => none

def Value.readOperand (text : String) : Except EvalError Value :=
  match Value.ofChars? (Text.trimChars text.toList) with
  | some v => .ok v
  | none => .error (.invalidOperand text)

def calculate (mode : NumberMode) (precision : Nat) (op : Operation) (lhs rhs : String) :
    Except EvalError String := do
  let a ← Value.readOperand lhs
  let b ← Value.readOperand rhs
  let result ← (Session.fresh mode).apply op a b
  .ok (result.format precision)

end Abacus
