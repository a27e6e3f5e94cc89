import Abacus.Operation
import Abacus.Value.Format

/-!
# Tokens

The tokens of an expression, each with the place where it starts, and the faults of a text that is
no expression.
-/

namespace Abacus

namespace Token

inductive Kind where
  | number (v : Value)
  | name (s : String)
  | operator (op : Operation)
  | leftParen
  | rightParen
  | equals

def Kind.ofSymbol? : Char → Option Kind
  | '(' => some .leftParen
  | ')' => some .rightParen
  | '=' => some .equals
  | c => (Operation.ofSymbol? c).map .operator

def Kind.text : Kind → String
  | .number v => v.text
  | .name s => s
  | .operator op => op.symbol.toString
  | .leftParen => "("
  | .rightParen => ")"
  | .equals => "="

end Token

/-- A token and the number of bytes of UTF-8 in front of it. -/
structure Token where
  kind : Token.Kind
  position : Nat

inductive SyntaxError where
  | empty
  | unexpectedChar (c : Char) (position : Nat)
  | unexpectedToken (token : Token)
  | unexpectedEnd
  | invalidNumber (literal : String)
  | tooDeep (limit : Nat)

def SyntaxError.message : SyntaxError → String
  | .empty => "empty expression"
  | .unexpectedChar c position =>
    "unexpected character '" ++ c.toString ++ "' at position " ++ toString position
  | .unexpectedToken token =>
    "unexpected '" ++ token.kind.text ++ "' at position " ++ toString token.position
  | .unexpectedEnd => "unexpected end of expression"
  | .invalidNumber literal => "invalid number literal '" ++ literal ++ "'"
  | .tooDeep limit => "expression nested too deeply (limit " ++ toString limit ++ ")"

end Abacus
