import Abacus.Operation
import Abacus.Value.Format

/-!
# Expressions

Expression trees and their text with every pair of parentheses written out.
-/

namespace Abacus

inductive Expr where
  | literal (v : Value)
  | variable (name : String)
  | negate (operand : Expr)
  | binary (op : Operation) (lhs rhs : Expr)
  | call (function : String) (argument : Expr)

namespace Expr

/-- The number of nodes on the longest path from the root to a leaf. -/
def height : Expr → Nat
  | .literal _ => 1
  | .variable _ => 1
  | .negate operand => operand.height + 1
  | .binary _ lhs rhs => max lhs.height rhs.height + 1
  | .call _ argument => argument.height + 1

def chars : Expr → List Char
  | .literal v => v.text.toList
  | .variable name => name.toList
  | .negate operand => ['(', '-'] ++ operand.chars ++ [')']
  | .binary op lhs rhs => ['('] ++ lhs.chars ++ [' ', op.symbol, ' '] ++ rhs.chars ++ [')']
  | .call function argument => function.toList ++ ['('] ++ argument.chars ++ [')']

def text (e : Expr) : String := String.ofList e.chars

end Expr

end Abacus
