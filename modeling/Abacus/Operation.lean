import Abacus.Text.Blank
import Abacus.Text.LowerCase

/-!
# Operations

The six binary operations, their names and symbols, and how they are written on a command line.
-/

namespace Abacus

inductive Operation where
  | add
  | subtract
  | multiply
  | divide
  | remainder
  | power
deriving DecidableEq, Repr

structure UnknownOperation where
  text : String
deriving DecidableEq

def UnknownOperation.message (e : UnknownOperation) : String :=
  "unknown operation '" ++ e.text ++ "' (expected add, sub, mul, div, mod or pow)"

namespace Operation

def all : List Operation := [.add, .subtract, .multiply, .divide, .remainder, .power]

theorem mem_all (op : Operation) : op ∈ all := by
  cases op <;> decide

def symbol : Operation → Char
  | .add => '+'
  | .subtract => '-'
  | .multiply => '*'
  | .divide => '/'
  | .remainder => '%'
  | .power => '^'

def name : Operation → String
  | .add => "add"
  | .subtract => "subtract"
  | .multiply => "multiply"
  | .divide => "divide"
  | .remainder => "remainder"
  | .power => "power"

def ofSymbol? (c : Char) : Option Operation := all.find? (·.symbol == c)

@[simp] theorem ofSymbol?_symbol (op : Operation) : ofSymbol? op.symbol = some op := by
  cases op <;> decide

theorem symbol_eq_of_ofSymbol? {c : Char} {op : Operation} (h : ofSymbol? c = some op) :
    op.symbol = c := by
  simpa using List.find?_some h

def ofName? (text : String) : Option Operation := all.find? (·.name == text)

def words : Operation → List String
  | .add => ["add", "plus", "+"]
  | .subtract => ["sub", "subtract", "minus", "-"]
  | .multiply => ["mul", "multiply", "times", "*", "x"]
  | .divide => ["div", "divide", "/"]
  | .remainder => ["mod", "rem", "remainder", "%"]
  | .power => ["pow", "power", "^"]

/-- Reads an operation in any of its spellings, in any case and with blanks around it. -/
def read (text : String) : Except UnknownOperation Operation :=
  let word := Text.toLower (Text.trim text)
  match all.find? fun op => (words op).contains word with
  | some op => .ok op
  | none => .error ⟨word⟩

end Operation

end Abacus
