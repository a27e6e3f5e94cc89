import Abacus.Expr.Parser
import Abacus.Session.Apply
import Abacus.Session.Assignment
import Abacus.Session.Bindings

/-!
# Sessions

A session holds the variables and the last answer. Evaluating an expression reads them; evaluating a
line that succeeds sets the answer, and binds a variable if the line is an assignment. A line that
fails changes nothing.
-/

namespace Abacus

inductive EvalError where
  | arithmetic (e : ArithmeticError)
  | syntaxError (e : SyntaxError)
  | unknownVariable (name : String)
  | unknownFunction (name : String)
  | reservedName (name : String)
  | invalidOperand (text : String)

def EvalError.message : EvalError → String
  | .arithmetic e => e.message
  | .syntaxError e => "Syntax error: " ++ e.message
  | .unknownVariable name => "Unknown variable: " ++ name
  | .unknownFunction name => "Unknown function: " ++ name
  | .reservedName name => "Cannot assign to '" ++ name ++ "': name is reserved"
  | .invalidOperand text => "Invalid operand '" ++ text ++ "': expected a number"

def liftArithmetic {α : Type} : Except ArithmeticError α → Except EvalError α
  | .ok a => .ok a
  | .error e => .error (.arithmetic e)

def liftSyntax {α : Type} : Except SyntaxError α → Except EvalError α
  | .ok a => .ok a
  | .error e => .error (.syntaxError e)

inductive Function where
  | sqrt
  | square
  | abs
  | percent
deriving DecidableEq

namespace Function

def all : List Function := [.sqrt, .square, .abs, .percent]

def name : Function → String
  | .sqrt => "sqrt"
  | .square => "square"
  | .abs => "abs"
  | .percent => "percent"

def ofName? (text : String) : Option Function := all.find? (·.name == text)

end Function

def constants : List (String × Float) :=
  [("pi", Float.ofBits 0x400921FB54442D18), ("e", Float.ofBits 0x4005BF0A8B145769)]

def answerName : String := "ans"

def reservedNames : List String :=
  answerName :: (constants.map (·.1) ++ Function.all.map Function.name)

def isReserved (name : String) : Bool := reservedNames.contains name

structure Session where
  mode : NumberMode
  bindings : Bindings
  answer : Value

namespace Session

def fresh (mode : NumberMode) : Session := ⟨mode, .empty, .zero⟩

/-- A value as the mode has it: in float mode integers become doubles. -/
def coerce (mode : NumberMode) (v : Value) : Value :=
  match mode, v with
  | .float, .integer n => .decimal (Binary64.ofInt n.val)
  | _, v => v

/-- A double as the mode has it: in exact mode it becomes an integer if it is equal to one. -/
def settle (mode : NumberMode) (x : Float) : Value :=
  match mode with
  | .exact => .ofFloat x
  | .float => .decimal x

/-- The value of a name: the answer, then the variables, then the constants. -/
def lookup (s : Session) (name : String) : Except EvalError Value :=
  if name = answerName then .ok (coerce s.mode s.answer)
  else
    match s.bindings.find? name with
    | some v => .ok (coerce s.mode v)
    | none =>
      match constants.find? (·.1 == name) with
      | some (_, x) => .ok (.decimal x)
      | none => .error (.unknownVariable name)

def negate : Value → Except ArithmeticError Value
  | .integer n => (Arithmetic.checkedSubtract Word.zero n).map .integer
  | .decimal x => .ok (.decimal (-x))

def applyFunction (mode : NumberMode) (f : Function) (v : Value) : Except ArithmeticError Value :=
  match f, v with
  | .sqrt, v => (Arithmetic.squareRoot v.toFloat).map (settle mode)
  | .square, .integer n => (Arithmetic.square n).map .integer
  | .square, .decimal x => (Arithmetic.square x).map .decimal
  | .abs, .integer n =>
    match n.abs? with
    | some m => .ok (.integer m)
    | none => .error (.domain (.magnitude n))
  | .abs, .decimal x => .ok (.decimal x.abs)
  | .percent, v => .ok (settle mode (Arithmetic.percentage v.toFloat))

def call (mode : NumberMode) (name : String) (v : Value) : Except EvalError Value :=
  match Function.ofName? name with
  | some f => liftArithmetic (applyFunction mode f v)
  | none => .error (.unknownFunction name)

/-- The value of an expression. Operands come before their operation, from left to right. -/
def evalExpr (s : Session) : Expr → Except EvalError Value
  | .literal v => .ok (coerce s.mode v)
  | .variable name => s.lookup name
  | .negate operand => do
    let v ← s.evalExpr operand
    liftArithmetic (negate v)
  | .binary op lhs rhs => do
    let a ← s.evalExpr lhs
    let b ← s.evalExpr rhs
    liftArithmetic (op.apply s.mode a b)
  | .call function argument => do
    let v ← s.evalExpr argument
    call s.mode function v

def apply (s : Session) (op : Operation) (lhs rhs : Value) : Except EvalError Value :=
  liftArithmetic (op.apply s.mode (coerce s.mode lhs) (coerce s.mode rhs))

def evalText (s : Session) (text : String) : Except EvalError Value := do
  s.evalExpr (← liftSyntax (Expr.parse text))

def eval (s : Session) (line : String) : Except EvalError (Value × Session) :=
  match Assignment.split? line with
  | some (name, expression) =>
    if isReserved name then .error (.reservedName name)
    else do
      let v ← s.evalText expression
      .ok (v, { s with bindings := s.bindings.insert name v, answer := v })
  | none => do
    let v ← s.evalText line
    .ok (v, { s with answer := v })

/-- The session after a line. -/
def afterLine (s : Session) (line : String) : Session :=
  match s.eval line with
  | .ok (_, next) => next
  | .error _ => s

def clear (s : Session) : Session := { s with answer := .zero }

def reset (s : Session) : Session := { s with bindings := .empty, answer := .zero }

end Session

end Abacus
