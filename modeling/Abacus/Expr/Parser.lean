import Abacus.Expr.Basic
import Abacus.Token.Lexer

/-!
# Reading expressions

From the weakest to the strongest: sums and differences; products, quotients and remainders; signs;
powers; numbers, names, calls and parentheses. The first two group to the left. The exponent of a
power is a signed operand, so powers group to the right, and `-2^2` is `-(2^2)`.

No more than `maxDepth` signs, exponents, parentheses and calls may be open at once, and no tree may
be higher than that.
-/

namespace Abacus.Expr

theorem length_lt_of_eq_cons {α : Type} {xs rest : List α} {x : α} (h : xs = x :: rest) :
    rest.length < xs.length :=
  h ▸ Nat.lt_succ_self rest.length

/-- The greatest height of a tree, and the greatest number of nested parts that are open at once. -/
def maxDepth : Nat := 256

structure Parsed (tokens : List Token) where
  expr : Expr
  rest : List Token
  shorter : rest.length < tokens.length

abbrev Rule := (tokens : List Token) → Except SyntaxError (Parsed tokens)

/-- The two rules through which a part is read that is nested in another one, and the greatest height
of a tree. -/
structure Rules where
  limit : Nat
  signed : Rule
  sum : Rule

def checkHeight (limit : Nat) (e : Expr) : Except SyntaxError Expr :=
  if e.height ≤ limit then .ok e else .error (.tooDeep limit)

def closeParen : (tokens : List Token) →
    Except SyntaxError { rest : List Token // rest.length < tokens.length }
  | [] => .error .unexpectedEnd
  | ⟨.rightParen, _⟩ :: rest => .ok ⟨rest, Nat.lt_succ_self _⟩
  | token :: _ => .error (.unexpectedToken token)

/-- A number, a name, a call, or a sum in parentheses. -/
def primary (nested : Rules) : Rule
  | [] => .error .unexpectedEnd
  | ⟨.number v, _⟩ :: rest => .ok ⟨.literal v, rest, Nat.lt_succ_self _⟩
  | ⟨.name function, _⟩ :: ⟨.leftParen, _⟩ :: rest => do
    let argument ← nested.sum rest
    let behind ← closeParen argument.rest
    let e ← checkHeight nested.limit (.call function argument.expr)
    let shorter := Nat.lt_trans behind.2 argument.shorter
    .ok ⟨e, behind.1, Nat.lt_succ_of_lt (Nat.lt_succ_of_lt shorter)⟩
  | ⟨.name name, _⟩ :: rest => .ok ⟨.variable name, rest, Nat.lt_succ_self _⟩
  | ⟨.leftParen, _⟩ :: rest => do
    let inner ← nested.sum rest
    let behind ← closeParen inner.rest
    .ok ⟨inner.expr, behind.1, Nat.lt_succ_of_lt (Nat.lt_trans behind.2 inner.shorter)⟩
  | token :: _ => .error (.unexpectedToken token)

/-- A primary, perhaps with a signed operand as its exponent. -/
def power (nested : Rules) : Rule := fun tokens => do
  let base ← primary nested tokens
  match h : base.rest with
  | ⟨.operator .power, _⟩ :: rest => do
    let exponent ← nested.signed rest
    let e ← checkHeight nested.limit (.binary .power base.expr exponent.expr)
    .ok ⟨e, exponent.rest,
      Nat.lt_trans exponent.shorter (Nat.lt_trans (length_lt_of_eq_cons h) base.shorter)⟩
  | _ => .ok base

/-- A power with any number of signs in front of it. -/
def signed (nested : Rules) : Rule
  | ⟨.operator .subtract, _⟩ :: rest => do
    let operand ← nested.signed rest
    let e ← checkHeight nested.limit (.negate operand.expr)
    .ok ⟨e, operand.rest, Nat.lt_succ_of_lt operand.shorter⟩
  | ⟨.operator .add, _⟩ :: rest => do
    let operand ← nested.signed rest
    .ok ⟨operand.expr, operand.rest, Nat.lt_succ_of_lt operand.shorter⟩
  | tokens => power nested tokens

/-- Goes on from a left operand through as many of the given operations as follow, each with its
right operand. -/
def chainFrom (limit : Nat) (ops : List Operation) (operand : Rule) (lhs : Expr)
    (tokens : List Token) :
    Except SyntaxError (Expr × { rest : List Token // rest.length ≤ tokens.length }) :=
  match tokens with
  | ⟨.operator op, position⟩ :: rest =>
    if op ∈ ops then do
      let rhs ← operand rest
      let e ← checkHeight limit (.binary op lhs rhs.expr)
      let (all, behind) ← chainFrom limit ops operand e rhs.rest
      .ok (all, ⟨behind.1,
        Nat.le_succ_of_le (Nat.le_trans behind.2 (Nat.le_of_lt rhs.shorter))⟩)
    else .ok (lhs, ⟨⟨.operator op, position⟩ :: rest, Nat.le_refl _⟩)
  | tokens => .ok (lhs, ⟨tokens, Nat.le_refl _⟩)
termination_by tokens.length
decreasing_by exact Nat.lt_succ_of_lt rhs.shorter

def chain (limit : Nat) (ops : List Operation) (operand : Rule) : Rule := fun tokens => do
  let first ← operand tokens
  let (e, behind) ← chainFrom limit ops operand first.expr first.rest
  .ok ⟨e, behind.1, Nat.lt_of_le_of_lt behind.2 first.shorter⟩

def product (nested : Rules) : Rule :=
  chain nested.limit [.multiply, .divide, .remainder] (signed nested)

def sum (nested : Rules) : Rule := chain nested.limit [.add, .subtract] (product nested)

/-- The rules for a nested part where `depth` parts may still be opened, this one included. -/
def rulesOfDepth (limit : Nat) : Nat → Rules
  | 0 => ⟨limit, fun _ => .error (.tooDeep limit), fun _ => .error (.tooDeep limit)⟩
  | depth + 1 =>
    let nested := rulesOfDepth limit depth
    ⟨limit, signed nested, sum nested⟩

def ofTokens (tokens : List Token) : Except SyntaxError Expr :=
  if tokens.isEmpty then .error .empty
  else do
    let parsed ← sum (rulesOfDepth maxDepth maxDepth) tokens
    match parsed.rest with
    | [] => .ok parsed.expr
    | token :: _ => .error (.unexpectedToken token)

def parse (text : String) : Except SyntaxError Expr := do
  ofTokens (← Token.tokenize text)

end Abacus.Expr
