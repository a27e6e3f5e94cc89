import Abacus.Session.Basic

/-!
# Runs of a session

What can be asked of a session, one thing after the other.
-/

namespace Abacus.Session

/-- A line to evaluate, the tree of a text to evaluate on its own, or one of the two commands. -/
inductive Step where
  | line (text : String)
  | tree (e : Expr) (parsed : ∃ text, Expr.parse text = .ok e)
  | clear
  | reset

/-- The session after a step. A tree is evaluated without a trace. -/
def step (s : Session) : Step → Session
  | .line text => s.afterLine text
  | .tree .. => s
  | .clear => s.clear
  | .reset => s.reset

/-- What a step gives back. The commands give nothing. -/
def outcome? (s : Session) : Step → Option (Except EvalError Value)
  | .line text => some ((s.eval text).map (·.1))
  | .tree e _ => some (s.evalExpr e)
  | .clear => none
  | .reset => none

def run (s : Session) (steps : List Step) : Session := steps.foldl step s

end Abacus.Session
