import Abacus.Journal.Basic
import Abacus.Session.Basic

/-!
# Notebooks

A session together with the journal of all lines that it evaluates, whether they succeed or fail.
-/

namespace Abacus

/-- The times at which lines are evaluated, each by the number of lines in front of it. -/
structure Clock where
  time : Nat → Instant

/-- The clock behind a number of lines. -/
def Clock.after (clock : Clock) (lines : Nat) : Clock := ⟨fun i => clock.time (i + lines)⟩

/-- A time is a clock that stands still. -/
instance : Coe Instant Clock := ⟨fun time => ⟨fun _ => time⟩⟩

structure Notebook where
  session : Session
  journal : Journal

structure Answer where
  expression : String
  value : Value
  formatted : String

def Answer.toJson (a : Answer) : Json :=
  .record [("expression", .text a.expression), ("result", a.value.toJson),
    ("formatted", .text a.formatted)]

namespace Notebook

def fresh (mode : NumberMode) (journal : Journal) : Notebook := ⟨.fresh mode, journal⟩

def eval (time : Instant) (n : Notebook) (line : String) : Except EvalError Value × Notebook :=
  match n.session.eval line with
  | .ok (v, next) => (.ok v, ⟨next, n.journal.record (.success time line v)⟩)
  | .error e => (.error e, ⟨n.session, n.journal.record (.failure time line e.message)⟩)

/-- Evaluates lines one after the other, up to the first that fails. -/
def evalAll (clock : Clock) (precision : Nat) (n : Notebook) :
    List String → Except EvalError (List Answer) × Notebook
  | [] => (.ok [], n)
  | line :: rest =>
    match n.eval (clock.time 0) line with
    | (.error e, next) => (.error e, next)
    | (.ok v, next) =>
      match next.evalAll (clock.after 1) precision rest with
      | (.error e, last) => (.error e, last)
      | (.ok answers, last) => (.ok (⟨Text.trim line, v, v.format precision⟩ :: answers), last)

end Notebook

end Abacus
