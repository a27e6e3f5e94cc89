import Abacus.Notebook.Prompt
import Abacus.Proofs.Journal.Newest
import Abacus.Proofs.Notebook.Evaluation
import Abacus.Proofs.Text.Trim

/-!
# The prompt is a session with a journal

Whatever lines are typed, the session is the one that evaluates them on its own, and the journal
holds the newest of those that were evaluated. Commands act on the session and leave the journal.
-/

namespace Abacus

namespace Prompt

def commands : List String := ["exit", "quit", "help", "vars", "history", "clear", "reset"]

/-- Whether a line is evaluated: it is neither blank nor a command. -/
def Evaluates (line : String) : Prop := Text.trim line ≠ "" ∧ Text.trim line ∉ commands

instance (line : String) : Decidable (Evaluates line) :=
  inferInstanceAs (Decidable (_ ∧ _))

end Prompt

open Prompt

namespace Session

/-- What a line at the prompt does to a session. -/
def afterInput (s : Session) (line : String) : Session :=
  if Evaluates line then s.afterLine (Text.trim line)
  else if Text.trim line = "clear" then s.clear
  else if Text.trim line = "reset" then s.reset
  else s

/-- The entries of the lines that are evaluated at the prompt, each with its time. -/
def log (s : Session) : List (Instant × String) → List Entry
  | [] => []
  | (time, line) :: rest =>
    if Evaluates line then
      .ofOutcome time (Text.trim line) (s.result (Text.trim line)) :: (s.afterInput line).log rest
    else (s.afterInput line).log rest

end Session

namespace Notebook

variable {n : Notebook} {time : Instant} {precision : Nat} {line : String}

/-- The notebook after lines at the prompt, each with its time. -/
def afterInputs (precision : Nat) (n : Notebook) (lines : List (Instant × String)) : Notebook :=
  lines.foldl (fun n input => (n.handleLine input.1 precision input.2).2) n

theorem ofText?_eq_none {input : String} : Command.ofText? input = none ↔ input ∉ commands := by
  unfold Command.ofText?
  split <;> simp_all [commands]

theorem handleLine_of_evaluates (h : Evaluates line) :
    n.handleLine time precision line =
      (.output (outcomeText precision (n.session.result (Text.trim line))),
        ⟨n.session.afterInput line,
          n.journal.record
            (.ofOutcome time (Text.trim line) (n.session.result (Text.trim line)))⟩) := by
  have hempty : (Text.trim line).isEmpty = false := by
    simpa [Bool.eq_false_iff] using h.1
  have hcommand := ofText?_eq_none.2 h.2
  simp [handleLine, hempty, hcommand, eval_eq, Session.afterInput, h]

theorem afterInputs_cons (n : Notebook) (rest : List (Instant × String)) :
    n.afterInputs precision ((time, line) :: rest) =
      (n.handleLine time precision line).2.afterInputs precision rest := by
  rw [afterInputs, List.foldl_cons, afterInputs]

end Notebook

end Abacus
