import Abacus.Notebook.Basic
import Abacus.Proofs.Journal.Newest
import Abacus.Proofs.Session.Invariant

/-!
# Entered lines

Evaluating a line in a notebook evaluates it in the session, and enters the trimmed line with its
result or its error into the journal. Of several lines, those after the first that fails are not
attempted.
-/

namespace Abacus

/-- The entry of a line with what evaluating it gave. -/
def Entry.ofOutcome (time : Instant) (line : String) : Except EvalError Value → Entry
  | .ok v => ⟨line, some v, none, time⟩
  | .error e => ⟨line, none, some e.message, time⟩

@[simp] theorem Entry.time_ofOutcome (time : Instant) (line : String)
    (outcome : Except EvalError Value) : (ofOutcome time line outcome).time = time := by
  cases outcome <;> rfl

@[simp] theorem Entry.expression_ofOutcome (time : Instant) (line : String)
    (outcome : Except EvalError Value) : (ofOutcome time line outcome).expression = line := by
  cases outcome <;> rfl

namespace Session

/-- What a line gives in a session. -/
def result (s : Session) (line : String) : Except EvalError Value := (s.eval line).map (·.1)

/-- The lines that are attempted one after the other, up to the first that fails, each with what it
gives. -/
def attempts (s : Session) : List String → List (String × Except EvalError Value)
  | [] => []
  | line :: rest =>
    match s.result line with
    | .ok v => (line, .ok v) :: (s.afterLine line).attempts rest
    | .error e => [(line, .error e)]

variable {s : Session}

end Session

namespace Notebook

theorem eval_eq (n : Notebook) (time : Instant) (line : String) :
    n.eval time line =
      (n.session.result line,
        ⟨n.session.afterLine line,
          n.journal.record (.ofOutcome time (Text.trim line) (n.session.result line))⟩) := by
  rw [eval, Session.result, Session.afterLine]
  cases n.session.eval line with
  | error e => rfl
  | ok result => rfl

/-- The answer to a line that was attempted. -/
def answer (precision : Nat) (attempt : String × Except EvalError Value) :
    Except EvalError Answer :=
  attempt.2.map fun v => ⟨Text.trim attempt.1, v, v.format precision⟩

/-- The entry of a line that was attempted. -/
def entry (time : Instant) (attempt : String × Except EvalError Value) : Entry :=
  .ofOutcome time (Text.trim attempt.1) attempt.2

/-- The entries of lines that were attempted one after the other. -/
def entries (clock : Clock) (attempts : List (String × Except EvalError Value)) : List Entry :=
  attempts.mapIdx fun i attempt => entry (clock.time i) attempt

variable (clock : Clock) (precision : Nat)

theorem entries_cons (attempt : String × Except EvalError Value)
    (attempts : List (String × Except EvalError Value)) :
    entries clock (attempt :: attempts) =
      entry (clock.time 0) attempt :: entries (clock.after 1) attempts :=
  List.mapIdx_cons

theorem evalAll_cons (n : Notebook) (line : String) (rest : List String) :
    n.evalAll clock precision (line :: rest) =
      match n.session.result line with
      | .error e => (.error e, (n.eval (clock.time 0) line).2)
      | .ok v =>
        let last := (n.eval (clock.time 0) line).2.evalAll (clock.after 1) precision rest
        (last.1.map (⟨Text.trim line, v, v.format precision⟩ :: ·), last.2) := by
  rw [evalAll, eval_eq]
  cases n.session.result line with
  | error e => rfl
  | ok v =>
      dsimp only
      split <;> next h => simp [h, Except.map]

theorem fst_evalAll (n : Notebook) (lines : List String) :
    (n.evalAll clock precision lines).1 = (n.session.attempts lines).mapM (answer precision) := by
  induction lines generalizing n clock with
  | nil => rfl
  | cons line rest ih =>
      rw [evalAll_cons, Session.attempts]
      cases hresult : n.session.result line with
      | error e => rfl
      | ok v =>
          dsimp only
          rw [ih, List.mapM_cons, eval_eq]
          cases ((n.session.afterLine line).attempts rest).mapM (answer precision) <;> rfl

theorem journal_evalAll (n : Notebook) (lines : List String) :
    (n.evalAll clock precision lines).2.journal =
      .ofEntries n.journal.file n.journal.limit
        (n.journal.entries ++ entries clock (n.session.attempts lines)) := by
  induction lines generalizing n clock with
  | nil =>
      apply Journal.ext
      · rfl
      · rfl
      · simp [evalAll, entries, Session.attempts, Journal.newest_entries]
  | cons line rest ih =>
      rw [evalAll_cons, Session.attempts]
      cases hresult : n.session.result line with
      | error e =>
          simp only [eval_eq, hresult]
          rfl
      | ok v =>
          simp only [ih, eval_eq, hresult, entries_cons]
          apply Journal.ext
          · rfl
          · rfl
          · simp [newest_append_newest, entry]

end Notebook

end Abacus
