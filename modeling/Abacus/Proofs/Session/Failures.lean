import Abacus.Proofs.Session.Evaluation
import Abacus.Proofs.Session.Steps

/-!
# Lines that fail

A step that fails leaves no trace: a run goes on as if it had not been there. A line that succeeds
sets the answer, and binds the one name of its assignment.
-/

namespace Abacus.Session

variable {s : Session} {v : Value}

/-- Whether something was evaluated and failed. -/
def isFailure : Option (Except EvalError Value) → Bool
  | some (.error _) => true
  | _ => false

/-- The steps of a run, each with what it gives back. -/
def transcript (s : Session) : List Step → List (Step × Option (Except EvalError Value))
  | [] => []
  | next :: rest => (next, s.outcome? next) :: (s.step next).transcript rest

/-- The steps of a run that do not fail. -/
def lasting (s : Session) (steps : List Step) : List Step :=
  ((s.transcript steps).filter fun entry => !isFailure entry.2).map (·.1)

theorem step_of_isFailure {next : Step} (h : isFailure (s.outcome? next) = true) :
    s.step next = s := by
  cases next with
  | tree e parsed => rfl
  | clear => cases h
  | reset => cases h
  | line text =>
      rw [outcome?] at h
      rw [step, afterLine]
      cases heval : s.eval text with
      | error err => rfl
      | ok result =>
          rw [heval] at h
          cases h

theorem lasting_cons_of_isFailure {next : Step} {rest : List Step}
    (h : isFailure (s.outcome? next) = true) : s.lasting (next :: rest) = s.lasting rest := by
  have hsame := step_of_isFailure h
  simp [lasting, transcript, h, hsame]

theorem lasting_cons_of_not_isFailure {next : Step} {rest : List Step}
    (h : isFailure (s.outcome? next) = false) :
    s.lasting (next :: rest) = next :: (s.step next).lasting rest := by
  simp [lasting, transcript, h]

theorem run_cons (next : Step) (rest : List Step) :
    s.run (next :: rest) = (s.step next).run rest :=
  rfl

theorem run_lasting (steps : List Step) : s.run (s.lasting steps) = s.run steps := by
  induction steps generalizing s with
  | nil => rfl
  | cons next rest ih =>
      cases h : isFailure (s.outcome? next) with
      | true =>
          have hsame := step_of_isFailure h
          rw [lasting_cons_of_isFailure h, run_cons, hsame]
          exact ih
      | false =>
          rw [lasting_cons_of_not_isFailure h, run_cons, run_cons]
          exact ih

theorem transcript_lasting (steps : List Step) :
    s.transcript (s.lasting steps) =
      (s.transcript steps).filter fun entry => !isFailure entry.2 := by
  induction steps generalizing s with
  | nil => rfl
  | cons next rest ih =>
      cases h : isFailure (s.outcome? next) with
      | true =>
          have hsame := step_of_isFailure h
          rw [lasting_cons_of_isFailure h, ih]
          simp [transcript, h, hsame]
      | false =>
          rw [lasting_cons_of_not_isFailure h]
          simp [transcript, h, ih]

/-- What a line that succeeds does to a session of which it has the value `v`. -/
structure Sets (s next : Session) (line : String) (v : Value) : Prop where
  mode : next.mode = s.mode
  answer : next.answer = v
  bare : Assignment.split? line = none → next.bindings = s.bindings
  bound : ∀ name expression, Assignment.split? line = some (name, expression) →
    next.bindings.find? name = some v
  others : ∀ name expression other, Assignment.split? line = some (name, expression) →
    other ≠ name → next.bindings.find? other = s.bindings.find? other

theorem sets_of_eval {line : String} {next : Session} (h : s.eval line = .ok (v, next)) :
    s.Sets next line v := by
  rcases eval_eq_ok.1 h with ⟨name, expression, hsplit, -, -, rfl⟩ | ⟨hsplit, -, rfl⟩
  · have hparts : ∀ other text, Assignment.split? line = some (other, text) → other = name := by
      intro other text hother
      rw [hsplit] at hother
      cases hother
      rfl
    constructor
    · rfl
    · rfl
    · intro hnone
      rw [hsplit] at hnone
      cases hnone
    · intro bound text hbound
      rw [hparts bound text hbound]
      exact Bindings.find?_insert_self s.bindings name v
    · intro bound text other hbound hne
      rw [hparts bound text hbound] at hne
      exact Bindings.find?_insert_of_ne s.bindings hne v
  · have hno : ∀ name text, Assignment.split? line ≠ some (name, text) := by
      intro name text hsome
      rw [hsplit] at hsome
      cases hsome
    constructor
    · rfl
    · rfl
    · intro _
      rfl
    · intro name text hsome
      exact absurd hsome (hno name text)
    · intro name text other hsome
      exact absurd hsome (hno name text)

theorem mode_step (s : Session) (next : Step) : (s.step next).mode = s.mode := by
  cases next with
  | tree e parsed => rfl
  | clear => rfl
  | reset => rfl
  | line text =>
      rw [step, afterLine]
      cases h : s.eval text with
      | error err => rfl
      | ok result => exact (sets_of_eval h).mode

theorem mode_run (s : Session) (steps : List Step) : (s.run steps).mode = s.mode := by
  induction steps generalizing s with
  | nil => rfl
  | cons next rest ih =>
      rw [run_cons, ih]
      exact mode_step s next

/-- A run without the steps that fail comes to the same session, and each step that is left gives
back what it gave before. In every state that a run comes to, a line that succeeds makes its value
the answer and changes no variable but the one that it assigns to; a reset forgets the answer and
the variables, and clearing forgets the answer alone. -/
theorem failures_leave_no_trace (mode : NumberMode) (steps : List Step) :
    let s := fresh mode
    let last := s.run steps
    s.run (s.lasting steps) = last ∧
    s.transcript (s.lasting steps) =
      (s.transcript steps).filter (fun entry => !isFailure entry.2) ∧
    (∀ line v next, last.eval line = .ok (v, next) →
      last.step (.line line) = next ∧ last.Sets next line v) ∧
    last.step .reset = fresh mode ∧
    last.step .clear = { last with answer := .zero } := by
  intro s last
  refine ⟨run_lasting steps, transcript_lasting steps, ?_, ?_, rfl⟩
  · intro line v next h
    have hstep : last.step (.line line) = next := by
      simp [step, afterLine, h]
    exact ⟨hstep, sets_of_eval h⟩
  · have hmode : last.mode = mode := mode_run s steps
    have hreset : last.step .reset = fresh last.mode := rfl
    rw [hreset, hmode]

end Abacus.Session
