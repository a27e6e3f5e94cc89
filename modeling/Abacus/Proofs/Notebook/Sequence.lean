import Abacus.Proofs.Notebook.Prompt

/-!
# Lines one after the other

Several lines are evaluated up to the first that fails. What comes of it is said by evaluating the
same lines in the session on its own: all their values, or the error of that one, which is also the
last line that leaves an entry in the journal. Typing the attempted lines at the prompt comes to the
same, but for the times of the entries.
-/

namespace Abacus

namespace Session

/-- Evaluating a line as a step from one session to the next. -/
def evalLine (line : String) : StateT Session (Except EvalError) Value := fun s => s.eval line

/-- Evaluates lines one after the other: the values of all of them and the session behind them, or
the error of the first that fails. -/
def evalLines (s : Session) (lines : List String) : Except EvalError (List Value × Session) :=
  (lines.mapM evalLine).run s

variable {s next last : Session} {v : Value} {values : List Value} {line : String}
variable {front rest lines : List String} {e : EvalError}

theorem evalLines_nil (s : Session) : s.evalLines [] = .ok ([], s) :=
  rfl

theorem evalLines_cons (s : Session) (line : String) (rest : List String) :
    s.evalLines (line :: rest) = (do
      let (v, next) ← s.eval line
      let (values, last) ← next.evalLines rest
      .ok (v :: values, last)) := by
  rw [evalLines, List.mapM_cons]
  rfl

theorem evalLines_cons_eq_ok :
    s.evalLines (line :: rest) = .ok (values, last) ↔
      ∃ v next others, s.eval line = .ok (v, next) ∧ next.evalLines rest = .ok (others, last) ∧
        values = v :: others := by
  rw [evalLines_cons, bind_eq_ok]
  constructor
  · rintro ⟨⟨v, next⟩, heval, h⟩
    obtain ⟨⟨others, final⟩, hrest, h⟩ := bind_eq_ok.1 h
    cases h
    exact ⟨v, next, others, heval, hrest, rfl⟩
  · rintro ⟨v, next, others, heval, hrest, rfl⟩
    exact ⟨(v, next), heval, bind_eq_ok.2 ⟨(others, last), hrest, rfl⟩⟩

theorem length_evalLines (h : s.evalLines lines = .ok (values, last)) :
    values.length = lines.length := by
  induction lines generalizing s values with
  | nil =>
      cases h
      rfl
  | cons line rest ih =>
      obtain ⟨v, next, others, -, hrest, rfl⟩ := evalLines_cons_eq_ok.1 h
      rw [List.length_cons, List.length_cons, ih hrest]

/-- Where some line fails, all lines in front of the first one succeed. -/
theorem exists_of_evalLines_eq_error (h : s.evalLines lines = .error e) :
    ∃ front line later values last, lines = front ++ line :: later ∧
      s.evalLines front = .ok (values, last) ∧ last.eval line = .error e := by
  induction lines generalizing s with
  | nil => cases h
  | cons line rest ih =>
      rw [evalLines_cons] at h
      rcases bind_eq_error.1 h with heval | ⟨⟨v, next⟩, heval, h⟩
      · exact ⟨[], line, rest, [], s, rfl, evalLines_nil s, heval⟩
      · rcases bind_eq_error.1 h with hrest | ⟨_, -, h⟩
        · obtain ⟨front, failing, later, values, last, rfl, hfront, hfailing⟩ := ih hrest
          exact ⟨line :: front, failing, later, v :: values, last, rfl,
            evalLines_cons_eq_ok.2 ⟨v, next, values, heval, hfront, rfl⟩, hfailing⟩
        · cases h

theorem result_of_eval (h : s.eval line = .ok (v, next)) : s.result line = .ok v := by
  rw [result, h]
  rfl

theorem afterLine_of_eval (h : s.eval line = .ok (v, next)) : s.afterLine line = next := by
  rw [afterLine, h]

theorem result_of_error (h : s.eval line = .error e) : s.result line = .error e := by
  rw [result, h]
  rfl

/-- Lines that succeed are attempted, and so are those behind them. -/
theorem map_attempts_append (h : s.evalLines front = .ok (values, last)) (rest : List String) :
    (s.attempts (front ++ rest)).map (·.1) = front ++ (last.attempts rest).map (·.1) := by
  induction front generalizing s values with
  | nil =>
      cases h
      rfl
  | cons line more ih =>
      obtain ⟨v, next, others, heval, hmore, -⟩ := evalLines_cons_eq_ok.1 h
      rw [List.cons_append, attempts, result_of_eval heval, afterLine_of_eval heval]
      simp only [List.map_cons, ih hmore, List.cons_append]

end Session

/-- A journal with further entries, of which it keeps the newest. -/
def Journal.extend (j : Journal) (entries : List Entry) : Journal :=
  .ofEntries j.file j.limit (j.entries ++ entries)

namespace Journal

variable (j : Journal) (entries more : List Entry)

theorem extend_nil : j.extend [] = j := by
  apply Journal.ext
  · rfl
  · rfl
  · simp [extend, newest_entries]

theorem extend_extend : (j.extend entries).extend more = j.extend (entries ++ more) := by
  apply Journal.ext
  · rfl
  · rfl
  · simp [extend, newest_append_newest]

end Journal

namespace Clock

variable (clock : Clock) (k l : Nat)

theorem time_after_zero : (clock.after k).time 0 = clock.time k := by
  simp only [after, Nat.zero_add]

theorem after_after : (clock.after k).after l = clock.after (l + k) := by
  simp only [after, Nat.add_assoc]

end Clock

/-- What an entry says, whenever it was made. -/
def Entry.content (e : Entry) : String × Option Value × Option String :=
  (e.expression, e.result, e.error)

/-- A line that the prompt evaluates as it stands: it is trimmed, not blank and no command. -/
structure Prompt.IsPlain (line : String) : Prop where
  trimmed : Text.trim line = line
  not_blank : line ≠ ""
  no_command : line ∉ commands

theorem Prompt.IsPlain.evaluates {line : String} (h : IsPlain line) : Evaluates line := by
  rw [Evaluates, h.trimmed]
  exact ⟨h.not_blank, h.no_command⟩

namespace Notebook

/-- The answer to a line that has a value. -/
def answerTo (precision : Nat) (line : String) (v : Value) : Answer :=
  ⟨Text.trim line, v, v.format precision⟩

/-- The entries of lines that have the given values. -/
def successes (clock : Clock) (lines : List String) (values : List Value) : List Entry :=
  (lines.zip values).mapIdx fun i (line, v) => .success (clock.time i) line v

theorem successes_nil (clock : Clock) (values : List Value) : successes clock [] values = [] :=
  rfl

theorem successes_cons (clock : Clock) (line : String) (lines : List String) (v : Value)
    (values : List Value) :
    successes clock (line :: lines) (v :: values) =
      .success (clock.time 0) line v :: successes (clock.after 1) lines values :=
  List.mapIdx_cons

variable {n m : Notebook} {clock : Clock} {time : Instant} {precision : Nat} {line : String}
variable {front rest lines : List String} {values : List Value} {v : Value} {e : EvalError}
variable {next last : Session}

section Evaluation

theorem eval_of_ok (h : n.session.eval line = .ok (v, next)) :
    n.eval time line = (.ok v, ⟨next, n.journal.extend [.success time line v]⟩) := by
  rw [eval, h]
  rfl

theorem eval_of_error (h : n.session.eval line = .error e) :
    n.eval time line =
      (.error e, ⟨n.session, n.journal.extend [.failure time line e.message]⟩) := by
  rw [eval, h]
  rfl

/-- Lines that all succeed are answered and entered, and evaluation goes on behind them. -/
theorem evalAll_append (h : n.session.evalLines front = .ok (values, last)) (rest : List String) :
    n.evalAll clock precision (front ++ rest) =
      let behind := evalAll (clock.after front.length) precision
        ⟨last, n.journal.extend (successes clock front values)⟩ rest
      (behind.1.map (List.zipWith (answerTo precision) front values ++ ·), behind.2) := by
  induction front generalizing n values clock with
  | nil =>
      cases h
      have hclock : clock.after 0 = clock := rfl
      simp only [List.nil_append, List.zipWith_nil_left, successes_nil, List.length_nil, hclock,
        Journal.extend_nil]
      cases hrest : n.evalAll clock precision rest with
      | mk result final => cases result <;> rfl
  | cons line more ih =>
      obtain ⟨v, next, others, heval, hmore, rfl⟩ := Session.evalLines_cons_eq_ok.1 h
      rw [List.cons_append, evalAll_cons, Session.result_of_eval heval, eval_of_ok heval]
      have hmore : Session.evalLines
          (Notebook.session ⟨next, n.journal.extend [.success (clock.time 0) line v]⟩) more =
            .ok (others, last) := hmore
      simp only [ih hmore, Journal.extend_extend, List.zipWith_cons_cons, List.singleton_append,
        successes_cons, Clock.after_after, List.length_cons]
      generalize evalAll _ precision _ rest = behind
      cases behind.1 <;> rfl

theorem evalAll_of_ok (h : n.session.evalLines lines = .ok (values, last)) :
    n.evalAll clock precision lines =
      (.ok (List.zipWith (answerTo precision) lines values),
        ⟨last, n.journal.extend (successes clock lines values)⟩) := by
  have hall : n.evalAll clock precision (lines ++ []) = _ := evalAll_append h []
  simpa [evalAll, Except.map] using hall

theorem evalAll_of_error (hfront : n.session.evalLines front = .ok (values, last))
    (hline : last.eval line = .error e) (later : List String) :
    n.evalAll clock precision (front ++ line :: later) =
      (.error e, ⟨last, n.journal.extend (successes clock front values ++
        [.failure (clock.time front.length) line e.message])⟩) := by
  rw [evalAll_append hfront, evalAll_cons, Session.result_of_error hline, eval_of_error hline]
  simp only [Journal.extend_extend, Except.map, Clock.time_after_zero]

end Evaluation

/-! ## The prompt takes the same steps -/

section Typing

/-- Two notebooks differ in nothing but the times of their entries. -/
structure SameButTimes (n m : Notebook) : Prop where
  session : n.session = m.session
  file : n.journal.file = m.journal.file
  limit : n.journal.limit = m.journal.limit
  contents : n.journal.entries.map Entry.content = m.journal.entries.map Entry.content

/-- Lines that the prompt evaluates as they stand lead it to the given notebook, whenever they are
typed. -/
def TypingLeadsTo (n : Notebook) (precision : Nat) (lines : List String) (last : Notebook) : Prop :=
  (∀ line ∈ lines, Prompt.IsPlain line) → ∀ inputs : List (Instant × String),
    inputs.map (·.2) = lines → (n.afterInputs precision inputs).SameButTimes last

theorem map_newest {α β : Type} (f : α → β) (limit : Nat) (xs : List α) :
    (newest limit xs).map f = newest limit (xs.map f) := by
  rw [newest, newest, List.map_drop, List.length_map]

/-- A plain line does at the prompt what it does in a list of lines. -/
theorem SameButTimes.handleLine (h : n.SameButTimes m) (hplain : Prompt.IsPlain line)
    (typed : Instant) :
    (n.handleLine typed precision line).2.SameButTimes (m.eval time line).2 := by
  rw [handleLine_of_evaluates hplain.evaluates, eval_eq, hplain.trimmed, h.session]
  constructor
  · rw [Session.afterInput, if_pos hplain.evaluates, hplain.trimmed]
  · exact h.file
  · exact h.limit
  · simp only [Journal.entries_record, map_newest, List.map_append, h.limit, h.contents]
    cases m.session.result line <;> rfl

theorem SameButTimes.afterInputs {inputs : List (Instant × String)} (h : n.SameButTimes m)
    (hplain : ∀ input ∈ inputs, Prompt.IsPlain input.2)
    (hinputs : inputs.map (·.2) = (m.session.attempts lines).map (·.1)) :
    (n.afterInputs precision inputs).SameButTimes (m.evalAll clock precision lines).2 := by
  induction lines generalizing n m inputs clock with
  | nil =>
      obtain rfl := List.map_eq_nil_iff.1 hinputs
      exact h
  | cons line rest ih =>
      rw [Session.attempts] at hinputs
      rw [evalAll_cons]
      cases hresult : m.session.result line with
      | error e =>
          rw [hresult] at hinputs
          obtain ⟨⟨typed, _⟩, more, rfl, rfl, hmore⟩ := List.map_eq_cons_iff.1 hinputs
          obtain rfl := List.map_eq_nil_iff.1 hmore
          obtain ⟨hline, -⟩ := List.forall_mem_cons.1 hplain
          rw [afterInputs_cons]
          exact h.handleLine hline typed
      | ok v =>
          rw [hresult] at hinputs
          obtain ⟨⟨typed, _⟩, more, rfl, rfl, hmore⟩ := List.map_eq_cons_iff.1 hinputs
          obtain ⟨hline, hothers⟩ := List.forall_mem_cons.1 hplain
          rw [afterInputs_cons]
          refine ih (h.handleLine hline typed) hothers ?_
          rw [hmore, eval_eq]

theorem typingLeadsTo_attempts (n : Notebook) (clock : Clock) (precision : Nat)
    (lines : List String) :
    n.TypingLeadsTo precision ((n.session.attempts lines).map (·.1))
      (n.evalAll clock precision lines).2 := by
  intro hplain inputs hinputs
  have hsame : n.SameButTimes n := ⟨rfl, rfl, rfl, rfl⟩
  refine hsame.afterInputs ?_ hinputs
  intro input hinput
  apply hplain
  rw [← hinputs]
  exact List.mem_map_of_mem hinput

end Typing

/-- Where evaluating some lines in the session of a notebook never fails, all of them are answered,
in their order, and entered. Otherwise the error is that of the first line that fails. The session
is then the one in front of this line, which is the last one to be entered, and lines behind it make
no difference. Each line is entered with the time at which it was evaluated. Typing the attempted
lines at the prompt leads to the same notebook but for the times, if they are plain ones. -/
theorem evalAll_stops_at_failure (n : Notebook) (clock : Clock) (precision : Nat)
    (lines : List String) :
    match n.session.evalLines lines with
    | .ok (values, last) =>
      values.length = lines.length ∧
      n.evalAll clock precision lines =
        (.ok (List.zipWith (answerTo precision) lines values),
          ⟨last, n.journal.extend (successes clock lines values)⟩) ∧
      n.TypingLeadsTo precision lines (n.evalAll clock precision lines).2
    | .error e =>
      ∃ front line later values last, lines = front ++ line :: later ∧
        n.session.evalLines front = .ok (values, last) ∧ last.eval line = .error e ∧
        values.length = front.length ∧
        (∀ others, n.evalAll clock precision (front ++ line :: others) =
          (.error e, ⟨last, n.journal.extend (successes clock front values ++
            [.failure (clock.time front.length) line e.message])⟩)) ∧
        n.TypingLeadsTo precision (front ++ [line]) (n.evalAll clock precision lines).2 := by
  have htyping := n.typingLeadsTo_attempts clock precision lines
  cases h : n.session.evalLines lines with
  | ok result =>
      obtain ⟨values, last⟩ := result
      have hattempts := Session.map_attempts_append h []
      rw [List.append_nil] at hattempts
      rw [hattempts, Session.attempts, List.map_nil, List.append_nil] at htyping
      exact ⟨Session.length_evalLines h, evalAll_of_ok h, htyping⟩
  | error e =>
      obtain ⟨front, line, later, values, last, rfl, hfront, hline⟩ :=
        Session.exists_of_evalLines_eq_error h
      rw [Session.map_attempts_append hfront, Session.attempts, Session.result_of_error hline]
        at htyping
      exact ⟨front, line, later, values, last, rfl, hfront, hline, Session.length_evalLines hfront,
        evalAll_of_error hfront hline, htyping⟩

end Notebook

end Abacus
