import Abacus.Proofs.Notebook.Sequence
import Abacus.Proofs.Session.Blanks
import Abacus.Proofs.Session.Substitution

/-!
# Entries and the lines that they are for

A line is evaluated as it stands, and entered without the blanks around it. What is entered with it
is what the line gave. So evaluating the expression of an entry gives what the entry says, unless
the line has a syntax error, whose position counts blanks that the entry does not have.
-/

namespace Abacus

namespace Session

/-- Evaluating the expression of an entry gives what the entry says. -/
def Reproduces (s : Session) (entry : Entry) : Prop :=
  entry = .ofOutcome entry.time entry.expression (s.result entry.expression)

variable {s : Session} {line text front back : String}

theorem reproduces_of_result {time : Instant} (h : s.result text = s.result line) :
    s.Reproduces (.ofOutcome time text (s.result line)) := by
  rw [Reproduces, Entry.time_ofOutcome, Entry.expression_ofOutcome, h]

theorem result_of_split?_none (h : Assignment.split? line = none) :
    s.result line = s.evalText line := by
  rw [result, eval, h]
  cases s.evalText line <;> rfl

theorem result_trim_of_split? (h : Assignment.split? line ≠ none) :
    s.result (Text.trim line) = s.result line := by
  obtain ⟨⟨name, expression⟩, hsplit⟩ := Option.ne_none_iff_exists'.1 h
  rw [result, result, eval_trim_of_split? hsplit]

/-- What a line gives without its blanks, where it is an assignment neither with nor without
them. -/
theorem result_of_isPadded (hpadded : Text.IsPadded line front text back)
    (hline : Assignment.split? line = none) (htext : Assignment.split? text = none) :
    s.result line = (s.result text).mapError (EvalError.moved front.utf8ByteSize) := by
  rw [result_of_split?_none hline, result_of_split?_none htext, evalText_of_isPadded hpadded]

/-- Where a line is an assignment without its blanks only, its equals sign is refused. -/
theorem exists_syntaxError_of_isPadded (hpadded : Text.IsPadded line front text back)
    (hline : Assignment.split? line = none) (htext : Assignment.split? text ≠ none) :
    ∃ fault, s.result line = .error (.syntaxError fault) := by
  obtain ⟨⟨name, expression⟩, hsplit⟩ := Option.ne_none_iff_exists'.1 htext
  have hequals : '=' ∈ line.toList := by
    simp [hpadded.line_eq, Assignment.equals_mem_of_split? hsplit]
  rw [result_of_split?_none hline]
  exact exists_of_evalText_equals hequals s

/-- The blanks around a line that is no assignment make a difference to a syntax error only, and
only if they stand in front of the line or there is a line feed among them. -/
theorem result_eq_of_isPadded (hpadded : Text.IsPadded line front text back)
    (hline : Assignment.split? line = none)
    (h : (∀ fault, s.result line ≠ .error (.syntaxError fault)) ∨
      front = "" ∧ '\n' ∉ back.toList) :
    s.result text = s.result line := by
  have htext : Assignment.split? text = none := by
    by_contra hsome
    rcases h with hproper | ⟨-, hfeed⟩
    · obtain ⟨fault, hfault⟩ := exists_syntaxError_of_isPadded (s := s) hpadded hline hsome
      exact hproper fault hfault
    · exact hfeed (Assignment.lineFeed_of_isPadded hpadded hline hsome)
  rcases h with hproper | ⟨rfl, -⟩
  · have hmoved := result_of_isPadded (s := s) hpadded hline htext
    rw [hmoved] at hproper ⊢
    cases hresult : s.result text with
    | ok v => rfl
    | error err =>
        rw [hresult] at hproper
        cases err with
        | syntaxError own => exact absurd rfl (hproper _)
        | _ => rfl
  · rw [result_of_split?_none hline, result_of_split?_none htext, hpadded.line_eq,
      String.empty_append, evalText_before_blanks hpadded.blank_back]

/-- The fault of a line that is no assignment is that of its text, at another position. -/
theorem exists_fault_of_isPadded {fault : SyntaxError}
    (hpadded : Text.IsPadded line front text back) (hline : Assignment.split? line = none)
    (htext : Assignment.split? text = none) (h : s.result line = .error (.syntaxError fault)) :
    ∃ own, s.result text = .error (.syntaxError own) ∧
      fault = own.moved front.utf8ByteSize := by
  rw [result_of_isPadded hpadded hline htext] at h
  cases hresult : s.result text with
  | ok v =>
      rw [hresult] at h
      cases h
  | error err =>
      rw [hresult] at h
      obtain ⟨own, rfl, hmoved⟩ := EvalError.moved_eq_syntaxError.1 (Except.error.inj h)
      exact ⟨own, rfl, hmoved⟩

/-- The first of several lines is attempted. -/
theorem exists_attempts_cons (s : Session) (line : String) (rest : List String) :
    ∃ later, s.attempts (line :: rest) = (line, s.result line) :: later := by
  rw [attempts]
  cases s.result line with
  | ok v => exact ⟨_, rfl⟩
  | error e => exact ⟨[], rfl⟩

end Session

namespace Notebook

variable {n : Notebook} {before : List String} {values : List Value} {s : Session}

/-- Behind lines that succeed, a line is entered with what it gives in the session that they lead
to. -/
theorem exists_entries (h : n.session.evalLines before = .ok (values, s)) (clock : Clock)
    (precision : Nat) (line : String) (after : List String) :
    ∃ earlier later, earlier.length = before.length ∧
      (n.evalAll clock precision (before ++ line :: after)).2.journal = n.journal.extend
        (earlier ++ .ofOutcome (clock.time before.length) (Text.trim line) (s.result line) ::
          later) := by
  obtain ⟨later, hlater⟩ := s.exists_attempts_cons line after
  refine ⟨successes clock before values, entries ((clock.after before.length).after 1) later,
    ?_, ?_⟩
  · rw [successes, List.length_mapIdx, List.length_zip, Session.length_evalLines h, Nat.min_self]
  · have hrest : (evalAll (clock.after before.length) precision
        ⟨s, n.journal.extend (successes clock before values)⟩ (line :: after)).2.journal =
          (n.journal.extend (successes clock before values)).extend
            (entries (clock.after before.length) (s.attempts (line :: after))) :=
      journal_evalAll _ precision _ _
    rw [evalAll_append h, hrest, hlater, Journal.extend_extend, entries_cons,
      Clock.time_after_zero]
    rfl

/-- A line behind lines that succeed is entered, without the blanks around it, with what it gives.
Evaluating the expression of its entry in the session before the line gives what the entry says,
unless the line has a syntax error and is no assignment. A syntax error then counts the blanks in
front of the line in its position, or the line is an assignment but for a line feed behind it. -/
theorem entry_reproducible (n : Notebook) (clock : Clock) (precision : Nat)
    (before after : List String) (line : String) (values : List Value) (s : Session)
    (h : n.session.evalLines before = .ok (values, s)) :
    ∃ earlier entry later, earlier.length = before.length ∧
      (n.evalAll clock precision (before ++ line :: after)).2.journal =
        n.journal.extend (earlier ++ entry :: later) ∧
      entry = .ofOutcome (clock.time before.length) (Text.trim line) (s.result line) ∧
      ∃ front back, Text.IsPadded line front (Text.trim line) back ∧
        ((∀ fault, s.result line ≠ .error (.syntaxError fault)) ∨
            Assignment.split? line ≠ none ∨ (front = "" ∧ '\n' ∉ back.toList) →
          s.Reproduces entry) ∧
        ∀ fault, s.result line = .error (.syntaxError fault) → Assignment.split? line = none →
          match Assignment.split? (Text.trim line) with
          | none => ∃ own, s.result (Text.trim line) = .error (.syntaxError own) ∧
              fault = own.moved front.utf8ByteSize
          | some _ => '\n' ∈ back.toList := by
  obtain ⟨earlier, later, hlength, hjournal⟩ := exists_entries h clock precision line after
  obtain ⟨front, back, hpadded⟩ := Text.exists_isPadded_trim line
  refine ⟨earlier, _, later, hlength, hjournal, rfl, front, back, hpadded, ?_, ?_⟩
  · intro hcases
    apply Session.reproduces_of_result
    by_cases hline : Assignment.split? line = none
    · refine Session.result_eq_of_isPadded hpadded hline ?_
      rcases hcases with hproper | hsome | hends
      · exact Or.inl hproper
      · exact absurd hline hsome
      · exact Or.inr hends
    · exact Session.result_trim_of_split? hline
  · intro fault hfault hline
    cases htrim : Assignment.split? (Text.trim line) with
    | none => exact Session.exists_fault_of_isPadded hpadded hline htrim hfault
    | some parts => exact Assignment.lineFeed_of_isPadded hpadded hline (by simp [htrim])

/-- A line that takes a cube of the answer, with a space in front of it. -/
theorem entry_reproducible_cube :
    let n := Notebook.fresh .exact (.inMemory 10)
    let two : Value := .integer ⟨2, by decide, by decide⟩
    let s : Session := ⟨.exact, .empty, two⟩
    n.session.evalLines ["2"] = .ok ([two], s) ∧
      ∃ earlier entry later, earlier.length = 1 ∧
        (n.evalAll ⟨fun i => ⟨0, i, 0⟩⟩ 10 ["2", " ans ^ 3"]).2.journal =
          n.journal.extend (earlier ++ entry :: later) ∧
        entry.expression = "ans ^ 3" ∧ s.Reproduces entry := by
  intro n two s
  have hlexes : Token.Lexes "2".toList [.number two] [] :=
    Token.lexes_integer (by decide) Token.ends_nil
  have hparse : Expr.parse "2" = .ok (.literal two) :=
    Expr.parse_of_lexes hlexes (Expr.Derives.number two).signed_of_primary.sum_of_signed
      (by decide) (by decide)
  have heval : n.session.eval "2" = .ok (two, s) := Session.eval_of_parse hparse rfl
  have hlines : n.session.evalLines ["2"] = .ok ([two], s) :=
    Session.evalLines_cons_eq_ok.2 ⟨two, s, [], heval, rfl, rfl⟩
  have hcube : (s.result " ans ^ 3").isOk = true := by decide +kernel
  have hproper : ∀ fault, s.result " ans ^ 3" ≠ .error (.syntaxError fault) := by
    intro fault hfault
    rw [hfault] at hcube
    cases hcube
  obtain ⟨earlier, entry, later, hlength, hjournal, hentry, front, back, -, hagain, -⟩ :=
    entry_reproducible n ⟨fun i => ⟨0, i, 0⟩⟩ 10 ["2"] [] " ans ^ 3" [two] s hlines
  refine ⟨hlines, earlier, entry, later, hlength, hjournal, ?_, hagain (Or.inl hproper)⟩
  rw [hentry, Entry.expression_ofOutcome]
  decide

theorem evalAll_singleton (n : Notebook) (clock : Clock) (precision : Nat) (line : String) :
    (n.evalAll clock precision [line]).2 = (n.eval (clock.time 0) line).2 := by
  rw [evalAll_cons]
  cases n.session.result line <;> rfl

/-- The position that is entered for ` 1 + $` counts the space in front of it, which the entry does
not have. What is entered for the line `x = 3` with its line feed is that it is no expression. -/
theorem entry_not_reproduced :
    let n := Notebook.fresh .exact (.inMemory 10)
    let journal (line : String) := (n.evalAll (⟨0, 0, 0⟩ : Instant) 10 [line]).2.journal
    (∃ entry, (journal " 1 + $").entries = [entry] ∧ entry.expression = "1 + $" ∧
      entry.error = some "Syntax error: unexpected character '$' at position 5" ∧
      ¬n.session.Reproduces entry) ∧
    ∃ entry, (journal "x = 3\n").entries = [entry] ∧ entry.expression = "x = 3" ∧
      entry.error = some "Syntax error: unexpected '=' at position 2" ∧
      ¬n.session.Reproduces entry := by
  intro n journal
  let outcome (text line : String) : Entry := .ofOutcome ⟨0, 0, 0⟩ text (n.session.result line)
  have hjournal : ∀ line, (journal line).entries = [outcome (Text.trim line) line] := by
    intro line
    simp only [journal, evalAll_singleton, eval_eq]
    rfl
  have hdisplaced : ∀ text line, (outcome text line).error ≠ (outcome text text).error →
      ¬n.session.Reproduces (outcome text line) := by
    intro text line hne h
    rw [Session.Reproduces, Entry.time_ofOutcome, Entry.expression_ofOutcome] at h
    exact hne (congrArg Entry.error h)
  have hspace : Text.trim " 1 + $" = "1 + $" := by decide
  have hfeed : Text.trim "x = 3\n" = "x = 3" := by decide
  refine ⟨⟨outcome "1 + $" " 1 + $", ?_, Entry.expression_ofOutcome .., ?_, hdisplaced _ _ ?_⟩,
    outcome "x = 3" "x = 3\n", ?_, Entry.expression_ofOutcome .., ?_, hdisplaced _ _ ?_⟩
  · rw [hjournal, hspace]
  · decide +kernel
  · decide +kernel
  · rw [hjournal, hfeed]
  · decide +kernel
  · decide +kernel

end Notebook

end Abacus
