import Abacus.Proofs.Expr.Positions
import Abacus.Proofs.Session.Scope
import Abacus.Proofs.Session.Splitting

/-!
# Lines with blanks around them

Taking the blanks off a line changes neither its value nor, as long as it is an assignment, its
error. Otherwise the blanks in front of a line count in the position of a syntax error. A line feed
behind an assignment even keeps it from being one.
-/

namespace Abacus

/-- The error of a text behind `n` bytes of blanks. -/
def EvalError.moved (n : Nat) : EvalError → EvalError
  | .syntaxError fault => .syntaxError (fault.moved n)
  | e => e

theorem EvalError.moved_eq_syntaxError {n : Nat} {e : EvalError} {fault : SyntaxError} :
    e.moved n = .syntaxError fault ↔ ∃ own, e = .syntaxError own ∧ fault = own.moved n := by
  cases e <;> simp [moved, eq_comm]

/-! ## Blanks around an assignment -/

namespace Assignment

variable {line name expression : String}

namespace Form

variable {front back : List Char}

theorem mem_expression (f : Form) (h : f.expression ≠ []) :
    ∃ c ∈ f.expression, Text.isBlank c = false := by
  obtain ⟨c, more, hexpression⟩ := List.exists_cons_of_ne_nil h
  refine ⟨c, ?_, f.not_blank_expression c ?_⟩ <;> simp [hexpression]

/-- Where there is no expression, the blanks behind the equals sign are at the end. -/
theorem exists_trimmed (f : Form) :
    ∃ g : Form, g.chars = Text.trimChars f.chars ∧ g.name = f.name ∧
      g.expression = Text.trimBack f.expression := by
  rw [Text.trimChars, f.trimFront_chars]
  by_cases hexpression : f.expression = []
  · refine ⟨{ f with
      front := []
      behind := []
      expression := []
      blank_front := rfl
      blank_behind := rfl
      not_blank_expression := by simp
      one_line_expression := List.not_mem_nil }, ?_, rfl, by rw [hexpression]; rfl⟩
    have hequals : f.name ++ (f.before ++ '=' :: (f.behind ++ f.expression)) =
        f.name ++ f.before ++ ['='] ++ f.behind := by
      simp [hexpression]
    rw [hequals, Text.trimBack_append_blanks f.blank_behind, Text.trimBack_concat (by decide)]
    simp [chars]
  · obtain ⟨c, hc, hblank⟩ := f.mem_expression hexpression
    obtain ⟨back, hback, -⟩ := Text.exists_trimBack f.expression
    have hsubset : ∀ d ∈ Text.trimBack f.expression, d ∈ f.expression := by
      intro d hd
      rw [hback]
      exact List.mem_append_left back hd
    refine ⟨{ f with
      front := []
      expression := Text.trimBack f.expression
      blank_front := rfl
      not_blank_expression := fun d hd => f.not_blank_expression d (Text.head?_trimBack hd)
      one_line_expression := fun hfeed => f.one_line_expression (hsubset _ hfeed) }, ?_, rfl, rfl⟩
    have hequals : f.name ++ (f.before ++ '=' :: (f.behind ++ f.expression)) =
        f.name ++ f.before ++ '=' :: f.behind ++ f.expression := by
      simp
    rw [hequals, Text.trimBack_append hc hblank]
    simp [chars]

/-- Blanks without a line feed may stand around an assignment. -/
theorem exists_padded (f : Form) (hfront : front.all Text.isBlank = true)
    (hback : back.all Text.isBlank = true) (hfeed : '\n' ∉ back) :
    ∃ g : Form, g.chars = front ++ f.chars ++ back := by
  have hbefore : (front ++ f.front).all Text.isBlank = true := by
    rw [List.all_append, hfront, f.blank_front]
    rfl
  cases hexpression : f.expression with
  | nil =>
      have hbehind : (f.behind ++ back).all Text.isBlank = true := by
        rw [List.all_append, hback, f.blank_behind]
        rfl
      refine ⟨{ f with
        front := front ++ f.front
        behind := f.behind ++ back
        blank_front := hbefore
        blank_behind := hbehind }, ?_⟩
      simp [chars, hexpression]
  | cons c more =>
      refine ⟨{ f with
        front := front ++ f.front
        expression := f.expression ++ back
        blank_front := hbefore
        not_blank_expression := ?_
        one_line_expression := ?_ }, ?_⟩
      · intro d hd
        refine f.not_blank_expression d ?_
        rw [hexpression] at hd ⊢
        exact hd
      · rw [List.mem_append]
        exact not_or_intro f.one_line_expression hfeed
      · simp [chars]

end Form

theorem split?_trim (h : split? line = some (name, expression)) :
    split? (Text.trim line) = some (name, String.ofList (Text.trimBack expression.toList)) := by
  obtain ⟨f, hchars, rfl, rfl⟩ := split?_eq_some.1 h
  obtain ⟨g, htrimmed, hname, hexpression⟩ := f.exists_trimmed
  refine split?_eq_some.2 ⟨g, ?_, by rw [hname], by rw [hexpression, String.toList_ofList]⟩
  rw [htrimmed, hchars, Text.trim, String.toList_ofList]

/-- What keeps a line from being an assignment that is one without its blanks. -/
theorem lineFeed_of_isPadded {front text back : String}
    (hpadded : Text.IsPadded line front text back) (hline : split? line = none)
    (htext : split? text ≠ none) : '\n' ∈ back.toList := by
  by_contra hfeed
  obtain ⟨⟨name, expression⟩, hsome⟩ := Option.ne_none_iff_exists'.1 htext
  obtain ⟨f, hchars, -⟩ := split?_eq_some.1 hsome
  obtain ⟨g, hwhole⟩ := f.exists_padded hpadded.blank_front hpadded.blank_back hfeed
  have hsplit : split? line = _ :=
    split?_eq_some.2 ⟨g, by simp [hwhole, hchars, hpadded.line_eq], rfl, rfl⟩
  rw [hline] at hsplit
  cases hsplit

end Assignment

/-! ## Evaluating a line without its blanks -/

namespace Session

variable {s : Session} {e : Expr} {err : EvalError} {front text back line : String}

/-- Only the parser finds syntax errors. -/
theorem moved_of_evalExpr (h : s.evalExpr e = .error err) (n : Nat) : err.moved n = err := by
  obtain ⟨node, -, hfails⟩ := exists_fails h
  cases hfails <;> rfl

theorem evalText_of_isPadded (h : Text.IsPadded line front text back) (s : Session) :
    s.evalText line = (s.evalText text).mapError (EvalError.moved front.utf8ByteSize) := by
  rw [h.line_eq, evalText, evalText, Expr.parse_between h.blank_front h.blank_back]
  cases Expr.parse text with
  | error fault => rfl
  | ok e =>
      change s.evalExpr e = (s.evalExpr e).mapError _
      cases h : s.evalExpr e with
      | ok v => rfl
      | error err => rw [Except.mapError, moved_of_evalExpr h]

theorem evalText_before_blanks (hback : Text.isBlankText back = true) (s : Session)
    (text : String) : s.evalText (text ++ back) = s.evalText text := by
  rw [evalText, evalText, Expr.parse_before_blanks hback]

theorem evalText_trimBack (s : Session) (text : String) :
    s.evalText (String.ofList (Text.trimBack text.toList)) = s.evalText text := by
  obtain ⟨back, htext, hback⟩ := Text.exists_trimBack text.toList
  have hback : Text.isBlankText (String.ofList back) = true := by
    rwa [Text.isBlankText, String.toList_ofList]
  have htext : text = String.ofList (Text.trimBack text.toList) ++ String.ofList back := by
    rw [← String.toList_inj]
    simpa using htext
  conv_rhs => rw [htext, evalText_before_blanks hback]

/-- The blanks behind an assignment are behind its expression too. -/
theorem eval_trim_of_split? {name expression : String}
    (h : Assignment.split? line = some (name, expression)) (s : Session) :
    s.eval (Text.trim line) = s.eval line := by
  rw [eval, eval, h, Assignment.split?_trim h]
  simp only [evalText_trimBack]

/-- A line with an equals sign is no expression. -/
theorem exists_of_evalText_equals (h : '=' ∈ text.toList) (s : Session) :
    ∃ fault, s.evalText text = .error (.syntaxError fault) := by
  cases hparse : Expr.parse text with
  | ok e => exact absurd h (Expr.equals_notMem_of_parse hparse)
  | error fault =>
      refine ⟨fault, ?_⟩
      rw [evalText, hparse]
      rfl

end Session

end Abacus
