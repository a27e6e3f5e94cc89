import Abacus.Proofs.Expr.Kinds
import Abacus.Proofs.Expr.Printing
import Abacus.Proofs.Session.Assignment
import Abacus.Proofs.Session.Invariant

/-!
# Names stand for what they were given

A variable, and the answer, may be replaced by the expression whose value they have, as long as the
session is the one in which the value was found. Both sides give the same value or fail alike.
-/

namespace Abacus

namespace Expr

/-- An expression in which another one stands for a name. -/
def replace (e : Expr) (name : String) (replacement : Expr) : Expr :=
  match e with
  | .literal v => .literal v
  | .variable other => if other = name then replacement else .variable other
  | .negate operand => .negate (operand.replace name replacement)
  | .binary op lhs rhs => .binary op (lhs.replace name replacement) (rhs.replace name replacement)
  | .call function argument => .call function (argument.replace name replacement)

/-- The names that an expression mentions as variables. -/
def names : Expr → List String
  | .literal _ => []
  | .variable name => [name]
  | .negate operand => operand.names
  | .binary _ lhs rhs => lhs.names ++ rhs.names
  | .call _ argument => argument.names

end Expr

namespace Session

variable {s next : Session} {v w : Value} {e replacement : Expr} {name : String}

/-- A value that has been coerced stays what it is. -/
theorem coerce_of_proper {mode : NumberMode} (h : v.Proper mode) : coerce mode v = v := by
  cases mode with
  | exact => exact coerce_exact v
  | float =>
      cases v with
      | integer n => cases h.decimal rfl
      | decimal x => rfl

/-- Where two sessions differ in one name, and an expression has in the one session the value of the
name in the other, replacing the name makes up for the difference. -/
theorem evalExpr_replace (hmode : next.mode = s.mode) (hvalue : s.evalExpr replacement = .ok v)
    (hname : next.lookup name = .ok v)
    (hothers : ∀ other ∈ e.names, other ≠ name → next.lookup other = s.lookup other) :
    next.evalExpr e = s.evalExpr (e.replace name replacement) := by
  induction e with
  | literal x => simp only [evalExpr, Expr.replace, hmode]
  | «variable» other =>
      by_cases hother : other = name
      · subst hother
        simp only [evalExpr, Expr.replace, if_true, hname, hvalue]
      · simp only [evalExpr, Expr.replace, hother, if_false]
        exact hothers other (List.mem_singleton_self other) hother
  | negate operand ih =>
      simp only [evalExpr, Expr.replace, ih hothers]
  | binary op lhs rhs ihl ihr =>
      have hl := ihl fun other hmem => hothers other (List.mem_append_left _ hmem)
      have hr := ihr fun other hmem => hothers other (List.mem_append_right _ hmem)
      simp only [evalExpr, Expr.replace, hl, hr, hmode]
  | call function argument ih =>
      simp only [evalExpr, Expr.replace, ih hothers, hmode]

theorem lookup_insert_self (hv : v.Proper s.mode) (hname : name ≠ answerName) :
    { s with bindings := s.bindings.insert name v, answer := v }.lookup name = .ok v := by
  refine lookup_eq_ok.2 (Or.inr (Or.inl ⟨hname, v, Bindings.find?_insert_self .., ?_⟩))
  exact (coerce_of_proper hv).symm

theorem lookup_insert_of_ne {other : String} (hanswer : other ≠ answerName)
    (hother : other ≠ name) :
    { s with bindings := s.bindings.insert name v, answer := v }.lookup other =
      s.lookup other := by
  simp only [lookup, hanswer, if_false, Bindings.find?_insert_of_ne _ hother]

theorem lookup_answer (hv : v.Proper s.mode) :
    { s with answer := v }.lookup answerName = .ok v :=
  lookup_eq_ok.2 (Or.inl ⟨rfl, (coerce_of_proper hv).symm⟩)

theorem lookup_answer_of_ne (hname : name ≠ answerName) :
    { s with answer := v }.lookup name = s.lookup name := by
  simp only [lookup, hname, if_false]

theorem ne_answerName_of_free (h : isReserved name = false) : name ≠ answerName := by
  rintro rfl
  revert h
  decide

/-- No text that is read as an expression is taken for an assignment. -/
theorem split?_of_parse {text : String} (h : Expr.parse text = .ok e) :
    Assignment.split? text = none := by
  refine Option.eq_none_iff_forall_not_mem.2 ?_
  intro parts hparts
  exact Expr.equals_notMem_of_parse h (Assignment.equals_mem_of_split? hparts)

theorem evalText_of_parse {text : String} (hparse : Expr.parse text = .ok e)
    (hvalue : s.evalExpr e = .ok v) : s.evalText text = .ok v :=
  evalText_eq_ok.2 ⟨e, hparse, hvalue⟩

/-- Evaluating an expression on a line of its own makes its value the answer. -/
theorem eval_expression {text : String} (hparse : Expr.parse text = .ok e) :
    s.eval text = (s.evalExpr e).map fun v => (v, { s with answer := v }) := by
  have htext : s.evalText text = s.evalExpr e := by
    rw [evalText, hparse]
    rfl
  rw [eval, split?_of_parse hparse]
  simp only [htext]
  cases s.evalExpr e <;> rfl

theorem eval_of_parse {text : String} (hparse : Expr.parse text = .ok e)
    (hvalue : s.evalExpr e = .ok v) : s.eval text = .ok (v, { s with answer := v }) := by
  rw [eval_expression hparse, hvalue]
  rfl

/-- Assigning a text to a name evaluates that text, where the line is an assignment at all. -/
theorem eval_lineFor {text : String} (hname : Token.IsName name) (hfree : isReserved name = false)
    (hparse : Expr.parse text = .ok e) (hvalue : s.evalExpr e = .ok v) :
    s.eval (Assignment.lineFor name text) = .ok (w, next) ↔
      Assignment.IsName name.toList ∧ '\n' ∉ Text.trimFront text.toList ∧ w = v ∧
        next = { s with bindings := s.bindings.insert name v, answer := v } := by
  have htext : s.evalText (String.ofList (Text.trimFront text.toList)) = .ok v :=
    evalText_of_parse (Expr.parse_trimFront hparse) hvalue
  constructor
  · intro h
    rcases eval_eq_ok.1 h with ⟨found, expression, hsplit, -, hw, rfl⟩ | ⟨-, hw, -⟩
    · obtain ⟨hascii, hfeed, hparts⟩ := (Assignment.split?_lineFor hname).1 hsplit
      cases hparts
      rw [htext] at hw
      cases hw
      exact ⟨hascii, hfeed, rfl, rfl⟩
    · obtain ⟨whole, hwhole, -⟩ := evalText_eq_ok.1 hw
      exact absurd Assignment.equals_mem_lineFor (Expr.equals_notMem_of_parse hwhole)
  · rintro ⟨hascii, hfeed, rfl, rfl⟩
    have hsplit := (Assignment.split?_lineFor hname).2 ⟨hascii, hfeed, rfl⟩
    exact eval_eq_ok.2 (Or.inl ⟨name, _, hsplit, hfree, htext, rfl⟩)

theorem run_line {text : String} (h : s.eval text = .ok (v, next)) :
    s.run [.line text] = next := by
  simp [run, step, afterLine, h]

/-- In every session that a run comes to, an expression with a value may stand for a name that is
given it. Where `name = text` succeeds (exactly for ASCII names and texts whose line does not end),
an expression that does not mention the answer has afterwards the value, or the error, that it had
before with the expression in place of the name; and after the text alone, any expression has the
one that it had before with the expression in place of the answer. -/
theorem names_transparent (mode : NumberMode) (steps : List Step) (text : String) (e₁ : Expr)
    (v : Value) :
    let s := (fresh mode).run steps
    Expr.parse text = .ok e₁ → s.evalExpr e₁ = .ok v →
    (∀ name, Token.IsName name → isReserved name = false →
      (∀ w next, s.eval (name ++ " = " ++ text) = .ok (w, next) →
        w = v ∧ ∀ e₂ : Expr, answerName ∉ e₂.names →
          next.evalExpr e₂ = s.evalExpr (e₂.replace name e₁)) ∧
      ((∃ w next, s.eval (name ++ " = " ++ text) = .ok (w, next)) ↔
        Assignment.IsName name.toList ∧ '\n' ∉ Text.trimFront text.toList)) ∧
    ∃ next, s.eval text = .ok (v, next) ∧
      ∀ e₂ : Expr, next.evalExpr e₂ = s.evalExpr (e₂.replace answerName e₁) := by
  intro s hparse hvalue
  have hsound : s.Sound := (sound_run (sound_fresh mode) steps).1
  have hproper : v.Proper s.mode := proper_evalText hsound (evalText_of_parse hparse hvalue)
  refine ⟨?_, { s with answer := v }, eval_of_parse hparse hvalue, ?_⟩
  · intro name hname hfree
    have hline : ∀ {w next}, s.eval (name ++ " = " ++ text) = .ok (w, next) ↔ _ :=
      eval_lineFor hname hfree hparse hvalue
    have hanswer := ne_answerName_of_free hfree
    refine ⟨?_, ?_⟩
    · intro w next h
      obtain ⟨-, -, rfl, rfl⟩ := hline.1 h
      refine ⟨rfl, ?_⟩
      intro e₂ hmentions
      refine evalExpr_replace rfl hvalue (lookup_insert_self hproper hanswer) ?_
      intro other hmem hother
      exact lookup_insert_of_ne (fun heq => hmentions (heq ▸ hmem)) hother
    · simp only [hline]
      simp
  · intro e₂
    exact evalExpr_replace rfl hvalue (lookup_answer hproper) fun other _ => lookup_answer_of_ne

/-- Where `x` and the answer are both `6`, their sum is assigned to `x`, which it mentions. -/
theorem names_transparent_sum :
    let six : Expr := .literal (.integer ⟨6, by decide, by decide⟩)
    let both : Expr := .binary .add (.variable "x") (.variable "ans")
    let s := (fresh .exact).run [.line ("x" ++ " = " ++ six.text)]
    let twelve : Value := .integer ⟨12, by decide, by decide⟩
    Expr.parse both.text = .ok both ∧ s.evalExpr both = .ok twelve ∧ Token.IsName "x" ∧
      isReserved "x" = false ∧
      ∃ next, s.eval ("x" ++ " = " ++ both.text) = .ok (twelve, next) ∧
        ∀ e₂ : Expr, answerName ∉ e₂.names →
          next.evalExpr e₂ = s.evalExpr (e₂.replace "x" both) := by
  intro six both s twelve
  have hx : Token.IsName "x" := ⟨'x', [], rfl, by decide, by decide⟩
  have hanswer : Token.IsName "ans" := ⟨'a', ['n', 's'], rfl, by decide, by decide⟩
  have hascii : Assignment.IsName "x".toList := ⟨'x', [], rfl, by decide, by decide⟩
  have hfree : isReserved "x" = false := by decide
  have hsix : Expr.parse six.text = .ok six :=
    Expr.parse_text (by decide : (0 : Int) ≤ 6) (by decide)
  have hboth : Expr.parse both.text = .ok both := Expr.parse_text ⟨hx, hanswer⟩ (by decide)
  have hline : (fresh .exact).eval ("x" ++ " = " ++ six.text) = .ok _ :=
    (eval_lineFor hx hfree hsix rfl).2 ⟨hascii, by decide, rfl, rfl⟩
  have hs : s = _ := run_line hline
  have hvalue : s.evalExpr both = .ok twelve := by
    rw [hs]
    rfl
  obtain ⟨hgiven, hsucceeds⟩ :=
    (names_transparent .exact _ both.text both twelve hboth hvalue).1 "x" hx hfree
  obtain ⟨w, next, hnext⟩ := hsucceeds.2 ⟨hascii, by decide⟩
  obtain ⟨rfl, hsame⟩ := hgiven w next hnext
  exact ⟨hboth, hvalue, hx, hfree, next, hnext, hsame⟩

end Session

end Abacus
