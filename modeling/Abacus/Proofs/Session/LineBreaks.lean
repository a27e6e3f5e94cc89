import Abacus.Proofs.Session.Failures
import Abacus.Proofs.Session.Substitution

/-!
# Assignments and line breaks

What a text gives on a line of its own, it also gives as the expression of an assignment, unless it
goes on over a line break. Such a line is not taken apart: it is read as an expression, and refused
at its equals sign.
-/

namespace Abacus

namespace Expr

variable {tokens behind : List Token} {token : Token} {e : Expr} {depth : Nat}

/-- An expression ends where a token stands that nothing goes on with, and that token is refused. -/
theorem ofTokens_of_derives_append (h : Derives .sum (tokens.map (·.kind)) e depth)
    (hheight : e.height ≤ maxDepth) (hdepth : depth ≤ maxDepth)
    (hclear : Clear Operation.all (token :: behind)) :
    ofTokens (tokens ++ token :: behind) = .error (.unexpectedToken token) := by
  have hread := reads_of_derives (by decide : 0 < maxDepth) h tokens rfl maxDepth _
    (hclear.mono (by decide))
  rw [resume_of_clear hclear, bounded_of_le hheight hdepth] at hread
  have hread : read (sum (rulesOfDepth maxDepth maxDepth)) (tokens ++ token :: behind) =
      .ok (e, token :: behind) := hread
  rw [ofTokens_eq (by simp), hread]
  rfl

theorem clear_equals (ops : List Operation) (position : Nat) (rest : List Token) :
    Clear ops (⟨.equals, position⟩ :: rest) := by
  constructor <;> simp

end Expr

section Lines

variable {s : Session} {name text : String} {tokens : List Token}

/-- The first tokens of an assignment are its name and its equals sign. -/
theorem Token.exists_cut_lineFor (hname : IsName name) (hcut : Cut 0 text.toList tokens) :
    ∃ moved, Cut 0 (Assignment.lineFor name text).toList
      (⟨.name name, 0⟩ :: ⟨.equals, byteWidth name.toList + 1⟩ :: moved) := by
  obtain ⟨c, more, hchars, hstart, hmore⟩ := hname
  have hback : String.ofList (c :: more) = name := by
    rw [← hchars, String.ofList_toList]
  have hspace : Text.isBlank ' ' = true := by decide
  obtain ⟨moved, hmoved, -⟩ :=
    hcut.exists_at (byteWidth (c :: more) + ' '.utf8Size + byteWidth ['='] + ' '.utf8Size)
  have hequals : ∀ position rest, front position '=' ([] ++ rest) = .ok (.equals, ['=']) :=
    fun _ _ => rfl
  have hends : ∀ d ∈ (' ' :: '=' :: ' ' :: text.toList).head?, isNameChar d = false := by
    intro d hd
    obtain rfl := Option.some.inj hd
    decide
  have hfront : front 0 c (more ++ ' ' :: '=' :: ' ' :: text.toList) =
      .ok (.name name, c :: more) := by
    rw [front_name hstart hmore hends, hback]
  rw [Assignment.toList_lineFor, hchars]
  refine ⟨moved, .token (isBlank_of_isNameStart hstart) hfront ?_⟩
  rw [Nat.zero_add]
  exact .blank hspace (.token (by decide) (hequals _ _) (.blank hspace hmoved))

/-- As an expression, an assignment is refused at its equals sign. -/
theorem Expr.parse_lineFor (hname : Token.IsName name) (hcut : Token.Cut 0 text.toList tokens) :
    Expr.parse (Assignment.lineFor name text) =
      .error (.unexpectedToken ⟨.equals, Token.byteWidth name.toList + 1⟩) := by
  obtain ⟨moved, hmoved⟩ := Token.exists_cut_lineFor hname hcut
  have hderives : Derives .sum [.name name] (.variable name) 0 :=
    (Derives.name name).signed_of_primary.sum_of_signed
  have hheight : (Expr.variable name).height ≤ maxDepth := Nat.succ_le_succ (Nat.zero_le 255)
  have hrefused :
      ofTokens ([⟨.name name, 0⟩] ++ ⟨.equals, Token.byteWidth name.toList + 1⟩ :: moved) = _ :=
    ofTokens_of_derives_append hderives hheight (by decide) (clear_equals Operation.all _ moved)
  rw [parse, Token.tokenize, hmoved.tokenizeFrom_eq]
  exact hrefused

theorem Session.eval_lineFor_of_lineBreak {e : Expr} (hname : Token.IsName name)
    (hparse : Expr.parse text = .ok e) (hbreak : '\n' ∈ Text.trimFront text.toList) :
    s.eval (Assignment.lineFor name text) =
      .error (.syntaxError
        (.unexpectedToken ⟨.equals, Token.byteWidth name.toList + 1⟩)) := by
  have hsplit : Assignment.split? (Assignment.lineFor name text) = none := by
    refine Option.eq_none_iff_forall_not_mem.2 ?_
    intro parts hparts
    exact ((Assignment.split?_lineFor hname).1 hparts).2.1 hbreak
  obtain ⟨tokens, hcut, -⟩ := Expr.parse_eq_ok.1 hparse
  rw [eval, hsplit]
  simp only [evalText, Expr.parse_lineFor hname hcut]
  rfl

end Lines

namespace Session

/-- Where a text has a value on a line of its own, assigning it to an ASCII name that is not
reserved gives the same value, makes it the answer, and binds that name alone to it, whatever blanks
stand in the text, unless a line ends in it behind its first blanks. With such a line break the
assignment is refused at its equals sign. -/
theorem assigned_unless_broken (s : Session) (name text : String) (e : Expr) (v : Value)
    (hname : Assignment.IsName name.toList) (hfree : isReserved name = false)
    (hparse : Expr.parse text = .ok e) (hvalue : (s.eval text).map (·.1) = .ok v) :
    ('\n' ∉ Text.trimFront text.toList →
      ∃ next, s.eval (name ++ " = " ++ text) = .ok (v, next) ∧ next.answer = v ∧
        next.bindings.find? name = some v ∧
        ∀ other, other ≠ name → next.bindings.find? other = s.bindings.find? other) ∧
    ('\n' ∈ Text.trimFront text.toList →
      s.eval (name ++ " = " ++ text) =
        .error (.syntaxError
          (.unexpectedToken ⟨.equals, Token.byteWidth name.toList + 1⟩))) := by
  have hvalue : s.evalExpr e = .ok v := by
    rw [eval_expression hparse] at hvalue
    obtain ⟨_, hresult, rfl⟩ := map_eq_ok.1 hvalue
    obtain ⟨w, hw, hsame⟩ := map_eq_ok.1 hresult
    cases hsame
    exact hw
  constructor
  · intro hline
    have heval : s.eval (Assignment.lineFor name text) = _ :=
      (eval_lineFor hname.token hfree hparse hvalue).2 ⟨hname, hline, rfl, rfl⟩
    refine ⟨_, heval, rfl, Bindings.find?_insert_self .., ?_⟩
    intro other hother
    exact Bindings.find?_insert_of_ne _ hother v
  · exact eval_lineFor_of_lineBreak hname.token hparse

/-- A sum that goes on in a second line is `3` on its own, and is not assigned to `x`. -/
theorem assigned_unless_broken_sum :
    let s := fresh .exact
    let one : Value := .integer ⟨1, by decide, by decide⟩
    let two : Value := .integer ⟨2, by decide, by decide⟩
    let three : Value := .integer ⟨3, by decide, by decide⟩
    let sum : Expr := .binary .add (.literal one) (.literal two)
    Assignment.IsName "x".toList ∧ isReserved "x" = false ∧ Expr.parse "1 +\n2" = .ok sum ∧
      (s.eval "1 +\n2").map (·.1) = .ok three ∧
      s.eval ("x" ++ " = " ++ "1 +\n2") =
        .error (.syntaxError (.unexpectedToken ⟨.equals, 2⟩)) := by
  intro s one two three sum
  have hname : Assignment.IsName "x".toList := ⟨'x', [], rfl, by decide, by decide⟩
  have hfree : isReserved "x" = false := by decide
  have hone : Token.Lexes ('1' :: [' ', '+', '\n', '2']) [.number one] [' ', '+', '\n', '2'] :=
    Token.lexes_integer (by decide) (Token.ends_cons _ (Or.inl rfl))
  have htwo : Token.Lexes ['2'] [.number two] [] :=
    Token.lexes_integer (by decide) Token.ends_nil
  have hlexes : Token.Lexes "1 +\n2".toList [.number one, .operator .add, .number two] [] :=
    hone.trans ((Token.lexes_space _).trans ((Token.lexes_operator .add _).trans
      ((Token.lexes_blank _ (by decide)).trans htwo)))
  have hderives : Expr.Derives .sum ([.number one] ++ .operator .add :: [.number two]) sum 0 :=
    .sum (by decide) (Expr.Derives.number one).signed_of_primary.sum_of_signed
      (.ofSigned (Expr.Derives.number two).signed_of_primary)
  have hparse : Expr.parse "1 +\n2" = .ok sum :=
    Expr.parse_of_lexes hlexes hderives (by decide) (by decide)
  have hvalue : (s.eval "1 +\n2").map (·.1) = .ok three := by
    rw [eval_expression hparse]
    rfl
  have hboth := assigned_unless_broken s "x" "1 +\n2" sum three hname hfree hparse hvalue
  exact ⟨hname, hfree, hparse, hvalue, hboth.2 (by decide)⟩

end Session

end Abacus
