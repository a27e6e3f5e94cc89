import Abacus.Proofs.Expr.Acceptance
import Abacus.Proofs.Token.Lexeme

/-!
# Printing and reading back

The text of an expression writes out every pair of parentheses. It is read back as the same tree,
where the tree can be written down at all: literals have no sign of their own, and names are such as
the text of an expression can hold.
-/

namespace Abacus.Expr

/-- The expressions that can be written down. -/
def Printable : Expr → Prop
  | .literal (.integer n) => 0 ≤ n.val
  | .literal (.decimal _) => False
  | .variable name => Token.IsName name
  | .negate operand => operand.Printable
  | .binary _ lhs rhs => lhs.Printable ∧ rhs.Printable
  | .call function argument => Token.IsName function ∧ argument.Printable

/-- The kinds of the tokens that make up the text of an expression. -/
def kinds : Expr → List Token.Kind
  | .literal v => [.number v]
  | .variable name => [.name name]
  | .negate operand => .leftParen :: (.operator .subtract :: operand.kinds ++ [.rightParen])
  | .binary op lhs rhs => .leftParen :: (lhs.kinds ++ .operator op :: rhs.kinds ++ [.rightParen])
  | .call function argument => .name function :: .leftParen :: (argument.kinds ++ [.rightParen])

open Token in
theorem lexes_chars {e : Expr} (h : e.Printable) {rest : List Char} (hrest : Ends rest) :
    Lexes (e.chars ++ rest) e.kinds rest := by
  induction e generalizing rest with
  | literal v =>
      cases v with
      | integer n => exact lexes_integer h hrest
      | decimal x => exact h.elim
  | «variable» name => exact lexes_name h hrest
  | negate operand ih =>
      have hchars : (negate operand).chars ++ rest =
          '(' :: Operation.subtract.symbol :: (operand.chars ++ ')' :: rest) := by
        simp [chars, Operation.symbol]
      rw [hchars]
      exact ((lexes_operator .subtract _).trans (ih h (ends_rightParen rest))).parens
  | binary op lhs rhs ihl ihr =>
      have hchars : (binary op lhs rhs).chars ++ rest =
          '(' :: (lhs.chars ++ ' ' :: op.symbol :: ' ' :: (rhs.chars ++ ')' :: rest)) := by
        simp [chars]
      rw [hchars]
      have hlhs := ihl h.1 (ends_cons (op.symbol :: ' ' :: (rhs.chars ++ ')' :: rest)) (Or.inl rfl))
      have hrhs := ihr h.2 (ends_rightParen rest)
      have hbehind := (lexes_operator op _).trans ((lexes_space _).trans hrhs)
      have hinside := (hlhs.trans ((lexes_space _).trans hbehind)).parens
      rw [kinds]
      simpa using hinside
  | call function argument ih =>
      have hchars : (call function argument).chars ++ rest =
          function.toList ++ '(' :: (argument.chars ++ ')' :: rest) := by
        simp [chars]
      rw [hchars]
      have hargument := (ih h.2 (ends_rightParen rest)).parens
      exact (lexes_name h.1 (ends_cons _ (Or.inr (Or.inl rfl)))).trans hargument

theorem derives_binary (op : Operation) {front behind : List Token.Kind} {lhs rhs : Expr}
    {d₁ d₂ : Nat} (hlhs : Derives .primary front lhs d₁) (hrhs : Derives .primary behind rhs d₂) :
    ∃ depth, depth ≤ max d₁ (d₂ + 1) ∧
      Derives .sum (front ++ .operator op :: behind) (.binary op lhs rhs) depth := by
  have hl := hlhs.signed_of_primary
  have hr := hrhs.signed_of_primary
  cases op with
  | add => exact ⟨max d₁ d₂, by omega, .sum (by decide) hl.sum_of_signed (.ofSigned hr)⟩
  | subtract => exact ⟨max d₁ d₂, by omega, .sum (by decide) hl.sum_of_signed (.ofSigned hr)⟩
  | multiply => exact ⟨max d₁ d₂, by omega, .ofProduct (.product (by decide) (.ofSigned hl) hr)⟩
  | divide => exact ⟨max d₁ d₂, by omega, .ofProduct (.product (by decide) (.ofSigned hl) hr)⟩
  | remainder => exact ⟨max d₁ d₂, by omega, .ofProduct (.product (by decide) (.ofSigned hl) hr)⟩
  | power => exact ⟨max d₁ (d₂ + 1), by omega, .sum_of_signed (.ofPower (.power hlhs hr))⟩

/-- The text of an expression is derived as a primary part, and each level of the tree opens no more
than two nested parts. -/
theorem derives_kinds (e : Expr) :
    ∃ depth, Derives .primary e.kinds e depth ∧ depth + 2 ≤ 2 * e.height := by
  induction e with
  | literal v => exact ⟨0, .number v, Nat.le_refl 2⟩
  | «variable» name => exact ⟨0, .name name, Nat.le_refl 2⟩
  | negate operand ih =>
      obtain ⟨depth, hoperand, hdepth⟩ := ih
      refine ⟨depth + 2, .parens (.sum_of_signed (.minus hoperand.signed_of_primary)), ?_⟩
      rw [height]
      omega
  | call function argument ih =>
      obtain ⟨depth, hargument, hdepth⟩ := ih
      refine ⟨depth + 1, .call (.sum_of_signed hargument.signed_of_primary), ?_⟩
      rw [height]
      omega
  | binary op lhs rhs ihl ihr =>
      obtain ⟨d₁, hlhs, hd₁⟩ := ihl
      obtain ⟨d₂, hrhs, hd₂⟩ := ihr
      obtain ⟨depth, hdepth, hinside⟩ := derives_binary op hlhs hrhs
      refine ⟨depth + 1, .parens hinside, ?_⟩
      rw [height]
      omega

/-- A text is read as the expression that its tokens are derived as, unless that is too high or too
deep. -/
theorem parse_of_lexes {text : String} {tokenKinds : List Token.Kind} {e : Expr} {depth : Nat}
    (hlexes : Token.Lexes text.toList tokenKinds []) (hderives : Derives .sum tokenKinds e depth)
    (hheight : e.height ≤ maxDepth) (hdepth : depth ≤ maxDepth) : parse text = .ok e := by
  obtain ⟨tokens, behind, rfl, heq⟩ := hlexes 0
  have htokens : Token.tokenize text = .ok tokens := by
    rw [Token.tokenize, heq, Token.tokenizeFrom]
    simp [Except.map]
  have hparse : parse text = ofTokens tokens := by
    rw [parse, htokens]
    rfl
  rw [hparse, ofTokens_of_derives hderives, bounded_of_le hheight hdepth]

/-- A tree of at most half the greatest height opens few enough nested parts when it is printed. -/
theorem parse_text {e : Expr} (h : e.Printable) (hheight : e.height ≤ 128) :
    parse e.text = .ok e := by
  have hlexes : Token.Lexes e.text.toList e.kinds [] := by
    have hchars := lexes_chars h Token.ends_nil
    rwa [List.append_nil, ← String.toList_ofList (l := e.chars)] at hchars
  obtain ⟨depth, hderives, hdepth⟩ := derives_kinds e
  have hmax : maxDepth = 256 := rfl
  exact parse_of_lexes hlexes hderives.signed_of_primary.sum_of_signed (by omega) (by omega)

/-- The text of an expression of at most half the greatest height is read as that expression. So a
text that is read as such an expression is read in the same way once it is printed, and no two such
expressions have one text. -/
theorem parse_printed (e : Expr) (hprintable : e.Printable) (hheight : e.height ≤ 128) :
    parse e.text = .ok e ∧
      (∀ text, parse text = .ok e → parse e.text = parse text) ∧
      ∀ other : Expr, other.Printable → other.height ≤ 128 → other.text = e.text → other = e := by
  have hself := parse_text hprintable hheight
  refine ⟨hself, ?_, ?_⟩
  · intro text htext
    rw [hself, htext]
  · intro other hother hlimit hsame
    have hboth := parse_text hother hlimit
    rw [hsame, hself] at hboth
    cases hboth
    rfl

theorem parse_printed_power :
    let e : Expr := .binary .power (.negate (.literal (.integer Word.one)))
      (.call "f" (.variable "_1"))
    e.Printable ∧ e.height ≤ 128 ∧ parse e.text = .ok e := by
  intro e
  have hf : Token.IsName "f" := ⟨'f', [], rfl, by decide, by decide⟩
  have hvariable : Token.IsName "_1" := ⟨'_', ['1'], rfl, by decide, by decide +kernel⟩
  have hprintable : e.Printable := ⟨(by decide : (0 : Int) ≤ 1), hf, hvariable⟩
  have hheight : e.height ≤ 128 := by decide
  exact ⟨hprintable, hheight, (parse_printed e hprintable hheight).1⟩

end Abacus.Expr
