import Abacus.Proofs.Expr.Completeness
import Abacus.Proofs.Expr.Soundness

/-!
# Which texts are expressions

The tokens of a text are read as an expression exactly if the grammar derives them within the
limits, and then as the tree that the grammar gives. The grammar gives no more than one: were there
two, the rules would read both of them under limits that are wide enough.
-/

namespace Abacus.Expr

theorem Derives.unique {part : Part} {kinds : List Token.Kind} {e₁ e₂ : Expr} {d₁ d₂ : Nat}
    (h₁ : Derives part kinds e₁ d₁) (h₂ : Derives part kinds e₂ d₂) : e₁ = e₂ ∧ d₁ = d₂ := by
  let limit := max e₁.height e₂.height
  let tokens : List Token := kinds.map fun kind => ⟨kind, 0⟩
  have hlimit : 0 < limit := Nat.lt_of_lt_of_le (height_pos e₁) (Nat.le_max_left _ _)
  have hkinds : tokens.map (·.kind) = kinds := by
    simp [tokens, Function.comp_def]
  have hboth : ∀ depth, bounded limit depth e₁ d₁ (.ok (e₁, ([] : List Token))) =
      bounded limit depth e₂ d₂ (.ok (e₂, [])) := by
    intro depth
    have hread₁ := reads_of_derives hlimit h₁ tokens hkinds depth [] (Clear.nil _)
    have hread₂ := reads_of_derives hlimit h₂ tokens hkinds depth [] (Clear.nil _)
    rw [resume_of_clear (Clear.nil _)] at hread₁ hread₂
    exact hread₁.symm.trans hread₂
  have hsame₁ := hboth d₁
  rw [bounded_of_le (Nat.le_max_left _ _) (Nat.le_refl d₁)] at hsame₁
  obtain ⟨⟨-, hd₂₁⟩, htree⟩ := bounded_eq_ok.1 hsame₁.symm
  have hsame₂ := hboth d₂
  rw [bounded_of_le (Nat.le_max_right _ _) (Nat.le_refl d₂)] at hsame₂
  obtain ⟨⟨-, hd₁₂⟩, -⟩ := bounded_eq_ok.1 hsame₂
  simp only [Except.ok.injEq, Prod.mk.injEq] at htree
  exact ⟨htree.1.symm, Nat.le_antisymm hd₁₂ hd₂₁⟩

section Tokens

variable {tokens : List Token} {e : Expr} {depth : Nat}

theorem ofTokens_eq (h : tokens ≠ []) :
    ofTokens tokens = (do
      let (e, rest) ← read (sum (rulesOfDepth maxDepth maxDepth)) tokens
      match rest with
      | [] => .ok e
      | token :: _ => .error (.unexpectedToken token)) := by
  have hempty : tokens.isEmpty = false := by
    simpa using h
  unfold ofTokens read
  simp only [hempty, Bool.false_eq_true, if_false]
  cases sum (rulesOfDepth maxDepth maxDepth) tokens with
  | error _ => rfl
  | ok parsed =>
      obtain ⟨e, rest, shorter⟩ := parsed
      cases rest <;> rfl

/-- What the grammar derives is read, or found to exceed the limits. -/
theorem ofTokens_of_derives (h : Derives .sum (tokens.map (·.kind)) e depth) :
    ofTokens tokens = bounded maxDepth maxDepth e depth (.ok e) := by
  have hne : tokens ≠ [] := by
    rintro rfl
    exact h.ne_nil rfl
  have hread := reads_of_derives (by decide : 0 < maxDepth) h tokens rfl maxDepth [] (Clear.nil _)
  have hread : read (sum (rulesOfDepth maxDepth maxDepth)) tokens =
      bounded maxDepth maxDepth e depth (.ok (e, [])) := by
    rw [resume_of_clear (Clear.nil _), List.append_nil] at hread
    exact hread
  rw [ofTokens_eq hne, hread, bounded_bind]
  rfl

theorem derives_of_ofTokens (h : ofTokens tokens = .ok e) :
    ∃ depth, Derives .sum (tokens.map (·.kind)) e depth ∧ e.height ≤ maxDepth ∧
      depth ≤ maxDepth := by
  have hne : tokens ≠ [] := by
    rintro rfl
    cases h
  rw [ofTokens_eq hne] at h
  obtain ⟨⟨whole, rest⟩, hread, hrest⟩ := bind_eq_ok.1 h
  have hsound := nestedSound_rulesOfDepth (by decide : 0 < maxDepth) maxDepth
  obtain ⟨front, depth, htokens, hderives, hheight, hdepth⟩ := consumes_sum hsound hread
  cases rest with
  | cons token more => cases hrest
  | nil =>
      cases hrest
      rw [List.append_nil] at htokens
      subst htokens
      exact ⟨depth, hderives, hheight, hdepth⟩

end Tokens

/-- The parser accepts exactly the grammar. A text without tokens is empty. Any other text that can
be cut into tokens is read as `e` exactly if the grammar derives `e` from its tokens, in a tree and
with a depth of no more than 256; a text that is derived beyond these limits is reported as too
deep. No text has a second tree. -/
theorem parse_characterized (text : String) :
    match Token.tokenize text with
    | .error err => parse text = .error err
    | .ok [] => parse text = .error .empty
    | .ok tokens =>
      (∀ e, parse text = .ok e ↔ ∃ depth, Derives .sum (tokens.map (·.kind)) e depth ∧
        e.height ≤ 256 ∧ depth ≤ 256) ∧
      (∀ e depth, Derives .sum (tokens.map (·.kind)) e depth → 256 < e.height ∨ 256 < depth →
        parse text = .error (.tooDeep 256)) ∧
      (∀ e₁ e₂ d₁ d₂, Derives .sum (tokens.map (·.kind)) e₁ d₁ →
        Derives .sum (tokens.map (·.kind)) e₂ d₂ → e₁ = e₂ ∧ d₁ = d₂) := by
  unfold parse
  cases htokens : Token.tokenize text with
  | error err => rfl
  | ok tokens =>
      have hparse : ((.ok tokens : Except SyntaxError (List Token)) >>= fun read => ofTokens read) =
          ofTokens tokens := rfl
      cases tokens with
      | nil => rfl
      | cons token more =>
          simp only [hparse]
          refine ⟨?_, ?_, ?_⟩
          · intro e
            constructor
            · exact derives_of_ofTokens
            · rintro ⟨depth, hderives, hheight, hdepth⟩
              exact (ofTokens_of_derives hderives).trans (bounded_of_le hheight hdepth)
          · intro e depth hderives hexceeds
            exact (ofTokens_of_derives hderives).trans (bounded_of_exceeds hexceeds)
          · intro e₁ e₂ d₁ d₂ h₁ h₂
            exact h₁.unique h₂

end Abacus.Expr
