import Abacus.Proofs.Expr.Acceptance
import Abacus.Proofs.Token.Cutting

/-!
# Expressions by the kinds of their tokens

Whether some tokens are read, and as which tree, only depends on their kinds. So blanks in front of
a text make no difference, and a text with an equals sign is no expression.
-/

namespace Abacus.Expr

variable {text : String} {e : Expr}

theorem Derives.equals_notMem {part : Part} {kinds : List Token.Kind} {depth : Nat}
    (h : Derives part kinds e depth) : .equals ∉ kinds := by
  induction h <;> simp_all

theorem ofTokens_of_kinds {tokens others : List Token}
    (hkinds : others.map (·.kind) = tokens.map (·.kind)) (h : ofTokens tokens = .ok e) :
    ofTokens others = .ok e := by
  obtain ⟨depth, hderives, hheight, hdepth⟩ := derives_of_ofTokens h
  rw [← hkinds] at hderives
  rw [ofTokens_of_derives hderives, bounded_of_le hheight hdepth]

theorem parse_eq_ok :
    parse text = .ok e ↔ ∃ tokens, Token.Cut 0 text.toList tokens ∧ ofTokens tokens = .ok e := by
  rw [parse, bind_eq_ok]
  constructor
  · rintro ⟨tokens, htokens, h⟩
    exact ⟨tokens, Token.cut_of_tokenize htokens, h⟩
  · rintro ⟨tokens, hcut, h⟩
    exact ⟨tokens, hcut.tokenizeFrom_eq, h⟩

theorem parse_trimFront (h : parse text = .ok e) :
    parse (String.ofList (Text.trimFront text.toList)) = .ok e := by
  obtain ⟨tokens, hcut, h⟩ := parse_eq_ok.1 h
  obtain ⟨moved, hmoved, hkinds⟩ := hcut.exists_trimFront 0
  refine parse_eq_ok.2 ⟨moved, ?_, ofTokens_of_kinds hkinds h⟩
  rw [String.toList_ofList]
  exact hmoved

theorem equals_notMem_of_parse (h : parse text = .ok e) : '=' ∉ text.toList := by
  intro hmem
  obtain ⟨tokens, hcut, h⟩ := parse_eq_ok.1 h
  obtain ⟨depth, hderives, -⟩ := derives_of_ofTokens h
  exact hderives.equals_notMem (hcut.equals_mem hmem)

end Abacus.Expr
