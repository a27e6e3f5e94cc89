import Abacus.Proofs.Expr.Acceptance
import Abacus.Proofs.Token.Cutting
import Abacus.Proofs.Value.Finite

/-!
# The literals of an expression

The literals of an expression that was read are the values of its number tokens, and those are
finite.
-/

namespace Abacus

namespace Token

variable {tokens : List Token} {v : Value}

theorem ofSymbol?_ne_number (c : Char) : Kind.ofSymbol? c ≠ some (.number v) := by
  unfold Kind.ofSymbol?
  split <;> simp

theorem isFinite_front {position : ℕ} {c : Char} {rest lexeme : List Char}
    (h : front position c rest = .ok (.number v, lexeme)) : v.IsFinite := by
  rcases front_cases h with ⟨-, -, w, hvalue, hkind⟩ | ⟨-, -, -, hkind⟩ | ⟨-, -, -, hsymbol⟩
  · cases hkind
    exact Value.isFinite_of_ofNumeral? hvalue
  · cases hkind
  · exact absurd hsymbol (ofSymbol?_ne_number c)

theorem Cut.isFinite {cs : List Char} {position : ℕ} (h : Cut position cs tokens)
    (hv : .number v ∈ tokens.map (·.kind)) : v.IsFinite := by
  induction h with
  | nil position => cases hv
  | blank _ _ ih => exact ih hv
  | token _ hfront _ ih =>
      rcases List.mem_cons.1 hv with rfl | hv
      · exact isFinite_front hfront
      · exact ih hv

end Token

namespace Expr

def literals : Expr → List Value
  | .literal v => [v]
  | .variable _ => []
  | .negate operand => operand.literals
  | .binary _ lhs rhs => lhs.literals ++ rhs.literals
  | .call _ argument => argument.literals

theorem number_mem_binary {op : Operation} {lhs rhs : Expr} {front behind : List Token.Kind}
    {between : Token.Kind} {v : Value} (hl : v ∈ lhs.literals → .number v ∈ front)
    (hr : v ∈ rhs.literals → .number v ∈ behind) (hv : v ∈ (binary op lhs rhs).literals) :
    .number v ∈ front ++ between :: behind := by
  rcases List.mem_append.1 hv with hv | hv
  · exact List.mem_append_left _ (hl hv)
  · exact List.mem_append_right _ (List.mem_cons_of_mem _ (hr hv))

theorem Derives.number_mem {part : Part} {kinds : List Token.Kind} {e : Expr} {depth : ℕ}
    (h : Derives part kinds e depth) {v : Value} (hv : v ∈ e.literals) : .number v ∈ kinds := by
  induction h with
  | ofProduct _ ih => exact ih hv
  | ofSigned _ ih => exact ih hv
  | ofPower _ ih => exact ih hv
  | ofPrimary _ ih => exact ih hv
  | plus _ ih => exact List.mem_cons_of_mem _ (ih hv)
  | minus _ ih => exact List.mem_cons_of_mem _ (ih hv)
  | sum _ _ _ ihl ihr => exact number_mem_binary ihl ihr hv
  | product _ _ _ ihl ihr => exact number_mem_binary ihl ihr hv
  | power _ _ ihl ihr => exact number_mem_binary ihl ihr hv
  | number w =>
      obtain rfl := List.mem_singleton.1 hv
      exact List.mem_singleton_self _
  | name n => cases hv
  | call _ ih => simp [ih hv]
  | parens _ ih => simp [ih hv]

theorem isFinite_literals {text : String} {e : Expr} (h : parse text = .ok e) {v : Value}
    (hv : v ∈ e.literals) : v.IsFinite := by
  obtain ⟨tokens, htokens, h⟩ := bind_eq_ok.1 h
  obtain ⟨depth, hderives, -⟩ := derives_of_ofTokens h
  exact (Token.cut_of_tokenize htokens).isFinite (hderives.number_mem hv)

end Expr

end Abacus
