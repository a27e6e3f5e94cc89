import Abacus.Proofs.Expr.Viability
import Abacus.Proofs.Token.Separation

/-!
# Expressions behind blanks

The rules of the parser go by the kinds of the tokens and pass their positions on. So with blanks
around it a text is read as the same tree, or refused for the same fault, whose position then counts
the blanks in front as well. This is stated for readings in general, and then checked rule by rule.
-/

namespace Abacus.Expr

/-- What a reading gives, behind a text of `n` bytes. -/
def shifted {α : Type} (n : Nat) :
    Except SyntaxError (α × List Token) → Except SyntaxError (α × List Token)
  | .ok (a, rest) => .ok (a, rest.map (Token.moved n))
  | .error fault => .error (fault.moved n)

/-- A reading does with some tokens what it does with the same tokens elsewhere. -/
def Uniform {α : Type} (reading : Reading α) (tokens : List Token) : Prop :=
  ∀ n, reading (tokens.map (Token.moved n)) = shifted n (reading tokens)

section Readings

variable {α β : Type} {reading : Reading α} {next : α → Reading β}
variable {tokens rest : List Token}

/-- A token is taken off the front for its kind alone. -/
theorem uniform_cons (token : Token) (inner : Reading α)
    (hread : ∀ position other, other.map (·.kind) = rest.map (·.kind) →
      reading (⟨token.kind, position⟩ :: other) = inner other)
    (h : Uniform inner rest) : Uniform reading (token :: rest) := by
  intro n
  rw [List.map_cons, Token.moved, hread _ _ (Token.map_kind_moved n rest), h n,
    hread token.position rest rfl]

theorem Uniform.andThen (h : Uniform reading tokens)
    (hnext : ∀ a rest, reading tokens = .ok (a, rest) → Uniform (next a) rest) :
    Uniform (reading.andThen next) tokens := by
  intro n
  rw [Reading.andThen, Reading.andThen, h n]
  cases hread : reading tokens with
  | error fault => rfl
  | ok result => exact hnext result.1 result.2 hread n

theorem uniform_closing (a : α) (tokens : List Token) : Uniform (closing a) tokens := by
  intro n
  rcases tokens with _ | ⟨⟨kind, position⟩, rest⟩
  · rfl
  · cases kind <;> rfl

theorem uniform_checked (limit : Nat) (e : Expr) (tokens : List Token) :
    Uniform (checked limit e) tokens := by
  intro n
  by_cases hheight : e.height ≤ limit
  · rw [checked, checked, checkHeight_of_le hheight]
    rfl
  · rw [checked, checked, checkHeight_of_lt (Nat.lt_of_not_le hheight)]
    rfl

end Readings

/-! ## The rules -/

/-- The nested rules do the same with the same tokens elsewhere. -/
structure NestedUniform (nested : Rules) : Prop where
  signed : ∀ tokens, Uniform (read nested.signed) tokens
  sum : ∀ tokens, Uniform (read nested.sum) tokens

section Rules

variable {nested : Rules}

/-- Tokens of the same kinds are the same as far as it matters whether one of a kind comes next. -/
theorem ne_cons_of_kinds {tokens other : List Token} {kind : Token.Kind}
    (hkinds : other.map (·.kind) = tokens.map (·.kind))
    (h : ¬∃ position rest, tokens = ⟨kind, position⟩ :: rest) (position : Nat)
    (rest : List Token) : other ≠ ⟨kind, position⟩ :: rest := by
  rintro rfl
  obtain ⟨⟨_, found⟩, behind, rfl, rfl, -⟩ := List.map_eq_cons_iff.1 hkinds.symm
  exact h ⟨found, behind, rfl⟩

theorem uniform_inCall (hn : NestedUniform nested) (function : String) (tokens : List Token) :
    Uniform (inCall nested function) tokens :=
  (hn.sum tokens).andThen fun argument behind _ =>
    (uniform_closing argument behind).andThen fun _ rest _ => uniform_checked _ _ rest

theorem uniform_primary (hn : NestedUniform nested) (tokens : List Token) :
    Uniform (read (primary nested)) tokens := by
  rcases tokens with _ | ⟨⟨kind, position⟩, rest⟩
  · exact fun _ => rfl
  cases kind with
  | number v => exact fun _ => rfl
  | leftParen =>
      have hinner : Uniform (Reading.andThen (read nested.sum) closing) rest :=
        (hn.sum rest).andThen fun inner behind _ => uniform_closing inner behind
      exact uniform_cons _ _ (fun _ _ _ => read_primary_parens) hinner
  | name name =>
      by_cases hcall : ∃ opened more, rest = ⟨.leftParen, opened⟩ :: more
      · obtain ⟨opened, more, rfl⟩ := hcall
        intro n
        have hmoved : read (primary nested)
            (⟨.name name, n + position⟩ :: ⟨.leftParen, n + opened⟩ :: more.map (Token.moved n)) =
              inCall nested name (more.map (Token.moved n)) :=
          read_primary_inCall name _ _ _
        rw [read_primary_inCall, ← uniform_inCall hn name more n]
        exact hmoved
      · refine uniform_cons _ (fun other => .ok (.variable name, other)) ?_ fun _ => rfl
        intro position other hkinds
        exact read_primary_name name (ne_cons_of_kinds hkinds hcall)
  | _ => exact fun _ => rfl

theorem uniform_exponent (hn : NestedUniform nested) (base : Expr) (tokens : List Token) :
    Uniform (readExponent nested base) tokens := by
  by_cases hpower : ∃ position rest, tokens = ⟨.operator .power, position⟩ :: rest
  · obtain ⟨position, rest, rfl⟩ := hpower
    let raised (exponent : Expr) : Reading Expr :=
      checked nested.limit (.binary .power base exponent)
    have hraised : Uniform (Reading.andThen (read nested.signed) raised) rest :=
      (hn.signed rest).andThen fun _ behind _ => uniform_checked _ _ behind
    exact uniform_cons _ _ (fun _ _ _ => rfl) hraised
  · intro n
    have hmoved := ne_cons_of_kinds (Token.map_kind_moved n tokens) hpower
    rw [readExponent_stop base hmoved, readExponent_stop base (ne_cons_of_kinds rfl hpower)]
    rfl

theorem uniform_power (hn : NestedUniform nested) (tokens : List Token) :
    Uniform (read (power nested)) tokens := by
  intro n
  rw [read_power, read_power]
  exact (uniform_primary hn tokens).andThen (fun base rest _ => uniform_exponent hn base rest) n

theorem uniform_signed (hn : NestedUniform nested) (tokens : List Token) :
    Uniform (read (signed nested)) tokens := by
  by_cases hminus : ∃ position rest, tokens = ⟨.operator .subtract, position⟩ :: rest
  · obtain ⟨position, rest, rfl⟩ := hminus
    let negated (operand : Expr) : Reading Expr := checked nested.limit (.negate operand)
    have hnegated : Uniform (Reading.andThen (read nested.signed) negated) rest :=
      (hn.signed rest).andThen fun _ behind _ => uniform_checked _ _ behind
    exact uniform_cons _ _ (fun _ _ _ => read_signed_minus) hnegated
  by_cases hplus : ∃ position rest, tokens = ⟨.operator .add, position⟩ :: rest
  · obtain ⟨position, rest, rfl⟩ := hplus
    exact uniform_cons _ _ (fun _ _ _ => read_signed_plus) (hn.signed rest)
  have hpower : ∀ other : List Token, other.map (·.kind) = tokens.map (·.kind) →
      read (signed nested) other = read (power nested) other := by
    intro other hkinds
    apply read_signed_power
    intro op hop
    simp only [List.mem_cons, List.not_mem_nil, or_false] at hop
    rcases hop with rfl | rfl
    · exact ne_cons_of_kinds hkinds hplus
    · exact ne_cons_of_kinds hkinds hminus
  intro n
  rw [hpower _ (Token.map_kind_moved n tokens), hpower tokens rfl]
  exact uniform_power hn tokens n

theorem length_of_read {rule : Rule} {tokens rest : List Token} {e : Expr}
    (h : read rule tokens = .ok (e, rest)) : rest.length < tokens.length := by
  obtain ⟨parsed, -, hparsed⟩ := map_eq_ok.1 h
  cases hparsed
  exact parsed.shorter

variable {limit : Nat} {ops : List Operation} {operand : Rule}

/-- The induction is on the tokens behind the left operand. -/
theorem uniform_readFrom (hoperand : ∀ tokens, Uniform (read operand) tokens) (lhs : Expr)
    (tokens : List Token) : Uniform (readFrom limit ops operand lhs) tokens := by
  induction hlength : tokens.length using Nat.strongRecOn generalizing tokens lhs with
  | ind length ih =>
      by_cases hop : ∃ op ∈ ops, ∃ position rest, tokens = ⟨.operator op, position⟩ :: rest
      · obtain ⟨op, hop, position, rest, rfl⟩ := hop
        have honward : Uniform (onward limit ops operand op lhs) rest := by
          refine (hoperand rest).andThen fun rhs behind hrhs => ?_
          refine (uniform_checked _ _ behind).andThen fun e left hchecked => ?_
          have hleft : left = behind := by
            obtain ⟨_, -, hsame⟩ := bind_eq_ok.1 hchecked
            cases hsame
            rfl
          subst hleft
          have hshorter : left.length < length := by
            rw [← hlength]
            exact Nat.lt_succ_of_lt (length_of_read hrhs)
          exact ih left.length hshorter e left rfl
        refine uniform_cons _ _ ?_ honward
        exact fun position other _ => readFrom_onward hop lhs position other
      · have hstop : ∀ other : List Token, other.map (·.kind) = tokens.map (·.kind) →
            readFrom limit ops operand lhs other = .ok (lhs, other) := by
          intro other hkinds
          apply readFrom_stop
          intro op hmem
          apply ne_cons_of_kinds hkinds
          exact fun ⟨position, rest, heq⟩ => hop ⟨op, hmem, position, rest, heq⟩
        intro n
        rw [hstop _ (Token.map_kind_moved n tokens), hstop tokens rfl]
        rfl

theorem uniform_chain (hoperand : ∀ tokens, Uniform (read operand) tokens) (tokens : List Token) :
    Uniform (read (chain limit ops operand)) tokens := by
  intro n
  rw [read_chain, read_chain]
  exact (hoperand tokens).andThen (fun lhs rest _ => uniform_readFrom hoperand lhs rest) n

theorem uniform_sum (hn : NestedUniform nested) (tokens : List Token) :
    Uniform (read (sum nested)) tokens :=
  uniform_chain (uniform_chain (uniform_signed hn)) tokens

end Rules

theorem nestedUniform_rulesOfDepth (limit depth : Nat) :
    NestedUniform (rulesOfDepth limit depth) := by
  induction depth with
  | zero => exact ⟨fun _ _ => rfl, fun _ _ => rfl⟩
  | succ depth ih => exact ⟨uniform_signed ih, uniform_sum ih⟩

/-! ## Whole expressions -/

theorem ofTokens_moved (n : Nat) (tokens : List Token) :
    ofTokens (tokens.map (Token.moved n)) = (ofTokens tokens).mapError (SyntaxError.moved n) := by
  cases tokens with
  | nil => rfl
  | cons token more =>
      have hsum := uniform_sum (nestedUniform_rulesOfDepth maxDepth maxDepth) (token :: more) n
      rw [ofTokens_eq (List.cons_ne_nil _ _), ofTokens_eq (by simp), hsum]
      cases read (sum (rulesOfDepth maxDepth maxDepth)) (token :: more) with
      | error fault => rfl
      | ok result =>
          obtain ⟨e, rest⟩ := result
          cases rest <;> rfl

theorem parse_before_blanks {back : String} (hback : Text.isBlankText back = true)
    (text : String) : parse (text ++ back) = parse text := by
  rw [parse, parse, Token.tokenize, Token.tokenize, String.toList_append,
    Token.tokenizeFrom_before_blanks hback]

/-- Of the blanks around an expression, those in front of it move its faults. -/
theorem parse_between {front back : String} (hfront : Text.isBlankText front = true)
    (hback : Text.isBlankText back = true) (text : String) :
    parse (front ++ text ++ back) =
      (parse text).mapError (SyntaxError.moved front.utf8ByteSize) := by
  have hall := Token.tokenize_around hfront hback text
  rw [Token.byteWidth_eq, String.ofList_toList] at hall
  rw [parse, parse, hall]
  cases Token.tokenize text with
  | error fault => rfl
  | ok tokens => exact ofTokens_moved _ tokens

end Abacus.Expr
