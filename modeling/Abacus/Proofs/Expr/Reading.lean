import Abacus.Proofs.Except
import Abacus.Proofs.Expr.Grammar

/-!
# What the rules read

One equation for each way in which a rule of the parser goes on, without the proofs that the rules
carry along. Nothing behind this file looks into the rules.
-/

namespace Abacus.Expr

/-- What a rule reads at the front of some tokens, and the tokens behind it. -/
def read (rule : Rule) (tokens : List Token) : Except SyntaxError (Expr × List Token) :=
  (rule tokens).map fun parsed => (parsed.expr, parsed.rest)

/-- What a chain of operations reads behind its left operand, and the tokens behind it. -/
def readFrom (limit : Nat) (ops : List Operation) (operand : Rule) (lhs : Expr)
    (tokens : List Token) : Except SyntaxError (Expr × List Token) :=
  (chainFrom limit ops operand lhs tokens).map fun (e, behind) => (e, behind.1)

/-- What a power reads behind its base, and the tokens behind it. -/
def readExponent (nested : Rules) (base : Expr) :
    List Token → Except SyntaxError (Expr × List Token)
  | ⟨.operator .power, _⟩ :: rest => do
    let (exponent, behind) ← read nested.signed rest
    let e ← checkHeight nested.limit (.binary .power base exponent)
    .ok (e, behind)
  | behind => .ok (base, behind)

/-- Some tokens without the closing parenthesis at their front. -/
def afterParen (tokens : List Token) : Except SyntaxError (List Token) :=
  (closeParen tokens).map (·.1)

theorem checkHeight_of_le {limit : Nat} {e : Expr} (h : e.height ≤ limit) :
    checkHeight limit e = .ok e :=
  if_pos h

theorem checkHeight_eq_ok {limit : Nat} {e whole : Expr} :
    checkHeight limit whole = .ok e ↔ whole.height ≤ limit ∧ whole = e := by
  by_cases h : whole.height ≤ limit
  · simp [checkHeight_of_le h, h]
  · simp [checkHeight, h]

theorem checkHeight_of_lt {limit : Nat} {e : Expr} (h : limit < e.height) :
    checkHeight limit e = .error (.tooDeep limit) :=
  if_neg (Nat.not_le_of_lt h)

variable {nested : Rules} {rest tokens : List Token} {position : Nat}

/-! ## Primaries -/

@[simp] theorem afterParen_rightParen :
    afterParen (⟨.rightParen, position⟩ :: rest) = .ok rest := rfl

theorem afterParen_eq_ok {behind : List Token} (h : afterParen tokens = .ok behind) :
    ∃ position, tokens = ⟨.rightParen, position⟩ :: behind := by
  unfold afterParen closeParen at h
  split at h
  · simp [Except.map] at h
  · next position rest =>
      simp only [Except.map, Except.ok.injEq] at h
      exact ⟨position, by rw [h]⟩
  · simp [Except.map] at h

@[simp] theorem read_primary_number (v : Value) :
    read (primary nested) (⟨.number v, position⟩ :: rest) = .ok (.literal v, rest) := rfl

theorem read_primary_call (function : String) {opened : Nat} :
    read (primary nested) (⟨.name function, position⟩ :: ⟨.leftParen, opened⟩ :: rest) = (do
      let (argument, tokens) ← read nested.sum rest
      let behind ← afterParen tokens
      let e ← checkHeight nested.limit (.call function argument)
      .ok (e, behind)) := by
  simp only [read, primary]
  cases nested.sum rest with
  | error _ => rfl
  | ok argument =>
      simp only [Except.map, afterParen, bind, Except.bind]
      cases closeParen argument.rest with
      | error _ => rfl
      | ok behind =>
          simp only
          cases checkHeight nested.limit (.call function argument.expr) <;> rfl

theorem read_primary_name (name : String)
    (h : ∀ opened more, rest ≠ ⟨.leftParen, opened⟩ :: more) :
    read (primary nested) (⟨.name name, position⟩ :: rest) = .ok (.variable name, rest) := by
  cases rest with
  | nil => rfl
  | cons token more =>
      obtain ⟨kind, opened⟩ := token
      cases kind with
      | leftParen => exact absurd rfl (h opened more)
      | _ => rfl

theorem read_primary_parens :
    read (primary nested) (⟨.leftParen, position⟩ :: rest) = (do
      let (inner, tokens) ← read nested.sum rest
      let behind ← afterParen tokens
      .ok (inner, behind)) := by
  simp only [read, primary]
  cases nested.sum rest with
  | error _ => rfl
  | ok inner =>
      simp only [Except.map, afterParen, bind, Except.bind]
      cases closeParen inner.rest <;> rfl

/-! ## Powers and signs -/

theorem read_power (tokens : List Token) :
    read (power nested) tokens = (do
      let (base, behind) ← read (primary nested) tokens
      readExponent nested base behind) := by
  unfold read power
  cases primary nested tokens with
  | error _ => rfl
  | ok base =>
      obtain ⟨base, behind, shorter⟩ := base
      rcases behind with _ | ⟨⟨kind, position⟩, rest⟩
      · rfl
      by_cases hkind : kind = .operator .power
      · subst hkind
        simp only [Except.map, bind, Except.bind, readExponent, read]
        cases nested.signed rest with
        | error _ => rfl
        | ok exponent =>
            simp only
            cases checkHeight nested.limit (.binary .power base exponent.expr) <;> rfl
      · rcases kind with _ | _ | (_ | _ | _ | _ | _ | _) | _ | _ | _ <;>
          first | rfl | exact absurd rfl hkind

theorem readExponent_power (base : Expr) :
    readExponent nested base (⟨.operator .power, position⟩ :: rest) = (do
      let (exponent, behind) ← read nested.signed rest
      let e ← checkHeight nested.limit (.binary .power base exponent)
      .ok (e, behind)) := rfl

theorem readExponent_stop (base : Expr)
    (h : ∀ position more, tokens ≠ ⟨.operator .power, position⟩ :: more) :
    readExponent nested base tokens = .ok (base, tokens) := by
  unfold readExponent
  split
  · next position rest => exact absurd rfl (h position rest)
  · rfl

theorem read_signed_minus :
    read (signed nested) (⟨.operator .subtract, position⟩ :: rest) = (do
      let (operand, behind) ← read nested.signed rest
      let e ← checkHeight nested.limit (.negate operand)
      .ok (e, behind)) := by
  simp only [read, signed]
  cases nested.signed rest with
  | error _ => rfl
  | ok operand =>
      simp only [Except.map, bind, Except.bind]
      cases checkHeight nested.limit (.negate operand.expr) <;> rfl

theorem read_signed_plus :
    read (signed nested) (⟨.operator .add, position⟩ :: rest) = read nested.signed rest := by
  simp only [read, signed]
  cases nested.signed rest <;> rfl

theorem read_signed_power
    (h : ∀ op ∈ [Operation.add, .subtract], ∀ position more,
      tokens ≠ ⟨.operator op, position⟩ :: more) :
    read (signed nested) tokens = read (power nested) tokens := by
  unfold read signed
  split
  · next position rest => exact absurd rfl (h .subtract (by simp) position rest)
  · next position rest => exact absurd rfl (h .add (by simp) position rest)
  · rfl

/-! ## Chains of operations -/

section Chain

variable {limit : Nat} {ops : List Operation} {operand : Rule}

theorem readFrom_operator {op : Operation} (h : op ∈ ops) (lhs : Expr) :
    readFrom limit ops operand lhs (⟨.operator op, position⟩ :: rest) = (do
      let (rhs, behind) ← read operand rest
      let e ← checkHeight limit (.binary op lhs rhs)
      readFrom limit ops operand e behind) := by
  unfold readFrom
  rw [chainFrom]
  simp only [h, if_true, read]
  cases operand rest with
  | error _ => rfl
  | ok rhs =>
      simp only [Except.map, bind, Except.bind]
      cases checkHeight limit (.binary op lhs rhs.expr) with
      | error _ => rfl
      | ok e =>
          simp only
          cases chainFrom limit ops operand e rhs.rest <;> rfl

theorem readFrom_stop (lhs : Expr)
    (h : ∀ op ∈ ops, ∀ position more, tokens ≠ ⟨.operator op, position⟩ :: more) :
    readFrom limit ops operand lhs tokens = .ok (lhs, tokens) := by
  unfold readFrom
  rw [chainFrom.eq_def]
  split
  · next op position rest =>
      have hop : op ∉ ops := fun hop => h op hop position rest rfl
      simp only [hop, if_false]
      rfl
  · rfl

theorem read_chain (tokens : List Token) :
    read (chain limit ops operand) tokens = (do
      let (lhs, behind) ← read operand tokens
      readFrom limit ops operand lhs behind) := by
  simp only [read, chain]
  cases operand tokens with
  | error _ => rfl
  | ok first =>
      simp only [Except.map, readFrom, bind, Except.bind]
      cases chainFrom limit ops operand first.expr first.rest <;> rfl

end Chain

/-! ## Parts and their rules -/

namespace Part

/-- The rule that reads a part. -/
def rule (nested : Rules) : Part → Rule
  | .sum => Expr.sum nested
  | .product => Expr.product nested
  | .signed => Expr.signed nested
  | .power => Expr.power nested
  | .primary => Expr.primary nested

/-- The operations that some smaller part at the end of a part would read on through. -/
def absorbed : Part → List Operation
  | .sum => [.power, .multiply, .divide, .remainder]
  | .primary => []
  | _ => [.power]

/-- How a part goes on behind a left operand. Only chains do. -/
def resume (nested : Rules) : Part → Expr → List Token → Except SyntaxError (Expr × List Token)
  | .sum, e, rest => readFrom nested.limit [.add, .subtract] (Expr.product nested) e rest
  | .product, e, rest =>
    readFrom nested.limit [.multiply, .divide, .remainder] (Expr.signed nested) e rest
  | _, e, rest => .ok (e, rest)

end Part

@[simp] theorem limit_rulesOfDepth (limit depth : Nat) :
    (rulesOfDepth limit depth).limit = limit := by
  cases depth <;> rfl

/-- Some tokens start neither with an opening parenthesis nor with one of the given operations. -/
structure Clear (ops : List Operation) (tokens : List Token) : Prop where
  ne_leftParen : ∀ position more, tokens ≠ ⟨.leftParen, position⟩ :: more
  ne_operator : ∀ op ∈ ops, ∀ position more, tokens ≠ ⟨.operator op, position⟩ :: more

namespace Clear

variable {ops fewer : List Operation} {tokens : List Token}

theorem mono (h : Clear ops tokens) (hsubset : fewer ⊆ ops) : Clear fewer tokens :=
  ⟨h.ne_leftParen, fun op hop => h.ne_operator op (hsubset hop)⟩

theorem nil (ops : List Operation) : Clear ops [] := by
  constructor <;> simp

theorem rightParen (ops : List Operation) (position : Nat) (rest : List Token) :
    Clear ops (⟨.rightParen, position⟩ :: rest) := by
  constructor <;> simp

theorem operator {op : Operation} (h : op ∉ ops) (position : Nat) (rest : List Token) :
    Clear ops (⟨.operator op, position⟩ :: rest) := by
  constructor
  · simp
  · intro other hother position' more heq
    simp only [List.cons.injEq, Token.mk.injEq, Token.Kind.operator.injEq] at heq
    exact h (heq.1.1 ▸ hother)

end Clear

theorem resume_of_clear {tokens : List Token} (h : Clear Operation.all tokens) (nested : Rules)
    (part : Part) (e : Expr) : part.resume nested e tokens = .ok (e, tokens) := by
  cases part with
  | sum => exact readFrom_stop e (h.mono (by decide)).ne_operator
  | product => exact readFrom_stop e (h.mono (by decide)).ne_operator
  | _ => rfl

/-- A part that is a chain of smaller parts. -/
structure ChainOf (outer inner : Part) (ops : List Operation) : Prop where
  rule_eq : ∀ nested, outer.rule nested = chain nested.limit ops (inner.rule nested)
  resume_eq : ∀ nested, outer.resume nested = readFrom nested.limit ops (inner.rule nested)
  not_absorbed : ∀ op ∈ ops, op ∉ outer.absorbed
  absorbed_subset : inner.absorbed ⊆ outer.absorbed
  inner_stops : ∀ nested e rest, Clear outer.absorbed rest →
    inner.resume nested e rest = .ok (e, rest)
  derives_operand : ∀ {kinds e depth}, Derives inner kinds e depth → Derives outer kinds e depth
  derives_chain : ∀ {op front behind lhs rhs d₁ d₂}, op ∈ ops →
    Derives outer front lhs d₁ → Derives inner behind rhs d₂ →
    Derives outer (front ++ .operator op :: behind) (.binary op lhs rhs) (max d₁ d₂)

theorem sum_chainOf_product : ChainOf .sum .product [.add, .subtract] where
  rule_eq _ := rfl
  resume_eq _ := rfl
  not_absorbed := by decide
  absorbed_subset := by decide
  inner_stops nested e rest hclear := readFrom_stop e (hclear.mono (by decide)).ne_operator
  derives_operand := Derives.ofProduct
  derives_chain := Derives.sum

theorem product_chainOf_signed : ChainOf .product .signed [.multiply, .divide, .remainder] where
  rule_eq _ := rfl
  resume_eq _ := rfl
  not_absorbed := by decide
  absorbed_subset := by decide
  inner_stops _ _ _ _ := rfl
  derives_operand := Derives.ofSigned
  derives_chain := Derives.product

end Abacus.Expr
