import Abacus.Proofs.Expr.Reading

/-!
# The grammar derives what the rules read

Whatever a rule takes off the front of some tokens, the grammar derives, with a tree and a depth
within the limits. The nested rules are taken as sound first; that they are is an induction on the
depth.
-/

namespace Abacus.Expr

/-- The tokens up to `rest` make up a part, within the limits. -/
def Consumes (limit depth : Nat) (part : Part) (tokens : List Token) (e : Expr)
    (rest : List Token) : Prop :=
  ∃ front d, tokens = front ++ rest ∧ Derives part (front.map (·.kind)) e d ∧
    e.height ≤ limit ∧ d ≤ depth

/-- The nested rules read only what the grammar derives, with one depth less to spare. -/
structure NestedSound (depth : Nat) (nested : Rules) : Prop where
  limit_pos : 0 < nested.limit
  signed : ∀ {tokens e rest}, read nested.signed tokens = .ok (e, rest) →
    ∃ inner, inner < depth ∧ Consumes nested.limit inner .signed tokens e rest
  sum : ∀ {tokens e rest}, read nested.sum tokens = .ok (e, rest) →
    ∃ inner, inner < depth ∧ Consumes nested.limit inner .sum tokens e rest

section Rules

variable {depth : Nat} {nested : Rules} {tokens rest : List Token} {e : Expr}

theorem consumes_primary (hn : NestedSound depth nested)
    (h : read (primary nested) tokens = .ok (e, rest)) :
    Consumes nested.limit depth .primary tokens e rest := by
  rcases tokens with _ | ⟨⟨kind, position⟩, behind⟩
  · cases h
  cases kind with
  | number v =>
      rw [read_primary_number] at h
      cases h
      exact ⟨[⟨.number v, position⟩], 0, rfl, .number v, hn.limit_pos, Nat.zero_le depth⟩
  | leftParen =>
      rw [read_primary_parens] at h
      obtain ⟨⟨inner, behindInner⟩, hsum, hclose⟩ := bind_eq_ok.1 h
      obtain ⟨behindParen, hparen, hresult⟩ := bind_eq_ok.1 hclose
      cases hresult
      obtain ⟨closed, rfl⟩ := afterParen_eq_ok hparen
      obtain ⟨below, hbelow, front, d, rfl, hderives, hheight, hd⟩ := hn.sum hsum
      refine ⟨⟨.leftParen, position⟩ :: (front ++ [⟨.rightParen, closed⟩]), d + 1, ?_, ?_,
        hheight, by omega⟩
      · simp
      · simpa using hderives.parens
  | name name =>
      by_cases hcall : ∃ opened more, behind = ⟨.leftParen, opened⟩ :: more
      · obtain ⟨opened, more, rfl⟩ := hcall
        rw [read_primary_call] at h
        obtain ⟨⟨argument, behindInner⟩, hsum, hclose⟩ := bind_eq_ok.1 h
        obtain ⟨behindParen, hparen, hcheck⟩ := bind_eq_ok.1 hclose
        obtain ⟨whole, hwhole, hresult⟩ := bind_eq_ok.1 hcheck
        cases hresult
        obtain ⟨closed, rfl⟩ := afterParen_eq_ok hparen
        obtain ⟨hheight, rfl⟩ := checkHeight_eq_ok.1 hwhole
        obtain ⟨below, hbelow, front, d, rfl, hderives, -, hd⟩ := hn.sum hsum
        refine ⟨⟨.name name, position⟩ :: ⟨.leftParen, opened⟩ ::
          (front ++ [⟨.rightParen, closed⟩]), d + 1, ?_, ?_, hheight, by omega⟩
        · simp
        · simpa using hderives.call
      · rw [read_primary_name name fun opened more heq => hcall ⟨opened, more, heq⟩] at h
        cases h
        exact ⟨[⟨.name name, position⟩], 0, rfl, .name name, hn.limit_pos, Nat.zero_le depth⟩
  | _ => cases h

theorem consumes_power (hn : NestedSound depth nested)
    (h : read (power nested) tokens = .ok (e, rest)) :
    Consumes nested.limit depth .power tokens e rest := by
  rw [read_power] at h
  obtain ⟨⟨base, behind⟩, hbase, hbehind⟩ := bind_eq_ok.1 h
  simp only at hbehind
  obtain ⟨front, d₁, rfl, hderives, hheight, hd₁⟩ := consumes_primary hn hbase
  by_cases hpower : ∃ position more, behind = ⟨.operator .power, position⟩ :: more
  · obtain ⟨position, more, rfl⟩ := hpower
    rw [readExponent_power] at hbehind
    obtain ⟨⟨exponent, behindExponent⟩, hexponent, hcheck⟩ := bind_eq_ok.1 hbehind
    obtain ⟨whole, hwhole, hresult⟩ := bind_eq_ok.1 hcheck
    cases hresult
    obtain ⟨hheight, rfl⟩ := checkHeight_eq_ok.1 hwhole
    obtain ⟨below, hbelow, second, d₂, rfl, hsigned, -, hd₂⟩ := hn.signed hexponent
    refine ⟨front ++ ⟨.operator .power, position⟩ :: second, max d₁ (d₂ + 1), ?_, ?_, hheight,
      by omega⟩
    · simp
    · simpa using hderives.power hsigned
  · rw [readExponent_stop base fun position more heq => hpower ⟨position, more, heq⟩] at hbehind
    cases hbehind
    exact ⟨front, d₁, rfl, hderives.ofPrimary, hheight, hd₁⟩

theorem consumes_signed (hn : NestedSound depth nested)
    (h : read (signed nested) tokens = .ok (e, rest)) :
    Consumes nested.limit depth .signed tokens e rest := by
  by_cases hsign : ∃ op ∈ [Operation.add, .subtract], ∃ position more,
      tokens = ⟨.operator op, position⟩ :: more
  · obtain ⟨op, hop, position, more, rfl⟩ := hsign
    simp only [List.mem_cons, List.not_mem_nil, or_false] at hop
    rcases hop with rfl | rfl
    · rw [read_signed_plus] at h
      obtain ⟨below, hbelow, front, d, rfl, hderives, hheight, hd⟩ := hn.signed h
      exact ⟨⟨.operator .add, position⟩ :: front, d + 1, rfl, hderives.plus, hheight, by omega⟩
    · rw [read_signed_minus] at h
      obtain ⟨⟨operand, behind⟩, hoperand, hcheck⟩ := bind_eq_ok.1 h
      obtain ⟨whole, hwhole, hresult⟩ := bind_eq_ok.1 hcheck
      cases hresult
      obtain ⟨hheight, rfl⟩ := checkHeight_eq_ok.1 hwhole
      obtain ⟨below, hbelow, front, d, rfl, hderives, -, hd⟩ := hn.signed hoperand
      exact ⟨⟨.operator .subtract, position⟩ :: front, d + 1, rfl, hderives.minus, hheight,
        by omega⟩
  · rw [read_signed_power fun op hop position more heq =>
      hsign ⟨op, hop, position, more, heq⟩] at h
    obtain ⟨front, d, rfl, hderives, hheight, hd⟩ := consumes_power hn h
    exact ⟨front, d, rfl, hderives.ofPower, hheight, hd⟩

variable {outer inner : Part} {ops : List Operation}

/-- The induction is on the tokens behind the left operand: each operation takes some of them. -/
theorem consumes_readFrom (hchain : ChainOf outer inner ops)
    (hinner : ∀ {tokens e rest}, read (inner.rule nested) tokens = .ok (e, rest) →
      Consumes nested.limit depth inner tokens e rest)
    {before : List Token} {lhs : Expr} {d : Nat}
    (hlhs : Derives outer (before.map (·.kind)) lhs d) (hheight : lhs.height ≤ nested.limit)
    (hd : d ≤ depth)
    (h : readFrom nested.limit ops (inner.rule nested) lhs tokens = .ok (e, rest)) :
    Consumes nested.limit depth outer (before ++ tokens) e rest := by
  induction hlength : tokens.length using Nat.strongRecOn generalizing tokens before lhs d with
  | ind length ih =>
      by_cases hop : ∃ op ∈ ops, ∃ position more, tokens = ⟨.operator op, position⟩ :: more
      · obtain ⟨op, hop, position, more, rfl⟩ := hop
        rw [readFrom_operator hop] at h
        obtain ⟨⟨rhs, behind⟩, hrhs, hcheck⟩ := bind_eq_ok.1 h
        obtain ⟨whole, hwhole, hmore⟩ := bind_eq_ok.1 hcheck
        obtain ⟨hwholeHeight, rfl⟩ := checkHeight_eq_ok.1 hwhole
        obtain ⟨second, d₂, rfl, hsecond, -, hd₂⟩ := hinner hrhs
        have hderives : Derives outer
            ((before ++ ⟨.operator op, position⟩ :: second).map (·.kind)) (.binary op lhs rhs)
            (max d d₂) := by
          simpa using hchain.derives_chain hop hlhs hsecond
        have hshorter : behind.length < length := by
          rw [← hlength, List.length_cons, List.length_append]
          omega
        have hrest := ih behind.length hshorter hderives hwholeHeight (by omega) hmore rfl
        simpa using hrest
      · rw [readFrom_stop lhs fun op hmem position more heq =>
          hop ⟨op, hmem, position, more, heq⟩] at h
        cases h
        exact ⟨before, d, rfl, hlhs, hheight, hd⟩

theorem consumes_chain (hchain : ChainOf outer inner ops)
    (hinner : ∀ {tokens e rest}, read (inner.rule nested) tokens = .ok (e, rest) →
      Consumes nested.limit depth inner tokens e rest)
    (h : read (outer.rule nested) tokens = .ok (e, rest)) :
    Consumes nested.limit depth outer tokens e rest := by
  rw [hchain.rule_eq, read_chain] at h
  obtain ⟨⟨lhs, behind⟩, hlhs, hmore⟩ := bind_eq_ok.1 h
  obtain ⟨front, d, rfl, hderives, hheight, hd⟩ := hinner hlhs
  exact consumes_readFrom hchain hinner (hchain.derives_operand hderives) hheight hd hmore

theorem consumes_product (hn : NestedSound depth nested)
    (h : read (product nested) tokens = .ok (e, rest)) :
    Consumes nested.limit depth .product tokens e rest :=
  consumes_chain product_chainOf_signed (consumes_signed hn) h

theorem consumes_sum (hn : NestedSound depth nested)
    (h : read (sum nested) tokens = .ok (e, rest)) :
    Consumes nested.limit depth .sum tokens e rest :=
  consumes_chain sum_chainOf_product (consumes_product hn) h

end Rules

theorem nestedSound_rulesOfDepth {limit : Nat} (hlimit : 0 < limit) (depth : Nat) :
    NestedSound depth (rulesOfDepth limit depth) := by
  induction depth with
  | zero =>
      refine ⟨hlimit, ?_, ?_⟩
      · intro tokens e rest h
        cases h
      · intro tokens e rest h
        cases h
  | succ depth ih =>
      have hlimits : (rulesOfDepth limit depth).limit = limit := limit_rulesOfDepth limit depth
      refine ⟨hlimit, ?_, ?_⟩
      · intro tokens e rest h
        have hsigned := consumes_signed ih h
        rw [hlimits] at hsigned
        exact ⟨depth, Nat.lt_succ_self depth, hsigned⟩
      · intro tokens e rest h
        have hsum := consumes_sum ih h
        rw [hlimits] at hsum
        exact ⟨depth, Nat.lt_succ_self depth, hsum⟩

end Abacus.Expr
