import Abacus.Proofs.Expr.Reading

/-!
# The rules read what the grammar derives

On tokens that the grammar derives the rules never meet a token they did not expect. They read the
derived tree if it and the depth of its derivation keep within the limits, and else report that the
limit is exceeded. The two chains are stated with what they read next, since the tree of a longer
chain is built upon the tree of a shorter one.
-/

namespace Abacus.Expr

/-- A result that is only reached by a tree and a derivation within the limits. -/
def bounded {α : Type} (limit depth : Nat) (e : Expr) (d : Nat) (result : Except SyntaxError α) :
    Except SyntaxError α :=
  if e.height ≤ limit ∧ d ≤ depth then result else .error (.tooDeep limit)

section Bounded

variable {α β : Type} {limit depth d : Nat} {e : Expr}

theorem bounded_of_le {result : Except SyntaxError α} (he : e.height ≤ limit) (hd : d ≤ depth) :
    bounded limit depth e d result = result :=
  if_pos ⟨he, hd⟩

theorem bounded_of_exceeds {result : Except SyntaxError α} (h : limit < e.height ∨ depth < d) :
    bounded limit depth e d result = .error (.tooDeep limit) := by
  apply if_neg
  omega

theorem bounded_eq_ok {result : Except SyntaxError α} {a : α} :
    bounded limit depth e d result = .ok a ↔
      (e.height ≤ limit ∧ d ≤ depth) ∧ result = .ok a := by
  unfold bounded
  split
  · next h => simp [h]
  · next h => simp [h]

theorem bounded_bind (result : Except SyntaxError α) (f : α → Except SyntaxError β) :
    (bounded limit depth e d result >>= f) = bounded limit depth e d (result >>= f) := by
  unfold bounded
  split <;> rfl

/-- Building a tree of one operand on top of a bounded one. -/
theorem bounded_unary {whole : Expr} (h : whole.height = e.height + 1)
    (f : Expr → Except SyntaxError α) :
    bounded limit depth e d (checkHeight limit whole >>= f) =
      bounded limit depth whole d (f whole) := by
  unfold bounded
  by_cases hw : whole.height ≤ limit
  · have he : e.height ≤ limit := by omega
    simp only [checkHeight_of_le hw, he, hw]
    rfl
  · simp only [checkHeight_of_lt (Nat.lt_of_not_le hw), hw, false_and, if_false]
    split <;> rfl

theorem bounded_binary (op : Operation) {lhs rhs : Expr} {d₁ d₂ : Nat}
    (f : Expr → Except SyntaxError α) :
    bounded limit depth lhs d₁
        (bounded limit depth rhs d₂ (checkHeight limit (.binary op lhs rhs) >>= f)) =
      bounded limit depth (.binary op lhs rhs) (max d₁ d₂) (f (.binary op lhs rhs)) := by
  have hheight : (binary op lhs rhs).height = max lhs.height rhs.height + 1 := rfl
  by_cases hw : (binary op lhs rhs).height ≤ limit
  · rw [checkHeight_of_le hw]
    by_cases hd : max d₁ d₂ ≤ depth
    · rw [bounded_of_le (by omega) (by omega), bounded_of_le (by omega) (by omega),
        bounded_of_le hw hd]
      rfl
    · rw [bounded_of_exceeds (.inr (by omega : depth < max d₁ d₂))]
      unfold bounded
      split
      · exact if_neg (by omega)
      · rfl
  · have hright : bounded limit depth (.binary op lhs rhs) (max d₁ d₂)
        (f (.binary op lhs rhs)) = .error (.tooDeep limit) :=
      bounded_of_exceeds (.inl (by omega))
    rw [hright, checkHeight_of_lt (by omega)]
    unfold bounded
    split
    · split <;> rfl
    · rfl

end Bounded

/-- Some tokens are read as a part wherever no smaller part reads on behind them, as far as the tree
and the depth keep within the limits. -/
def Reads (limit : Nat) (part : Part) (tokens : List Token) (e : Expr) (d : Nat) : Prop :=
  ∀ (depth : Nat) (rest : List Token), Clear part.absorbed rest →
    read (part.rule (rulesOfDepth limit depth)) (tokens ++ rest) =
      bounded limit depth e d (part.resume (rulesOfDepth limit depth) e rest)

namespace Reads

variable {limit d d₁ d₂ position opened closed : Nat} {e lhs rhs : Expr}
variable {tokens before after rest : List Token}

/-- Reading a nested part takes one from the depth that is left. -/
theorem nested_signed (h : Reads limit .signed tokens e d) (depth : Nat)
    (hclear : Clear [.power] rest) :
    read (rulesOfDepth limit depth).signed (tokens ++ rest) =
      bounded limit depth e (d + 1) (.ok (e, rest)) := by
  cases depth with
  | zero =>
      rw [bounded_of_exceeds (by omega)]
      rfl
  | succ depth =>
      have hread := h depth rest hclear
      simp only [bounded, Nat.add_le_add_iff_right] at hread ⊢
      exact hread

/-- A nested sum is always closed by a parenthesis. -/
theorem nested_sum (h : Reads limit .sum tokens e d) (depth : Nat) :
    read (rulesOfDepth limit depth).sum (tokens ++ ⟨.rightParen, closed⟩ :: rest) =
      bounded limit depth e (d + 1) (.ok (e, ⟨.rightParen, closed⟩ :: rest)) := by
  cases depth with
  | zero =>
      rw [bounded_of_exceeds (by omega)]
      rfl
  | succ depth =>
      have hclear := Clear.rightParen Operation.all closed rest
      have hread := h depth _ (hclear.mono (by decide))
      rw [resume_of_clear hclear] at hread
      simp only [bounded, Nat.add_le_add_iff_right] at hread ⊢
      exact hread

theorem ofOperand {outer inner : Part} {ops : List Operation} (hchain : ChainOf outer inner ops)
    (h : Reads limit inner tokens e d) : Reads limit outer tokens e d := by
  intro depth rest hclear
  rw [hchain.rule_eq, read_chain, h depth rest (hclear.mono hchain.absorbed_subset),
    hchain.inner_stops _ e rest hclear, bounded_bind, hchain.resume_eq]
  rfl

theorem chain {outer inner : Part} {ops : List Operation} {op : Operation}
    (hchain : ChainOf outer inner ops) (hop : op ∈ ops)
    (hl : Reads limit outer before lhs d₁) (hr : Reads limit inner after rhs d₂) :
    Reads limit outer (before ++ ⟨.operator op, position⟩ :: after) (.binary op lhs rhs)
      (max d₁ d₂) := by
  intro depth rest hclear
  have hleft := hl depth (⟨.operator op, position⟩ :: (after ++ rest))
    (Clear.operator (hchain.not_absorbed op hop) position _)
  have hright := hr depth rest (hclear.mono hchain.absorbed_subset)
  rw [hchain.resume_eq, readFrom_operator hop, hright, hchain.inner_stops _ rhs rest hclear,
    bounded_bind] at hleft
  rw [List.append_assoc, List.cons_append, hleft, hchain.resume_eq]
  simp only [limit_rulesOfDepth]
  exact bounded_binary op fun whole =>
    readFrom limit ops (inner.rule (rulesOfDepth limit depth)) whole rest

theorem minus (h : Reads limit .signed tokens e d) :
    Reads limit .signed (⟨.operator .subtract, position⟩ :: tokens) (.negate e) (d + 1) := by
  intro depth rest hclear
  have hread : read (signed (rulesOfDepth limit depth))
      (⟨.operator .subtract, position⟩ :: (tokens ++ rest)) =
        bounded limit depth e (d + 1)
          (checkHeight limit (.negate e) >>= fun whole => .ok (whole, rest)) := by
    rw [read_signed_minus, h.nested_signed depth hclear, bounded_bind, limit_rulesOfDepth]
    rfl
  rw [bounded_unary rfl] at hread
  exact hread

theorem plus (h : Reads limit .signed tokens e d) :
    Reads limit .signed (⟨.operator .add, position⟩ :: tokens) e (d + 1) := by
  intro depth rest hclear
  have hread : read (signed (rulesOfDepth limit depth))
      (⟨.operator .add, position⟩ :: (tokens ++ rest)) =
        bounded limit depth e (d + 1) (.ok (e, rest)) := by
    rw [read_signed_plus, h.nested_signed depth hclear]
  exact hread

theorem ofPower (h : Reads limit .power tokens e d) (hne : tokens ≠ [])
    (hfront : ∀ op position more, tokens ≠ ⟨.operator op, position⟩ :: more) :
    Reads limit .signed tokens e d := by
  intro depth rest hclear
  have hread : read (signed (rulesOfDepth limit depth)) (tokens ++ rest) =
      read (power (rulesOfDepth limit depth)) (tokens ++ rest) := by
    apply read_signed_power
    intro op _ position more heq
    cases tokens with
    | nil => exact hne rfl
    | cons first others =>
        rw [List.cons_append, List.cons.injEq] at heq
        exact hfront op position others (by rw [heq.1])
  exact hread.trans (h depth rest hclear)

theorem ofPrimary (h : Reads limit .primary tokens e d) : Reads limit .power tokens e d := by
  intro depth rest hclear
  have hbase : read (primary (rulesOfDepth limit depth)) (tokens ++ rest) =
      bounded limit depth e d (.ok (e, rest)) := h depth rest (hclear.mono (by decide))
  have hread : read (power (rulesOfDepth limit depth)) (tokens ++ rest) =
      bounded limit depth e d (.ok (e, rest)) := by
    rw [read_power, hbase, bounded_bind]
    congr 1
    exact readExponent_stop e (hclear.ne_operator .power (by decide))
  exact hread

theorem power (hbase : Reads limit .primary before lhs d₁)
    (hexponent : Reads limit .signed after rhs d₂) :
    Reads limit .power (before ++ ⟨.operator .power, position⟩ :: after)
      (.binary .power lhs rhs) (max d₁ (d₂ + 1)) := by
  intro depth rest hclear
  have hleft : read (primary (rulesOfDepth limit depth))
      (before ++ ⟨.operator .power, position⟩ :: (after ++ rest)) =
        bounded limit depth lhs d₁ (.ok (lhs, ⟨.operator .power, position⟩ :: (after ++ rest))) :=
    hbase depth _ (Clear.operator (by decide) position _)
  have hread : read (Expr.power (rulesOfDepth limit depth))
      (before ++ ⟨.operator .power, position⟩ :: (after ++ rest)) =
        bounded limit depth lhs d₁ (bounded limit depth rhs (d₂ + 1)
          (checkHeight limit (.binary .power lhs rhs) >>= fun whole => .ok (whole, rest))) := by
    rw [read_power, hleft, bounded_bind]
    congr 1
    change readExponent (rulesOfDepth limit depth) lhs
      (⟨.operator .power, position⟩ :: (after ++ rest)) = _
    rw [readExponent_power, hexponent.nested_signed depth hclear, bounded_bind, limit_rulesOfDepth]
    rfl
  rw [bounded_binary] at hread
  rw [List.append_assoc, List.cons_append]
  exact hread

theorem number (hlimit : 0 < limit) (v : Value) :
    Reads limit .primary [⟨.number v, position⟩] (.literal v) 0 := by
  intro depth rest hclear
  have hheight : (literal v).height ≤ limit := hlimit
  rw [bounded_of_le hheight (Nat.zero_le depth)]
  exact read_primary_number v

theorem name (hlimit : 0 < limit) (name : String) :
    Reads limit .primary [⟨.name name, position⟩] (.variable name) 0 := by
  intro depth rest hclear
  have hheight : (Expr.variable name).height ≤ limit := hlimit
  rw [bounded_of_le hheight (Nat.zero_le depth)]
  exact read_primary_name name hclear.ne_leftParen

theorem call (h : Reads limit .sum tokens e d) (function : String) :
    Reads limit .primary
      (⟨.name function, position⟩ :: ⟨.leftParen, opened⟩ :: (tokens ++ [⟨.rightParen, closed⟩]))
      (.call function e) (d + 1) := by
  intro depth rest hclear
  have hread : read (primary (rulesOfDepth limit depth))
      (⟨.name function, position⟩ :: ⟨.leftParen, opened⟩ ::
        (tokens ++ ⟨.rightParen, closed⟩ :: rest)) =
        bounded limit depth e (d + 1)
          (checkHeight limit (.call function e) >>= fun whole => .ok (whole, rest)) := by
    rw [read_primary_call, h.nested_sum depth, bounded_bind, limit_rulesOfDepth]
    rfl
  rw [bounded_unary rfl] at hread
  rw [List.cons_append, List.cons_append, List.append_assoc]
  exact hread

theorem parens (h : Reads limit .sum tokens e d) :
    Reads limit .primary (⟨.leftParen, opened⟩ :: (tokens ++ [⟨.rightParen, closed⟩])) e
      (d + 1) := by
  intro depth rest hclear
  have hread : read (primary (rulesOfDepth limit depth))
      (⟨.leftParen, opened⟩ :: (tokens ++ ⟨.rightParen, closed⟩ :: rest)) =
        bounded limit depth e (d + 1) (.ok (e, rest)) := by
    rw [read_primary_parens, h.nested_sum depth, bounded_bind]
    rfl
  rw [List.cons_append, List.append_assoc]
  exact hread

end Reads

/-- Tokens whose kinds come from a concatenation around an operation. -/
theorem map_kind_eq_operator {tokens : List Token} {front behind : List Token.Kind}
    {op : Operation} (h : tokens.map (·.kind) = front ++ .operator op :: behind) :
    ∃ before position after, tokens = before ++ ⟨.operator op, position⟩ :: after ∧
      before.map (·.kind) = front ∧ after.map (·.kind) = behind := by
  obtain ⟨before, middle, rfl, hfront, hmiddle⟩ := List.map_eq_append_iff.1 h
  obtain ⟨⟨kind, position⟩, after, rfl, hkind, hbehind⟩ := List.map_eq_cons_iff.1 hmiddle
  simp only at hkind
  subst hkind
  exact ⟨before, position, after, rfl, hfront, hbehind⟩

theorem map_kind_eq_cons {tokens : List Token} {kind : Token.Kind} {behind : List Token.Kind}
    (h : tokens.map (·.kind) = kind :: behind) :
    ∃ position after, tokens = ⟨kind, position⟩ :: after ∧ after.map (·.kind) = behind := by
  obtain ⟨⟨kind, position⟩, after, rfl, hkind, hbehind⟩ := List.map_eq_cons_iff.1 h
  simp only at hkind
  subst hkind
  exact ⟨position, after, rfl, hbehind⟩

theorem map_kind_eq_closed {tokens : List Token} {kinds : List Token.Kind}
    (h : tokens.map (·.kind) = kinds ++ [.rightParen]) :
    ∃ inside closed, tokens = inside ++ [⟨.rightParen, closed⟩] ∧
      inside.map (·.kind) = kinds := by
  obtain ⟨inside, last, rfl, hinside, hlast⟩ := List.map_eq_append_iff.1 h
  obtain ⟨closed, after, rfl, hafter⟩ := map_kind_eq_cons hlast
  rw [List.map_eq_nil_iff] at hafter
  subst hafter
  exact ⟨inside, closed, rfl, hinside⟩

/-- The induction is on the derivation. A chain to the left of an operation is followed by that
operation, so a part has to be read as such also where its own chain goes on behind it. -/
theorem reads_of_derives {limit : Nat} (hlimit : 0 < limit) {part : Part}
    {kinds : List Token.Kind} {e : Expr} {d : Nat} (h : Derives part kinds e d) :
    ∀ tokens : List Token, tokens.map (·.kind) = kinds → Reads limit part tokens e d := by
  induction h with
  | ofProduct _ ih => exact fun tokens hkinds => (ih tokens hkinds).ofOperand sum_chainOf_product
  | ofSigned _ ih => exact fun tokens hkinds => (ih tokens hkinds).ofOperand product_chainOf_signed
  | sum hop _ _ ihl ihr =>
      intro tokens hkinds
      obtain ⟨before, position, after, rfl, hbefore, hafter⟩ := map_kind_eq_operator hkinds
      exact (ihl before hbefore).chain sum_chainOf_product hop (ihr after hafter)
  | product hop _ _ ihl ihr =>
      intro tokens hkinds
      obtain ⟨before, position, after, rfl, hbefore, hafter⟩ := map_kind_eq_operator hkinds
      exact (ihl before hbefore).chain product_chainOf_signed hop (ihr after hafter)
  | minus _ ih =>
      intro tokens hkinds
      obtain ⟨position, after, rfl, hafter⟩ := map_kind_eq_cons hkinds
      exact (ih after hafter).minus
  | plus _ ih =>
      intro tokens hkinds
      obtain ⟨position, after, rfl, hafter⟩ := map_kind_eq_cons hkinds
      exact (ih after hafter).plus
  | ofPower hpower ih =>
      intro tokens hkinds
      apply (ih tokens hkinds).ofPower
      · rintro rfl
        exact hpower.ne_nil hkinds.symm
      · rintro op position more rfl
        exact hpower.power_ne_operator op _ hkinds.symm
  | ofPrimary _ ih => exact fun tokens hkinds => (ih tokens hkinds).ofPrimary
  | power _ _ ihl ihr =>
      intro tokens hkinds
      obtain ⟨before, position, after, rfl, hbefore, hafter⟩ := map_kind_eq_operator hkinds
      exact (ihl before hbefore).power (ihr after hafter)
  | number v =>
      intro tokens hkinds
      obtain ⟨position, after, rfl, hafter⟩ := map_kind_eq_cons hkinds
      rw [List.map_eq_nil_iff.1 hafter]
      exact Reads.number hlimit v
  | name name =>
      intro tokens hkinds
      obtain ⟨position, after, rfl, hafter⟩ := map_kind_eq_cons hkinds
      rw [List.map_eq_nil_iff.1 hafter]
      exact Reads.name hlimit name
  | call _ ih =>
      intro tokens hkinds
      obtain ⟨position, behindName, rfl, hbehind⟩ := map_kind_eq_cons hkinds
      obtain ⟨opened, behindParen, rfl, hinner⟩ := map_kind_eq_cons hbehind
      obtain ⟨inside, closed, rfl, hinside⟩ := map_kind_eq_closed hinner
      exact (ih inside hinside).call _
  | parens _ ih =>
      intro tokens hkinds
      obtain ⟨opened, after, rfl, hafter⟩ := map_kind_eq_cons hkinds
      obtain ⟨inside, closed, rfl, hinside⟩ := map_kind_eq_closed hafter
      exact (ih inside hinside).parens

end Abacus.Expr
