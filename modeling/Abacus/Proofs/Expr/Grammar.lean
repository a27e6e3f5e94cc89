import Abacus.Expr.Parser

/-!
# The grammar of expressions

The kinds of tokens that make up an expression, the one tree they stand for, and how many nested
parts are open at once on the way. The grammar knows no greatest height and no greatest depth, and
it does not look ahead.
-/

namespace Abacus.Expr

/-- The parts of an expression, from the weakest to the strongest. -/
inductive Part where
  | sum
  | product
  | signed
  | power
  | primary
deriving DecidableEq

/-- `Derives part kinds e depth`: tokens of the given kinds make up a part that stands for the tree
`e`, and at most `depth` operands of signs, exponents, parentheses and calls are open at once. A
plus sign and a pair of parentheses leave no trace in the tree. -/
inductive Derives : Part → List Token.Kind → Expr → Nat → Prop where
  | ofProduct {kinds : List Token.Kind} {e : Expr} {depth : Nat} :
      Derives .product kinds e depth → Derives .sum kinds e depth
  | sum {op : Operation} {front behind : List Token.Kind} {lhs rhs : Expr} {d₁ d₂ : Nat} :
      op ∈ [.add, .subtract] → Derives .sum front lhs d₁ → Derives .product behind rhs d₂ →
      Derives .sum (front ++ .operator op :: behind) (.binary op lhs rhs) (max d₁ d₂)
  | ofSigned {kinds : List Token.Kind} {e : Expr} {depth : Nat} :
      Derives .signed kinds e depth → Derives .product kinds e depth
  | product {op : Operation} {front behind : List Token.Kind} {lhs rhs : Expr} {d₁ d₂ : Nat} :
      op ∈ [.multiply, .divide, .remainder] →
      Derives .product front lhs d₁ → Derives .signed behind rhs d₂ →
      Derives .product (front ++ .operator op :: behind) (.binary op lhs rhs) (max d₁ d₂)
  | minus {kinds : List Token.Kind} {e : Expr} {depth : Nat} :
      Derives .signed kinds e depth →
      Derives .signed (.operator .subtract :: kinds) (.negate e) (depth + 1)
  | plus {kinds : List Token.Kind} {e : Expr} {depth : Nat} :
      Derives .signed kinds e depth → Derives .signed (.operator .add :: kinds) e (depth + 1)
  | ofPower {kinds : List Token.Kind} {e : Expr} {depth : Nat} :
      Derives .power kinds e depth → Derives .signed kinds e depth
  | ofPrimary {kinds : List Token.Kind} {e : Expr} {depth : Nat} :
      Derives .primary kinds e depth → Derives .power kinds e depth
  | power {front behind : List Token.Kind} {base exponent : Expr} {d₁ d₂ : Nat} :
      Derives .primary front base d₁ → Derives .signed behind exponent d₂ →
      Derives .power (front ++ .operator .power :: behind) (.binary .power base exponent)
        (max d₁ (d₂ + 1))
  | number (v : Value) : Derives .primary [.number v] (.literal v) 0
  | name (name : String) : Derives .primary [.name name] (.variable name) 0
  | call {function : String} {kinds : List Token.Kind} {argument : Expr} {depth : Nat} :
      Derives .sum kinds argument depth →
      Derives .primary (.name function :: .leftParen :: (kinds ++ [.rightParen]))
        (.call function argument) (depth + 1)
  | parens {kinds : List Token.Kind} {e : Expr} {depth : Nat} :
      Derives .sum kinds e depth →
      Derives .primary (.leftParen :: (kinds ++ [.rightParen])) e (depth + 1)

theorem height_pos (e : Expr) : 0 < e.height := by
  cases e <;> simp [height]

namespace Derives

variable {part : Part} {kinds : List Token.Kind} {e : Expr} {depth : Nat}

theorem ne_nil (h : Derives part kinds e depth) : kinds ≠ [] := by
  induction h <;> simp_all

theorem primary_ne_operator (h : Derives .primary kinds e depth) (op : Operation)
    (more : List Token.Kind) : kinds ≠ .operator op :: more := by
  cases h <;> simp

/-- Signs belong to the operand that they stand in front of, not to a power. -/
theorem power_ne_operator (h : Derives .power kinds e depth) (op : Operation)
    (more : List Token.Kind) : kinds ≠ .operator op :: more := by
  intro heq
  cases h with
  | ofPrimary h => exact h.primary_ne_operator op more heq
  | @power front behind base exponent d₁ d₂ hbase hexponent =>
      cases front with
      | nil => exact hbase.ne_nil rfl
      | cons first others =>
          rw [List.cons_append, List.cons.injEq] at heq
          exact hbase.primary_ne_operator op others (by rw [heq.1])

theorem sum_of_signed (h : Derives .signed kinds e depth) : Derives .sum kinds e depth :=
  h.ofSigned.ofProduct

theorem signed_of_primary (h : Derives .primary kinds e depth) : Derives .signed kinds e depth :=
  h.ofPrimary.ofPower

end Derives

end Abacus.Expr
