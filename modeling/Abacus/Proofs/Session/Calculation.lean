import Abacus.Proofs.Session.Operand
import Abacus.Proofs.Session.Substitution

/-!
# Calculating and evaluating

An operation on two operands gives what the expression gives that has these operands in parentheses.
The operands are read in two ways on the way to it, once as numbers of their own and once as tokens
of an expression.
-/

namespace Abacus

/-- The text of an operation with both operands in parentheses. -/
def Operation.textWith (op : Operation) (lhs rhs : String) : String :=
  "(" ++ lhs ++ ") " ++ op.symbol.toString ++ " (" ++ rhs ++ ")"

/-- The rational number that a value is equal to, if it is finite. -/
def Value.toRat? : Value → Option ℚ
  | .integer n => some n.val
  | .decimal x => (Binary64.reading x).toRat?

section Values

variable {v w : Value}

theorem Value.Alike.isInteger_eq (h : v.Alike w) : v.isInteger = w.isInteger := by
  obtain rfl | ⟨x, y, rfl, rfl, -, -⟩ := h <;> rfl

theorem toRat?_of_isZero {x : Float} (h : Binary64.isZero x = true) :
    (Value.decimal x).toRat? = some 0 := by
  obtain ⟨s, hs⟩ := Binary64.isZero_iff.1 h
  exact Binary64.toRat?_of_unpack_zero hs

theorem Value.Alike.toRat?_eq (h : v.Alike w) : v.toRat? = w.toRat? := by
  obtain rfl | ⟨x, y, rfl, rfl, hx, hy⟩ := h
  · rfl
  · rw [toRat?_of_isZero hx, toRat?_of_isZero hy]

theorem Value.IsFinite.exists_toRat? (h : v.IsFinite) : ∃ q, v.toRat? = some q := by
  cases v with
  | integer n => exact ⟨n.val, rfl⟩
  | decimal x =>
      obtain ⟨negative, m, e, hreading⟩ := Binary64.exists_reading h
      rw [Value.toRat?, hreading]
      exact ⟨_, rfl⟩

theorem Value.Alike.isFinite (h : v.Alike w) (hw : w.IsFinite) : v.IsFinite := by
  obtain rfl | ⟨x, y, rfl, rfl, hx, -⟩ := h
  · exact hw
  · exact Binary64.isFinite_of_isZero hx

end Values

section Texts

variable {op : Operation} {lhs rhs : String} {e₁ e₂ : Expr} {v w : Value}

theorem toList_textWith :
    (op.textWith lhs rhs).toList =
      '(' :: (lhs.toList ++ ')' :: ' ' :: op.symbol :: ' ' :: '(' :: (rhs.toList ++ [')'])) := by
  simp [Operation.textWith]

theorem parse_textWith (hl : Spells lhs.toList e₁ v) (hr : Spells rhs.toList e₂ w) :
    Expr.parse (op.textWith lhs rhs) = .ok (.binary op e₁ e₂) := by
  obtain ⟨kinds₁, d₁, hderives₁, hdepth₁, hlexes₁⟩ := hl.derives
  obtain ⟨kinds₂, d₂, hderives₂, hdepth₂, hlexes₂⟩ := hr.derives
  have hleft : Expr.Derives .primary (.leftParen :: (kinds₁ ++ [.rightParen])) e₁ (d₁ + 1) :=
    .parens hderives₁.sum_of_signed
  have hright : Expr.Derives .primary (.leftParen :: (kinds₂ ++ [.rightParen])) e₂ (d₂ + 1) :=
    .parens hderives₂.sum_of_signed
  obtain ⟨depth, hdepth, hderives⟩ := Expr.derives_binary op hleft hright
  have hheight : (Expr.binary op e₁ e₂).height ≤ 3 := by
    have hheight₁ := hl.height
    have hheight₂ := hr.height
    rw [Expr.height]
    omega
  have hmax : Expr.maxDepth = 256 := rfl
  refine Expr.parse_of_lexes ?_ hderives (by omega) (by omega)
  rw [toList_textWith]
  have hend := (hlexes₂ [')'] (Token.ends_rightParen []).numeral).parens
  have hoperator := (Token.lexes_operator op _).trans ((Token.lexes_space _).trans hend)
  let behind : List Char := ' ' :: op.symbol :: ' ' :: '(' :: (rhs.toList ++ [')'])
  have hfirst := (hlexes₁ (')' :: behind) (Token.ends_rightParen behind).numeral).parens
  have hwhole := hfirst.trans ((Token.lexes_space _).trans hoperator)
  simpa using hwhole

theorem map_liftArithmetic {α β : Type} (r : Except ArithmeticError α) (f : α → β) :
    (liftArithmetic r).map f = liftArithmetic (r.map f) := by
  cases r <;> rfl

theorem calculate_eq {mode : NumberMode} (precision : ℕ) (hv : Value.readOperand lhs = .ok v)
    (hw : Value.readOperand rhs = .ok w) :
    calculate mode precision op lhs rhs =
      liftArithmetic ((op.apply mode (Session.coerce mode v) (Session.coerce mode w)).map
        (Value.format precision)) := by
  rw [calculate, hv, hw, ← map_liftArithmetic]
  rfl

theorem Spells.parse_eq (h : Spells lhs.toList e₁ v) : Expr.parse lhs = .ok e₁ := by
  obtain ⟨kinds, depth, hderives, hdepth, hlexes⟩ := h.derives
  have hheight := h.height
  have hmax : Expr.maxDepth = 256 := rfl
  have hwhole := hlexes [] Token.ends_nil.numeral
  rw [List.append_nil] at hwhole
  exact Expr.parse_of_lexes hwhole hderives.sum_of_signed (by omega) (by omega)

/-- An operand on its own is read as an expression with the same value. -/
theorem Spells.reads (h : Spells lhs.toList e₁ v) (mode : NumberMode) (hv : v.IsFinite)
    (hleast : mode = .exact → v.integer? ≠ some Width.int64.least) :
    ∃ e u q, Expr.parse lhs = .ok e ∧ (Session.fresh mode).evalExpr e = .ok u ∧
      u.isInteger = (Session.coerce mode v).isInteger ∧
      u.toRat? = some q ∧ (Session.coerce mode v).toRat? = some q := by
  obtain ⟨u, hu, halike⟩ := h.value (Session.fresh mode) hleast
  obtain ⟨q, hq⟩ := (proper_coerce mode hv).finite.exists_toRat?
  exact ⟨e₁, u, q, h.parse_eq, hu, halike.isInteger_eq, halike.toRat?_eq.trans hq, hq⟩

end Texts

namespace Session

/-- A calculation gives the text, or the fault, that evaluating its expression in a fresh session
gives; and each operand is read as an expression whose value is of the same kind as the operand and
equal to it. In exact mode no operand may be the least integer, which no literal is the negative
of. -/
theorem calculate_eq_eval (mode : NumberMode) (precision : ℕ) (op : Operation) (lhs rhs : String)
    (v w : Value) (hv : Value.readOperand lhs = .ok v) (hw : Value.readOperand rhs = .ok w)
    (hleast : mode = .exact → v.integer? ≠ some Width.int64.least ∧
      w.integer? ≠ some Width.int64.least) :
    calculate mode precision op lhs rhs =
        ((fresh mode).eval (op.textWith lhs rhs)).map (fun result => result.1.format precision) ∧
      ∀ operand ∈ [(lhs, v), (rhs, w)], ∃ e u q, Expr.parse operand.1 = .ok e ∧
        (fresh mode).evalExpr e = .ok u ∧
        u.isInteger = (coerce mode operand.2).isInteger ∧
        u.toRat? = some q ∧ (coerce mode operand.2).toRat? = some q := by
  obtain ⟨e₁, hl⟩ := exists_spells_text hv
  obtain ⟨e₂, hr⟩ := exists_spells_text hw
  have hfinite₁ := isFinite_of_readOperand hv
  have hfinite₂ := isFinite_of_readOperand hw
  constructor
  · obtain ⟨u₁, hu₁, halike₁⟩ := hl.value (fresh mode) fun h => (hleast h).1
    obtain ⟨u₂, hu₂, halike₂⟩ := hr.value (fresh mode) fun h => (hleast h).2
    have hcoerced₁ := (proper_coerce mode hfinite₁).finite
    have hcoerced₂ := (proper_coerce mode hfinite₂).finite
    have happly : (op.apply mode u₁ u₂).map (Value.format precision) =
        (op.apply mode (coerce mode v) (coerce mode w)).map (Value.format precision) :=
      format_apply halike₁ halike₂ hcoerced₁ (halike₂.isFinite hcoerced₂)
    have hvalue : (fresh mode).evalExpr (.binary op e₁ e₂) =
        liftArithmetic (op.apply mode u₁ u₂) := by
      rw [evalExpr, hu₁, hu₂]
      rfl
    rw [calculate_eq precision hv hw, ← happly, eval_expression (parse_textWith hl hr), hvalue]
    cases op.apply mode u₁ u₂ <;> rfl
  · intro operand hoperand
    simp only [List.mem_cons, List.not_mem_nil, or_false] at hoperand
    rcases hoperand with rfl | rfl
    · exact hl.reads mode hfinite₁ fun h => (hleast h).1
    · exact hr.reads mode hfinite₂ fun h => (hleast h).2

/-- In exact mode `-6` by itself is an integer, and the negative of one in an expression. -/
theorem calculate_eq_eval_quotient :
    let minusSix : Integer := ⟨-6, by decide +kernel, by decide +kernel⟩
    Value.readOperand "-6" = .ok (.integer minusSix) ∧
      Value.readOperand " +2.5e1\t" = .ok (.decimal (Binary64.ofInt 25)) ∧
      (Value.integer minusSix).integer? ≠ some Width.int64.least ∧
      calculate .exact 10 .divide "-6" " +2.5e1\t" =
        ((fresh .exact).eval (Operation.divide.textWith "-6" " +2.5e1\t")).map
          fun result => result.1.format 10 := by
  intro minusSix
  have hlhs : Value.readOperand "-6" = .ok (.integer minusSix) := by rfl
  have hrhs : Value.readOperand " +2.5e1\t" = .ok (.decimal (Binary64.ofInt 25)) := by rfl
  have hleast : (Value.integer minusSix).integer? ≠ some Width.int64.least := by
    decide +kernel
  have hdecimal : (Value.decimal (Binary64.ofInt 25)).integer? ≠ some Width.int64.least := by
    rintro ⟨⟩
  exact ⟨hlhs, hrhs, hleast, (calculate_eq_eval .exact 10 .divide "-6" " +2.5e1\t" _ _ hlhs hrhs
    fun _ => ⟨hleast, hdecimal⟩).1⟩

end Session

end Abacus
