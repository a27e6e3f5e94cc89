import Abacus.Proofs.Except
import Abacus.Session.Basic

/-!
# When an evaluation succeeds

What has to succeed on the way to a value, for each form of expression, for a text and for a line.
-/

namespace Abacus

theorem liftArithmetic_eq_ok {α : Type} {r : Except ArithmeticError α} {a : α} :
    liftArithmetic r = .ok a ↔ r = .ok a := by
  cases r <;> simp [liftArithmetic]

theorem liftSyntax_eq_ok {α : Type} {r : Except SyntaxError α} {a : α} :
    liftSyntax r = .ok a ↔ r = .ok a := by
  cases r <;> simp [liftSyntax]

@[simp] theorem Function.ofName?_name (f : Function) : ofName? f.name = some f := by
  cases f <;> decide

theorem Function.name_of_ofName? {f : Function} {text : String} (h : ofName? text = some f) :
    f.name = text := by
  simpa using List.find?_some h

namespace Session

variable {s : Session} {v : Value}

theorem coerce_exact (v : Value) : coerce .exact v = v := by
  cases v <;> rfl

/-- A name stands for the answer, for a variable, or for a constant that no variable hides. -/
theorem lookup_eq_ok {name : String} :
    s.lookup name = .ok v ↔
      (name = answerName ∧ v = coerce s.mode s.answer) ∨
      (name ≠ answerName ∧ ∃ x, s.bindings.find? name = some x ∧ v = coerce s.mode x) ∨
      (name ≠ answerName ∧ s.bindings.find? name = none ∧
        ∃ entry, constants.find? (·.1 == name) = some entry ∧ v = .decimal entry.2) := by
  unfold lookup
  by_cases hanswer : name = answerName
  · simp [hanswer, eq_comm]
  rw [if_neg hanswer]
  cases s.bindings.find? name with
  | some x => simp [hanswer, eq_comm]
  | none =>
      cases constants.find? (·.1 == name) with
      | some entry => simp [hanswer, eq_comm]
      | none => simp [hanswer]

theorem call_eq_ok {mode : NumberMode} {name : String} {x : Value} :
    call mode name x = .ok v ↔
      ∃ f, Function.ofName? name = some f ∧ applyFunction mode f x = .ok v := by
  unfold call
  cases Function.ofName? name with
  | none => simp
  | some f => simp [liftArithmetic_eq_ok]

theorem evalExpr_negate_eq_ok {operand : Expr} :
    s.evalExpr (.negate operand) = .ok v ↔
      ∃ x, s.evalExpr operand = .ok x ∧ negate x = .ok v := by
  rw [evalExpr, bind_eq_ok]
  simp only [liftArithmetic_eq_ok]

theorem evalExpr_binary_eq_ok {op : Operation} {lhs rhs : Expr} :
    s.evalExpr (.binary op lhs rhs) = .ok v ↔
      ∃ x y, s.evalExpr lhs = .ok x ∧ s.evalExpr rhs = .ok y ∧ op.apply s.mode x y = .ok v := by
  rw [evalExpr, bind_eq_ok]
  simp only [bind_eq_ok, liftArithmetic_eq_ok, exists_and_left]

theorem evalExpr_call_eq_ok {function : String} {argument : Expr} :
    s.evalExpr (.call function argument) = .ok v ↔
      ∃ x f, s.evalExpr argument = .ok x ∧ Function.ofName? function = some f ∧
        applyFunction s.mode f x = .ok v := by
  rw [evalExpr, bind_eq_ok]
  simp only [call_eq_ok, exists_and_left]

theorem evalText_eq_ok {text : String} :
    s.evalText text = .ok v ↔ ∃ e, Expr.parse text = .ok e ∧ s.evalExpr e = .ok v := by
  rw [evalText, bind_eq_ok]
  simp only [liftSyntax_eq_ok]

/-- A line that succeeds has a value: that of its expression, which becomes the answer and, in an
assignment, the value of a name that is not reserved. -/
theorem eval_eq_ok {line : String} {next : Session} :
    s.eval line = .ok (v, next) ↔
      (∃ name expression, Assignment.split? line = some (name, expression) ∧
        isReserved name = false ∧ s.evalText expression = .ok v ∧
        next = { s with bindings := s.bindings.insert name v, answer := v }) ∨
      (Assignment.split? line = none ∧ s.evalText line = .ok v ∧
        next = { s with answer := v }) := by
  unfold eval
  cases hsplit : Assignment.split? line with
  | none =>
      simp only [bind_eq_ok, Except.ok.injEq, Prod.mk.injEq]
      constructor
      · rintro ⟨x, hx, rfl, rfl⟩
        exact Or.inr ⟨trivial, hx, rfl⟩
      · rintro (⟨_, _, h, -⟩ | ⟨-, hx, rfl⟩)
        · cases h
        · exact ⟨v, hx, rfl, rfl⟩
  | some parts =>
      obtain ⟨name, expression⟩ := parts
      cases hreserved : isReserved name with
      | true =>
          simp only [hreserved, if_true]
          constructor
          · intro h
            cases h
          · rintro (⟨other, _, h, hfree, -⟩ | ⟨h, -⟩)
            · cases h
              rw [hreserved] at hfree
              cases hfree
            · cases h
      | false =>
          simp only [hreserved, Bool.false_eq_true, if_false, bind_eq_ok, Except.ok.injEq,
            Prod.mk.injEq]
          constructor
          · rintro ⟨x, hx, rfl, rfl⟩
            exact Or.inl ⟨name, expression, rfl, hreserved, hx, rfl⟩
          · rintro (⟨_, _, h, -, hx, rfl⟩ | ⟨h, -⟩)
            · cases h
              exact ⟨v, hx, rfl, rfl⟩
            · cases h

end Session

end Abacus
