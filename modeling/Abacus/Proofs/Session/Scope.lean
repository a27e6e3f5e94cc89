import Abacus.Proofs.Session.Evaluation
import Abacus.Proofs.Session.ExactValue

/-!
# Which node of an expression fails

The nodes of an expression are evaluated one after the other: operands from left to right, and an
operation behind its operands. The error of an expression is that of the first node that fails. So a
name is reported as unknown only where it stands for nothing, and where every name stands for
something, nothing but arithmetic can fail.
-/

namespace Abacus

namespace Expr

/-- An expression and all the expressions in it, in the order in which they are evaluated. -/
def evaluationOrder : Expr → List Expr
  | .literal v => [.literal v]
  | .variable name => [.variable name]
  | .negate operand => operand.evaluationOrder ++ [.negate operand]
  | .binary op lhs rhs => lhs.evaluationOrder ++ rhs.evaluationOrder ++ [.binary op lhs rhs]
  | .call function argument => argument.evaluationOrder ++ [.call function argument]

theorem evaluationOrder_perm (e : Expr) : e.evaluationOrder.Perm e.subexpressions := by
  induction e with
  | literal v => exact .refl _
  | «variable» name => exact .refl _
  | negate operand ih => exact (List.perm_append_singleton _ _).trans (ih.cons _)
  | binary op lhs rhs ihl ihr =>
      exact (List.perm_append_singleton _ _).trans ((ihl.append ihr).cons _)
  | call function argument ih => exact (List.perm_append_singleton _ _).trans (ih.cons _)

theorem mem_evaluationOrder_self (e : Expr) : e ∈ e.evaluationOrder :=
  e.evaluationOrder_perm.mem_iff.2 e.mem_subexpressions_self

end Expr

theorem Function.ofName?_eq_none {text : String} :
    ofName? text = none ↔ text ∉ all.map Function.name := by
  simp [ofName?, List.find?_eq_none]

theorem find?_constants_eq_none {name : String} :
    constants.find? (·.1 == name) = none ↔ name ∉ constants.map (·.1) := by
  rw [List.find?_eq_none, List.mem_map]
  simp only [beq_iff_eq, not_exists, not_and]

namespace Session

/-- A name that stands for nothing in a session. -/
structure Unbound (s : Session) (name : String) : Prop where
  not_answer : name ≠ answerName
  not_variable : s.bindings.find? name = none
  not_constant : name ∉ constants.map (·.1)

def HasValue (s : Session) (e : Expr) : Prop := ∃ v, s.evalExpr e = .ok v

/-- A node whose operands have values fails itself. -/
inductive Fails (s : Session) : Expr → EvalError → Prop where
  | unbound {name : String} : s.Unbound name → Fails s (.variable name) (.unknownVariable name)
  | negate {operand : Expr} {v : Value} {err : ArithmeticError} :
      s.evalExpr operand = .ok v → Session.negate v = .error err →
      Fails s (.negate operand) (.arithmetic err)
  | binary {op : Operation} {lhs rhs : Expr} {v w : Value} {err : ArithmeticError} :
      s.evalExpr lhs = .ok v → s.evalExpr rhs = .ok w → op.apply s.mode v w = .error err →
      Fails s (.binary op lhs rhs) (.arithmetic err)
  | call {f : Function} {argument : Expr} {v : Value} {err : ArithmeticError} :
      s.evalExpr argument = .ok v → applyFunction s.mode f v = .error err →
      Fails s (.call f.name argument) (.arithmetic err)
  | unknown {function : String} {argument : Expr} {v : Value} :
      s.evalExpr argument = .ok v → function ∉ Function.all.map Function.name →
      Fails s (.call function argument) (.unknownFunction function)

/-- The first of some nodes that has no value fails with the given error. -/
def FirstFault (s : Session) (nodes : List Expr) (err : EvalError) : Prop :=
  ∃ before node after, nodes = before ++ node :: after ∧ (∀ d ∈ before, s.HasValue d) ∧
    s.Fails node err

variable {s : Session} {err : EvalError} {e : Expr} {xs ys : List Expr}

/-! ## How each form of expression fails -/

section Errors

theorem lookup_eq_error {name : String} :
    s.lookup name = .error err ↔ s.Unbound name ∧ err = .unknownVariable name := by
  unfold lookup
  split_ifs with hanswer
  · exact iff_of_false nofun fun h => h.1.not_answer hanswer
  cases hfind : s.bindings.find? name with
  | some v =>
      refine iff_of_false nofun fun h => ?_
      rw [h.1.not_variable] at hfind
      cases hfind
  | none =>
      cases hconstant : constants.find? (·.1 == name) with
      | some entry =>
          refine iff_of_false nofun fun h => ?_
          rw [find?_constants_eq_none.2 h.1.not_constant] at hconstant
          cases hconstant
      | none =>
          have hunbound : s.Unbound name := ⟨hanswer, hfind, find?_constants_eq_none.1 hconstant⟩
          simp [hunbound, eq_comm]

theorem evalExpr_variable_eq_error {name : String} :
    s.evalExpr (.variable name) = .error err ↔ s.Fails (.variable name) err := by
  rw [evalExpr, lookup_eq_error]
  constructor
  · rintro ⟨hunbound, rfl⟩
    exact .unbound hunbound
  · intro hfails
    cases hfails with
    | unbound hunbound => exact ⟨hunbound, rfl⟩

theorem liftArithmetic_eq_error {α : Type} {r : Except ArithmeticError α} :
    liftArithmetic r = .error err ↔ ∃ fault, r = .error fault ∧ err = .arithmetic fault := by
  cases r <;> simp [liftArithmetic, eq_comm]

theorem evalExpr_negate_eq_error {operand : Expr} :
    s.evalExpr (.negate operand) = .error err ↔
      s.evalExpr operand = .error err ∨
        s.HasValue operand ∧ s.Fails (.negate operand) err := by
  rw [evalExpr, bind_eq_error]
  simp only [liftArithmetic_eq_error]
  refine or_congr_right ⟨?_, ?_⟩
  · rintro ⟨v, hv, fault, hfault, rfl⟩
    exact ⟨⟨v, hv⟩, .negate hv hfault⟩
  · rintro ⟨-, hfails⟩
    cases hfails with
    | negate hv hfault => exact ⟨_, hv, _, hfault, rfl⟩

theorem evalExpr_binary_eq_error {op : Operation} {lhs rhs : Expr} :
    s.evalExpr (.binary op lhs rhs) = .error err ↔
      (s.evalExpr lhs = .error err ∨ s.HasValue lhs ∧ s.evalExpr rhs = .error err) ∨
        (s.HasValue lhs ∧ s.HasValue rhs) ∧ s.Fails (.binary op lhs rhs) err := by
  rw [evalExpr, bind_eq_error, or_assoc]
  simp only [bind_eq_error, liftArithmetic_eq_error]
  refine or_congr_right ⟨?_, ?_⟩
  · rintro ⟨v, hv, hrhs | ⟨w, hw, fault, hfault, rfl⟩⟩
    · exact Or.inl ⟨⟨v, hv⟩, hrhs⟩
    · exact Or.inr ⟨⟨⟨v, hv⟩, w, hw⟩, .binary hv hw hfault⟩
  · rintro (⟨⟨v, hv⟩, hrhs⟩ | ⟨-, hfails⟩)
    · exact ⟨v, hv, Or.inl hrhs⟩
    · cases hfails with
      | binary hv hw hfault => exact ⟨_, hv, Or.inr ⟨_, hw, _, hfault, rfl⟩⟩

theorem evalExpr_call_eq_error {function : String} {argument : Expr} :
    s.evalExpr (.call function argument) = .error err ↔
      s.evalExpr argument = .error err ∨
        s.HasValue argument ∧ s.Fails (.call function argument) err := by
  rw [evalExpr, bind_eq_error]
  refine or_congr_right ⟨?_, ?_⟩
  · rintro ⟨v, hv, hcall⟩
    refine ⟨⟨v, hv⟩, ?_⟩
    unfold call at hcall
    cases hname : Function.ofName? function with
    | none =>
        rw [hname] at hcall
        cases hcall
        exact .unknown hv (Function.ofName?_eq_none.1 hname)
    | some f =>
        rw [hname] at hcall
        obtain ⟨fault, hfault, rfl⟩ := liftArithmetic_eq_error.1 hcall
        obtain rfl := Function.name_of_ofName? hname
        exact .call hv hfault
  · rintro ⟨-, hfails⟩
    cases hfails with
    | @call f _ v fault hv hfault =>
        refine ⟨v, hv, ?_⟩
        rw [call, Function.ofName?_name]
        exact liftArithmetic_eq_error.2 ⟨fault, hfault, rfl⟩
    | @unknown _ _ v hv hunknown =>
        refine ⟨v, hv, ?_⟩
        rw [call, Function.ofName?_eq_none.2 hunknown]

end Errors

/-! ## The first node that fails -/

section Order

theorem firstFault_append :
    s.FirstFault (xs ++ ys) err ↔
      s.FirstFault xs err ∨ (∀ d ∈ xs, s.HasValue d) ∧ s.FirstFault ys err := by
  constructor
  · rintro ⟨before, node, after, hnodes, hbefore, hfails⟩
    rcases List.append_eq_append_iff.1 hnodes with ⟨more, rfl, rfl⟩ | ⟨more, rfl, hmore⟩
    · obtain ⟨hxs, hmore⟩ := List.forall_mem_append.1 hbefore
      exact Or.inr ⟨hxs, more, node, after, rfl, hmore, hfails⟩
    · cases more with
      | nil =>
          rw [List.append_nil]
          exact Or.inr ⟨hbefore, [], node, after, hmore.symm, by simp, hfails⟩
      | cons first more =>
          cases hmore
          exact Or.inl ⟨before, node, more, rfl, hbefore, hfails⟩
  · rintro (⟨before, node, after, rfl, hbefore, hfails⟩ |
      ⟨hxs, before, node, after, rfl, hbefore, hfails⟩)
    · exact ⟨before, node, after ++ ys, by simp, hbefore, hfails⟩
    · exact ⟨xs ++ before, node, after, by simp, List.forall_mem_append.2 ⟨hxs, hbefore⟩, hfails⟩

theorem firstFault_singleton : s.FirstFault [e] err ↔ s.Fails e err := by
  constructor
  · rintro ⟨before, node, after, hnodes, -, hfails⟩
    rcases List.append_eq_singleton_iff.1 hnodes.symm with ⟨-, hnode⟩ | ⟨-, hnode⟩
    · cases hnode
      exact hfails
    · cases hnode
  · intro hfails
    exact ⟨[], e, [], rfl, by simp, hfails⟩

/-- An expression has a value exactly if all of its nodes have. -/
theorem forall_hasValue : (∀ d ∈ e.evaluationOrder, s.HasValue d) ↔ s.HasValue e := by
  refine ⟨fun h => h e e.mem_evaluationOrder_self, ?_⟩
  intro he
  induction e with
  | literal v => exact List.forall_mem_singleton.2 he
  | «variable» name => exact List.forall_mem_singleton.2 he
  | negate operand ih =>
      obtain ⟨v, hv⟩ := he
      obtain ⟨x, hx, -⟩ := evalExpr_negate_eq_ok.1 hv
      exact List.forall_mem_append.2 ⟨ih ⟨x, hx⟩, List.forall_mem_singleton.2 ⟨v, hv⟩⟩
  | binary op lhs rhs ihl ihr =>
      obtain ⟨v, hv⟩ := he
      obtain ⟨x, y, hx, hy, -⟩ := evalExpr_binary_eq_ok.1 hv
      have hoperands := List.forall_mem_append.2 ⟨ihl ⟨x, hx⟩, ihr ⟨y, hy⟩⟩
      exact List.forall_mem_append.2 ⟨hoperands, List.forall_mem_singleton.2 ⟨v, hv⟩⟩
  | call function argument ih =>
      obtain ⟨v, hv⟩ := he
      obtain ⟨x, f, hx, -⟩ := evalExpr_call_eq_ok.1 hv
      exact List.forall_mem_append.2 ⟨ih ⟨x, hx⟩, List.forall_mem_singleton.2 ⟨v, hv⟩⟩

theorem evalExpr_eq_error :
    s.evalExpr e = .error err ↔ s.FirstFault e.evaluationOrder err := by
  induction e with
  | literal v =>
      rw [Expr.evaluationOrder, firstFault_singleton]
      exact iff_of_false nofun nofun
  | «variable» name =>
      rw [Expr.evaluationOrder, firstFault_singleton, evalExpr_variable_eq_error]
  | negate operand ih =>
      rw [Expr.evaluationOrder, firstFault_append, firstFault_singleton, forall_hasValue, ← ih,
        evalExpr_negate_eq_error]
  | binary op lhs rhs ihl ihr =>
      rw [Expr.evaluationOrder, firstFault_append, firstFault_append, firstFault_singleton,
        List.forall_mem_append, forall_hasValue, forall_hasValue, ← ihl, ← ihr,
        evalExpr_binary_eq_error]
  | call function argument ih =>
      rw [Expr.evaluationOrder, firstFault_append, firstFault_singleton, forall_hasValue, ← ih,
        evalExpr_call_eq_error]

theorem exists_fails (h : s.evalExpr e = .error err) :
    ∃ node ∈ e.subexpressions, s.Fails node err := by
  obtain ⟨before, node, after, horder, -, hfails⟩ := evalExpr_eq_error.1 h
  refine ⟨node, e.evaluationOrder_perm.mem_iff.1 ?_, hfails⟩
  rw [horder]
  simp

end Order

/-- In every session, whatever it binds, an expression fails exactly as the first of its nodes that
fails. A name is reported as unknown only if it is mentioned and stands for nothing, a function only
if it is called, on an argument that has a value, and is none of the calculator's own. Where all
names and functions are known, an expression has a value or fails in arithmetic. -/
theorem fails_at_first_node (s : Session) (e : Expr) :
    (∀ name, s.evalExpr e = .error (.unknownVariable name) →
      .variable name ∈ e.subexpressions ∧ s.Unbound name) ∧
    (∀ function, s.evalExpr e = .error (.unknownFunction function) →
      function ∉ Function.all.map Function.name ∧
        ∃ argument v, .call function argument ∈ e.subexpressions ∧
          s.evalExpr argument = .ok v) ∧
    ((∀ name, .variable name ∈ e.subexpressions → ¬s.Unbound name) →
      (∀ function argument, .call function argument ∈ e.subexpressions →
        function ∈ Function.all.map Function.name) →
      (∃ v, s.evalExpr e = .ok v) ∨ ∃ fault, s.evalExpr e = .error (.arithmetic fault)) ∧
    ∀ err, s.evalExpr e = .error err ↔
      ∃ before node after, e.evaluationOrder = before ++ node :: after ∧
        (∀ d ∈ before, ∃ v, s.evalExpr d = .ok v) ∧ s.Fails node err := by
  refine ⟨?_, ?_, ?_, fun err => evalExpr_eq_error⟩
  · intro name h
    obtain ⟨node, hnode, hfails⟩ := exists_fails h
    cases hfails with
    | unbound hunbound => exact ⟨hnode, hunbound⟩
  · intro function h
    obtain ⟨node, hnode, hfails⟩ := exists_fails h
    cases hfails with
    | unknown hv hunknown => exact ⟨hunknown, _, _, hnode, hv⟩
  · intro hnames hfunctions
    cases h : s.evalExpr e with
    | ok v => exact Or.inl ⟨v, rfl⟩
    | error err =>
        obtain ⟨node, hnode, hfails⟩ := exists_fails h
        cases hfails with
        | unbound hunbound => exact absurd hunbound (hnames _ hnode)
        | unknown _ hunknown => exact absurd (hfunctions _ _ hnode) hunknown
        | _ => exact Or.inr ⟨_, rfl⟩

/-- The name `y` in `y + 1 / 0` is reported, and not the division behind it. -/
example : (fresh .exact).evalExpr (.binary .add (.variable "y")
    (.binary .divide (.literal .zero) (.literal .zero))) = .error (.unknownVariable "y") := by
  rfl

end Session

end Abacus
