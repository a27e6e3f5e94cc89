import Abacus.Proofs.Number.Whole
import Abacus.Proofs.Session.Exactness

/-!
# The two modes on small integers

Where all that an expression of integers is computed from has no more than 53 binary digits, the two
modes agree on it. An operation on two such integers is exact in doubles as soon as its result is
one of them too, and then neither the check for a zero divisor nor the one for finite results makes
a difference.
-/

namespace Abacus

/-- Integers with signs, `+`, `-`, `*`, `/`, `%`, `abs` and `square`. -/
inductive Expr.Elementary : Expr → Prop where
  | literal (n : Integer) : Elementary (.literal (.integer n))
  | negate {operand : Expr} : Elementary operand → Elementary (.negate operand)
  | binary {op : Operation} {lhs rhs : Expr} : op ≠ .power → Elementary lhs → Elementary rhs →
      Elementary (.binary op lhs rhs)
  | call {function : String} {argument : Expr} : function = "abs" ∨ function = "square" →
      Elementary argument → Elementary (.call function argument)

open Binary64 (Denotes unpack)

section Operations

variable {op : Operation} {x y : Float} {a b n : ℤ}

theorem denotes_double (hop : op ≠ .power) (hx : Denotes (unpack x) a) (hy : Denotes (unpack y) b)
    (hvalue : op.rational? a b = some (n : ℚ)) (hsize : n.natAbs ≤ 2 ^ 53) :
    Denotes (unpack (op.double x y)) n := by
  cases op with
  | add =>
      obtain rfl := Operation.rational?_add_eq_some.1 hvalue
      exact Binary64.denotes_pack (Binary64.denotes_add hx hy hsize)
  | subtract =>
      obtain rfl := Operation.rational?_subtract_eq_some.1 hvalue
      exact Binary64.denotes_pack (Binary64.denotes_sub hx hy hsize)
  | multiply =>
      obtain rfl := Operation.rational?_multiply_eq_some.1 hvalue
      exact Binary64.denotes_pack (Binary64.denotes_mul hx hy hsize)
  | divide =>
      obtain ⟨hb, rfl⟩ := Operation.rational?_divide_eq_some.1 hvalue
      exact Binary64.denotes_pack (Binary64.denotes_div hx hy hb hsize)
  | remainder =>
      obtain ⟨hb, rfl⟩ := Operation.rational?_remainder_eq_some.1 hvalue
      exact Binary64.denotes_pack (Binary64.denotes_remainder hx hy hb hsize)
  | power => exact absurd rfl hop

/-- A divisor that is an integer other than zero is not taken for zero. -/
theorem isZero_eq_false (hy : Denotes (unpack y) b) (hvalue : op.rational? a b = some (n : ℚ))
    (hop : op = .divide ∨ op = .remainder) : Binary64.isZero y = false := by
  have hb : b ≠ 0 := by
    rcases hop with rfl | rfl
    · exact (Operation.rational?_divide_eq_some.1 hvalue).1
    · exact (Operation.rational?_remainder_eq_some.1 hvalue).1
  rw [Binary64.isZero_of_denotes hy, decide_eq_false hb]

/-- An operation on small integers that are taken as doubles gives the exact result. -/
theorem applyFloats_of_denotes (hop : op ≠ .power) (hx : Denotes (unpack x) a)
    (hy : Denotes (unpack y) b) (hvalue : op.rational? a b = some (n : ℚ))
    (hsize : n.natAbs ≤ 2 ^ 53) :
    ∃ z, applyFloats op x y = .ok (.decimal z) ∧ Denotes (unpack z) n := by
  have hdenotes := denotes_double hop hx hy hvalue hsize
  have hfinite := Binary64.isFinite_of_denotes hdenotes
  exact ⟨_, applyFloats_eq_double hop (isZero_eq_false hy hvalue) hfinite, hdenotes⟩

theorem applyFunction_of_denotes {f : Function} (hvalue : f.rational? a = some (n : ℚ))
    (hx : Denotes (unpack x) a) (hsize : n.natAbs ≤ 2 ^ 53) :
    ∃ z, Session.applyFunction .float f (.decimal x) = .ok (.decimal z) ∧
      Denotes (unpack z) n := by
  cases f with
  | sqrt => cases hvalue
  | percent => cases hvalue
  | square =>
      obtain rfl := Function.rational?_square_eq_some.1 hvalue
      have hsquare := Binary64.denotes_square hx hsize
      have hresult := Binary64.finiteResult?_of_denotes hsquare x.isFinite
      refine ⟨Binary64.wholePow x 2, ?_, hsquare⟩
      exact congrArg (fun r => (Arithmetic.orOverflow .power r).map Value.decimal) hresult
  | abs =>
      obtain rfl := Function.rational?_abs_eq_some.1 hvalue
      exact ⟨x.abs, rfl, Binary64.denotes_abs_float hx⟩

end Operations

namespace Session

/-- In the session `t` an expression has the integer that it has in `s`, as a double. -/
def AgreesAt (s t : Session) (e : Expr) : Prop :=
  ∀ n : Integer, s.evalExpr e = .ok (.integer n) →
    ∃ x, t.evalExpr e = .ok (.decimal x) ∧ Denotes (unpack x) n.val

/-- The integers that an expression and its parts have in a session are no greater than `2 ^ 53`. -/
def Small (s : Session) (e : Expr) : Prop :=
  ∀ d ∈ e.subexpressions, ∀ m : Integer, s.evalExpr d = .ok (.integer m) → |m.val| ≤ 2 ^ 53

section Agreement

variable {s t : Session} {e operand lhs rhs : Expr} {n : Integer}

theorem Small.natAbs_le (h : s.Small e) (hn : s.evalExpr e = .ok (.integer n)) :
    n.val.natAbs ≤ 2 ^ 53 := by
  have hle := h e e.mem_subexpressions_self n hn
  rw [Int.abs_eq_natAbs] at hle
  exact_mod_cast hle

theorem Small.of_mem {d : Expr} (h : s.Small e) (hd : d ∈ e.subexpressions) : s.Small d :=
  fun c hc => h c (Expr.subexpressions_subset hd hc)

theorem agreesAt_literal (ht : t.mode = .float) (hs : s.mode = .exact)
    (hsmall : s.Small (.literal (.integer n))) : s.AgreesAt t (.literal (.integer n)) := by
  intro m hm
  have hsize := hsmall.natAbs_le hm
  rw [evalExpr, hs] at hm
  cases hm
  refine ⟨Binary64.ofInt n.val, ?_, Binary64.denotes_ofInt hsize⟩
  rw [evalExpr, ht]
  rfl

theorem agreesAt_negate (ih : s.AgreesAt t operand) : s.AgreesAt t (.negate operand) := by
  intro n hn
  obtain ⟨v, hv, hnegate⟩ := evalExpr_negate_eq_ok.1 hn
  obtain ⟨m, rfl, hvalue⟩ := negate_eq_integer.1 hnegate
  obtain ⟨x, hx, hdenotes⟩ := ih m hv
  refine ⟨-x, evalExpr_negate_eq_ok.2 ⟨_, hx, rfl⟩, ?_⟩
  rw [hvalue]
  exact Binary64.denotes_neg_float hdenotes

theorem agreesAt_binary {op : Operation} (hs : s.mode = .exact) (ht : t.mode = .float)
    (hop : op ≠ .power) (hsmall : s.Small (.binary op lhs rhs)) (ihl : s.AgreesAt t lhs)
    (ihr : s.AgreesAt t rhs) : s.AgreesAt t (.binary op lhs rhs) := by
  intro n hn
  have hsize := hsmall.natAbs_le hn
  obtain ⟨v, w, hv, hw, happly⟩ := evalExpr_binary_eq_ok.1 hn
  rw [hs] at happly
  obtain ⟨a, b, rfl, rfl, hvalue, -⟩ := apply_eq_integer.1 happly
  obtain ⟨x, hx, hdenotesx⟩ := ihl a hv
  obtain ⟨y, hy, hdenotesy⟩ := ihr b hw
  obtain ⟨z, hz, hdenotes⟩ := applyFloats_of_denotes hop hdenotesx hdenotesy hvalue hsize
  refine ⟨z, evalExpr_binary_eq_ok.2 ⟨_, _, hx, hy, ?_⟩, hdenotes⟩
  rw [ht]
  exact hz

theorem agreesAt_call {function : String} (hs : s.mode = .exact) (ht : t.mode = .float)
    (hfunction : function = "abs" ∨ function = "square")
    (hsmall : s.Small (.call function operand)) (ih : s.AgreesAt t operand) :
    s.AgreesAt t (.call function operand) := by
  intro n hn
  have hsize := hsmall.natAbs_le hn
  obtain ⟨v, f, hv, hf, happly⟩ := evalExpr_call_eq_ok.1 hn
  have hname := Function.name_of_ofName? hf
  have hsqrt : f ≠ .sqrt := by
    rintro rfl
    rcases hfunction with rfl | rfl <;> revert hname <;> decide
  have hpercent : f ≠ .percent := by
    rintro rfl
    rcases hfunction with rfl | rfl <;> revert hname <;> decide
  rw [hs] at happly
  obtain ⟨m, rfl, hvalue⟩ := (applyFunction_eq_integer hsqrt hpercent).1 happly
  obtain ⟨x, hx, hdenotesx⟩ := ih m hv
  obtain ⟨z, hz, hdenotes⟩ := applyFunction_of_denotes hvalue hdenotesx hsize
  refine ⟨z, evalExpr_call_eq_ok.2 ⟨_, f, hx, hf, ?_⟩, hdenotes⟩
  rw [ht]
  exact hz

theorem agreesAt (hs : s.mode = .exact) (ht : t.mode = .float) (he : e.Elementary)
    (hsmall : s.Small e) : s.AgreesAt t e := by
  induction he with
  | literal n => exact agreesAt_literal ht hs hsmall
  | @negate operand _ ih =>
      have hoperand := List.mem_cons_of_mem (.negate operand) operand.mem_subexpressions_self
      exact agreesAt_negate (ih (hsmall.of_mem hoperand))
  | @binary op lhs rhs hop _ _ ihl ihr =>
      have hlhs := List.mem_cons_of_mem (.binary op lhs rhs)
        (List.mem_append_left rhs.subexpressions lhs.mem_subexpressions_self)
      have hrhs := List.mem_cons_of_mem (.binary op lhs rhs)
        (List.mem_append_right lhs.subexpressions rhs.mem_subexpressions_self)
      exact agreesAt_binary hs ht hop hsmall (ihl (hsmall.of_mem hlhs)) (ihr (hsmall.of_mem hrhs))
  | @call function argument hfunction _ ih =>
      have hargument := List.mem_cons_of_mem (.call function argument)
        argument.mem_subexpressions_self
      exact agreesAt_call hs ht hfunction hsmall (ih (hsmall.of_mem hargument))

end Agreement

/-- The two modes agree on small integers. If an elementary expression has an integer in exact mode,
and nothing that it is computed from is greater than `2 ^ 53`, then it has a double in float mode,
and that is equal to the integer. There is an integer only where every division comes out even. -/
theorem modes_agree (s t : Session) (hs : s.mode = .exact) (ht : t.mode = .float) (e : Expr)
    (he : e.Elementary) (n : Integer) (hn : s.evalExpr e = .ok (.integer n))
    (hsmall : ∀ d ∈ e.subexpressions, ∀ m : Integer, s.evalExpr d = .ok (.integer m) →
      |m.val| ≤ 2 ^ 53) :
    ∃ x, t.evalExpr e = .ok (.decimal x) ∧ (Binary64.reading x).toRat? = some (n.val : ℚ) := by
  obtain ⟨x, hx, hdenotes⟩ := agreesAt hs ht he hsmall n hn
  exact ⟨x, hx, Binary64.toRat?_of_denotes hdenotes⟩

/-- The remainder of `-6` and `3` is the integer `0` in exact mode and a double that is equal to it
in float mode. -/
theorem modes_agree_remainder :
    let six : Integer := ⟨6, by decide +kernel, by decide +kernel⟩
    let three : Integer := ⟨3, by decide +kernel, by decide +kernel⟩
    let e : Expr := .binary .remainder (.negate (.literal (.integer six)))
      (.literal (.integer three))
    e.Elementary ∧ (fresh .exact).evalExpr e = .ok (.integer Word.zero) ∧
      (fresh .exact).Small e ∧
      ∃ x, (fresh .float).evalExpr e = .ok (.decimal x) ∧
        (Binary64.reading x).toRat? = some ((0 : ℤ) : ℚ) := by
  intro six three e
  have helementary : e.Elementary :=
    .binary (by decide) (.negate (.literal six)) (.literal three)
  have hvalue : (fresh .exact).evalExpr e = .ok (.integer Word.zero) := rfl
  have hsmall : (fresh .exact).Small e := by
    intro d hd m hm
    simp only [e, Expr.subexpressions, List.cons_append, List.nil_append, List.mem_cons,
      List.not_mem_nil, or_false] at hd
    rcases hd with rfl | rfl | rfl | rfl <;> cases hm <;> decide
  exact ⟨helementary, hvalue, hsmall,
    modes_agree (fresh .exact) (fresh .float) rfl rfl e helementary Word.zero hvalue hsmall⟩

end Session

end Abacus
