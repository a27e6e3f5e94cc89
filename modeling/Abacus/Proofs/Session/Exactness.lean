import Abacus.Proofs.Arithmetic
import Abacus.Proofs.Session.Apply
import Abacus.Proofs.Session.Evaluation
import Abacus.Proofs.Session.ExactValue

/-!
# Exact mode is exact

In exact mode an integer result is the exact value of its expression, and every exact value that the
integers have a place for is found. Doubles never turn back into integers, except in the functions
that are meant to do so.
-/

namespace Abacus

open Arithmetic

section Operations

variable {op : Operation} {a b n : Integer} {x y : Float} {v w : Value}

theorem map_integer_eq_ok {r : Except ArithmeticError Integer} :
    r.map Value.integer = .ok (.integer n) ↔ r = .ok n := by
  rw [map_eq_ok]
  simp

theorem ok_integer_eq_ok :
    (.ok (.integer a) : Except ArithmeticError Value) = .ok (.integer n) ↔ n.val = a.val := by
  rw [Except.ok.injEq, Value.integer.injEq, Word.ext_iff]
  exact eq_comm

theorem applyFloats_ne_integer : applyFloats op x y ≠ .ok (.integer n) := by
  intro h
  obtain ⟨z, -, -, -, hz⟩ := applyFloats_eq_ok.1 h
  cases hz

theorem divideIntegers_eq_integer :
    divideIntegers a b = .ok (.integer n) ↔ b.val ≠ 0 ∧ a.val = n.val * b.val := by
  rw [divideIntegers_eq_ok]
  constructor
  · rintro ⟨r, hrem, ⟨hzero, m, hdiv, ⟨⟩⟩ | ⟨-, z, -, ⟨⟩⟩⟩
    obtain ⟨hb, -, hr⟩ := remainder_eq_ok.1 hrem
    obtain ⟨-, hn⟩ := divide_eq_ok.1 hdiv
    refine ⟨hb, ?_⟩
    rw [hn, Int.tdiv_mul_cancel]
    exact Int.dvd_of_tmod_eq_zero (hr.symm.trans hzero)
  · rintro ⟨hb, ha⟩
    have hexcept : ¬(a.val = Width.int64.least ∧ b.val = -1) := by
      rintro ⟨hleast, hminus⟩
      have hgreatest := n.le_greatest
      rw [Width.int64_greatest] at hgreatest
      rw [Width.int64_least, ha, hminus] at hleast
      omega
    have hrem : Arithmetic.remainder a b = .ok Word.zero := by
      refine remainder_eq_ok.2 ⟨hb, hexcept, ?_⟩
      rw [ha, Int.mul_tmod_left]
      rfl
    have hdiv : divide a b = .ok n := by
      refine divide_eq_ok.2 ⟨hb, ?_⟩
      rw [ha, Int.mul_tdiv_cancel _ hb]
    exact ⟨Word.zero, hrem, Or.inl ⟨rfl, n, hdiv, rfl⟩⟩

/-- From two on, a power with an exponent too large to be computed bit by bit is out of range. -/
theorem not_contains_pow {z : ℤ} {k : ℕ} (hz : 2 ≤ |z|) (hk : maxWholeExponent < k) :
    ¬Width.int64.Contains (z ^ k) := by
  rintro ⟨hleast, hgreatest⟩
  have hbits : 64 ≤ k := by
    unfold maxWholeExponent at hk
    omega
  have hlarge : (2 : ℤ) ^ 64 ≤ |z ^ k| := by
    rw [abs_pow]
    calc
      (2 : ℤ) ^ 64 ≤ 2 ^ k := pow_le_pow_right₀ (by norm_num) hbits
      _ ≤ |z| ^ k := pow_le_pow_left₀ (by norm_num) hz k
  rw [Width.int64_least] at hleast
  rw [Width.int64_greatest] at hgreatest
  have hsmall : |z ^ k| ≤ 2 ^ 63 := abs_le.2 ⟨hleast, by linarith⟩
  linarith

theorem powerIntegers_eq_integer :
    powerIntegers a b = .ok (.integer n) ↔ 0 ≤ b.val ∧ n.val = a.val ^ b.val.toNat := by
  unfold powerIntegers
  by_cases hnegative : b.val < 0
  · rw [if_pos hnegative]
    constructor
    · intro h
      exact absurd h applyFloats_ne_integer
    · rintro ⟨hb, -⟩
      omega
  rw [if_neg hnegative]
  have hb : 0 ≤ b.val := by omega
  by_cases hwhole : b.val ≤ maxWholeExponent
  · rw [if_pos hwhole, map_integer_eq_ok, power_eq_ok]
    simp [hb]
  rw [if_neg hwhole]
  have hexponent : maxWholeExponent < b.val.toNat := by omega
  by_cases hsmall : |a.val| ≤ 1
  · rcases Word.val_cases_of_abs_le_one hsmall with ha | ha | ha
    · rw [if_pos (Or.inl ha), ok_integer_eq_ok, ha, zero_pow (by omega)]
      exact (and_iff_right hb).symm
    · rw [if_pos (Or.inr ha), ok_integer_eq_ok, ha, one_pow]
      exact (and_iff_right hb).symm
    · rw [if_neg (by omega), if_pos ha, ok_integer_eq_ok, ha, and_iff_right hb]
      by_cases heven : b.val % 2 = 0
      · rw [if_pos heven, (Nat.even_iff.2 (by omega) : Even b.val.toNat).neg_one_pow]
        rfl
      · rw [if_neg heven, (Nat.odd_iff.2 (by omega) : Odd b.val.toNat).neg_one_pow, ha]
  · have hgrows : 2 ≤ |a.val| := by omega
    have hnot : ¬(a.val = 0 ∨ a.val = 1) := by
      rintro (ha | ha) <;> rw [ha] at hsmall <;> exact hsmall (by decide)
    have hminus : a.val ≠ -1 := by
      intro ha
      rw [ha] at hsmall
      exact hsmall (by decide)
    rw [if_neg hnot, if_neg hminus]
    constructor
    · intro h
      cases h
    · rintro ⟨-, hn⟩
      exact absurd (hn ▸ n.contains_val) (not_contains_pow hgrows hexponent)

theorem applyIntegers_eq_integer :
    applyIntegers op a b = .ok (.integer n) ↔
      op.rational? a.val b.val = some (n.val : ℚ) ∧ op.Admits a.val b.val := by
  cases op with
  | add =>
      rw [Operation.rational?_add_eq_some, ← checkedAdd_eq_ok, ← map_integer_eq_ok]
      exact (and_iff_left trivial).symm
  | subtract =>
      rw [Operation.rational?_subtract_eq_some, ← checkedSubtract_eq_ok, ← map_integer_eq_ok]
      exact (and_iff_left trivial).symm
  | multiply =>
      rw [Operation.rational?_multiply_eq_some, ← checkedMultiply_eq_ok, ← map_integer_eq_ok]
      exact (and_iff_left trivial).symm
  | divide =>
      rw [Operation.rational?_divide_eq_some, ← divideIntegers_eq_integer]
      exact (and_iff_left trivial).symm
  | remainder =>
      have hremainder : applyIntegers .remainder a b = .ok (.integer n) ↔ _ :=
        map_integer_eq_ok.trans remainder_eq_ok
      rw [Operation.rational?_remainder_eq_some, hremainder, Operation.Admits]
      norm_cast
      tauto
  | power =>
      have hpower : applyIntegers .power a b = .ok (.integer n) ↔ _ := powerIntegers_eq_integer
      rw [hpower, Operation.Admits, Int.cast_nonneg_iff]
      constructor
      · rintro ⟨hb, hn⟩
        exact ⟨(Operation.rational?_power_eq_some hb).2 hn, hb⟩
      · rintro ⟨hn, hb⟩
        exact ⟨hb, (Operation.rational?_power_eq_some hb).1 hn⟩

/-- Both operands of an integer result are integers. -/
theorem apply_eq_integer :
    op.apply .exact v w = .ok (.integer n) ↔
      ∃ a b : Integer, v = .integer a ∧ w = .integer b ∧
        op.rational? a.val b.val = some (n.val : ℚ) ∧ op.Admits a.val b.val := by
  constructor
  · intro h
    cases v with
    | decimal x => exact absurd h applyFloats_ne_integer
    | integer a =>
        cases w with
        | decimal y => exact absurd h applyFloats_ne_integer
        | integer b => exact ⟨a, b, rfl, rfl, applyIntegers_eq_integer.1 h⟩
  · rintro ⟨a, b, rfl, rfl, h⟩
    exact applyIntegers_eq_integer.2 h

theorem negate_eq_integer :
    Session.negate v = .ok (.integer n) ↔ ∃ m : Integer, v = .integer m ∧ n.val = -m.val := by
  cases v with
  | decimal x =>
      constructor
      · intro h
        cases h
      · rintro ⟨m, h, -⟩
        cases h
  | integer m =>
      rw [Session.negate, map_integer_eq_ok, checkedSubtract_eq_ok]
      simp [Word.zero]

theorem square_eq_integer :
    Session.applyFunction .exact .square v = .ok (.integer n) ↔
      ∃ a : Integer, v = .integer a ∧ n.val = a.val ^ 2 := by
  cases v with
  | decimal x =>
      constructor
      · intro h
        obtain ⟨_, -, hdecimal⟩ := map_eq_ok.1 h
        cases hdecimal
      · rintro ⟨a, h, -⟩
        cases h
  | integer a =>
      have hsquare : Session.applyFunction .exact .square (.integer a) = .ok (.integer n) ↔ _ :=
        map_integer_eq_ok.trans power_eq_ok
      rw [hsquare]
      simp

theorem abs_eq_integer :
    Session.applyFunction .exact .abs v = .ok (.integer n) ↔
      ∃ a : Integer, v = .integer a ∧ n.val = |a.val| := by
  cases v with
  | decimal x =>
      constructor
      · intro h
        cases h
      · rintro ⟨a, h, -⟩
        cases h
  | integer a =>
      have habs : a.abs? = some n ↔ n.val = |a.val| := by
        rw [Int.abs_eq_natAbs]
        exact Word.ofInt?_eq_some
      simp only [Session.applyFunction, Value.integer.injEq, exists_eq_left', ← habs]
      cases a.abs? <;> simp

theorem applyFunction_eq_integer {f : Function} (hsqrt : f ≠ .sqrt) (hpercent : f ≠ .percent) :
    Session.applyFunction .exact f v = .ok (.integer n) ↔
      ∃ a : Integer, v = .integer a ∧ f.rational? a.val = some (n.val : ℚ) := by
  cases f with
  | sqrt => exact absurd rfl hsqrt
  | percent => exact absurd rfl hpercent
  | square => simp only [square_eq_integer, Function.rational?_square_eq_some]
  | abs => simp only [abs_eq_integer, Function.rational?_abs_eq_some]

end Operations

namespace Session

variable {s : Session} {e : Expr} {n : Integer}

theorem lookup_eq_integer (hmode : s.mode = .exact) {name : String} :
    s.lookup name = .ok (.integer n) ↔ s.integer? name = some n.val := by
  rw [lookup_eq_ok, hmode]
  unfold integer?
  by_cases hanswer : name = answerName
  · simp [hanswer, coerce_exact, Value.integer?_eq_some, @eq_comm Value (.integer n)]
  · cases hfind : s.bindings.find? name with
    | none => simp [hanswer]
    | some x => simp [hanswer, coerce_exact, Value.integer?_eq_some, @eq_comm Value (.integer n)]

/-- An expression has an integer result exactly if everything in it fits, and then it is the exact
value. -/
def ExactAt (s : Session) (e : Expr) : Prop :=
  ∀ n : Integer, s.evalExpr e = .ok (.integer n) ↔
    e.rational? s.integer? = some (n.val : ℚ) ∧ ∀ d ∈ e.subexpressions, d.Fits s.integer?

theorem exactAt_literal (hmode : s.mode = .exact) (v : Value) : s.ExactAt (.literal v) := by
  intro n
  rw [evalExpr, hmode, coerce_exact, Expr.subexpressions, List.forall_mem_singleton]
  constructor
  · rintro ⟨⟩
    exact ⟨rfl, Expr.fits_of_not_binary (n := n) rfl (by simp)⟩
  · rintro ⟨hvalue, -⟩
    cases v with
    | decimal x => cases hvalue
    | integer m =>
        simp only [Expr.rational?, Option.some_inj, Int.cast_inj] at hvalue
        rw [Word.ext hvalue]

theorem exactAt_variable (hmode : s.mode = .exact) (name : String) :
    s.ExactAt (.variable name) := by
  intro n
  have hvalue : s.evalExpr (.variable name) = .ok (.integer n) ↔
      (Expr.variable name).rational? s.integer? = some (n.val : ℚ) := by
    rw [evalExpr, lookup_eq_integer hmode, Expr.rational?]
    simp only [Option.map_eq_some_iff, Int.cast_inj, exists_eq_right]
  rw [hvalue, Expr.subexpressions, List.forall_mem_singleton]
  constructor
  · intro h
    exact ⟨h, Expr.fits_of_not_binary h (by simp)⟩
  · rintro ⟨h, -⟩
    exact h

/-- An expression with one operand is exact if the operand is and `f` gives the exact result. -/
theorem exactAt_unary {operand : Expr} {f : ℚ → Option ℚ} (ih : s.ExactAt operand)
    (hshape : ∀ op lhs rhs, e ≠ .binary op lhs rhs)
    (hsub : e.subexpressions = e :: operand.subexpressions)
    (hvalue : e.rational? s.integer? = (operand.rational? s.integer?).bind f)
    (heval : ∀ n : Integer, s.evalExpr e = .ok (.integer n) ↔
      ∃ m : Integer, s.evalExpr operand = .ok (.integer m) ∧ f m.val = some (n.val : ℚ)) :
    s.ExactAt e := by
  intro n
  rw [heval, hsub, List.forall_mem_cons]
  constructor
  · rintro ⟨m, hm, hf⟩
    obtain ⟨hoperand, hfits⟩ := (ih m).1 hm
    rw [hoperand, Option.bind_some, hf] at hvalue
    exact ⟨hvalue, Expr.fits_of_not_binary hvalue hshape, hfits⟩
  · rintro ⟨hn, -, hfits⟩
    obtain ⟨m, hm⟩ := (hfits operand operand.mem_subexpressions_self).exists_integer
    rw [hvalue, hm, Option.bind_some] at hn
    exact ⟨m, (ih m).2 ⟨hm, hfits⟩, hn⟩

theorem exactAt_negate {operand : Expr} (ih : s.ExactAt operand) : s.ExactAt (.negate operand) := by
  refine exactAt_unary (f := fun a => some (-a)) ih (by simp) rfl ?_ ?_
  · rw [Expr.rational?, Option.map_eq_bind]
    rfl
  · intro n
    rw [evalExpr_negate_eq_ok]
    have hcast : ∀ m : Integer, some (-(m.val : ℚ)) = some (n.val : ℚ) ↔ n.val = -m.val := by
      intro m
      rw [Option.some_inj]
      norm_cast
      exact eq_comm
    constructor
    · rintro ⟨x, hx, hnegate⟩
      obtain ⟨m, rfl, hn⟩ := negate_eq_integer.1 hnegate
      exact ⟨m, hx, (hcast m).2 hn⟩
    · rintro ⟨m, hm, hn⟩
      exact ⟨.integer m, hm, negate_eq_integer.2 ⟨m, rfl, (hcast m).1 hn⟩⟩

theorem exactAt_call (hmode : s.mode = .exact) {function : String} {argument : Expr}
    (hsqrt : function ≠ "sqrt") (hpercent : function ≠ "percent") (ih : s.ExactAt argument) :
    s.ExactAt (.call function argument) := by
  refine exactAt_unary ih (by simp) rfl rfl ?_
  intro n
  rw [evalExpr_call_eq_ok, hmode]
  have hnames : ∀ f, Function.ofName? function = some f → f ≠ .sqrt ∧ f ≠ .percent := by
    intro f hf
    have hname := Function.name_of_ofName? hf
    constructor <;> rintro rfl
    · exact hsqrt hname.symm
    · exact hpercent hname.symm
  constructor
  · rintro ⟨x, f, hx, hf, happly⟩
    obtain ⟨m, rfl, hm⟩ := (applyFunction_eq_integer (hnames f hf).1 (hnames f hf).2).1 happly
    exact ⟨m, hx, by rw [hf, Option.bind_some, hm]⟩
  · rintro ⟨m, hm, hn⟩
    obtain ⟨f, hf, hn⟩ := Option.bind_eq_some_iff.1 hn
    exact ⟨.integer m, f, hm, hf,
      (applyFunction_eq_integer (hnames f hf).1 (hnames f hf).2).2 ⟨m, rfl, hn⟩⟩

theorem exactAt_binary (hmode : s.mode = .exact) {op : Operation} {lhs rhs : Expr}
    (ihl : s.ExactAt lhs) (ihr : s.ExactAt rhs) : s.ExactAt (.binary op lhs rhs) := by
  intro n
  rw [evalExpr_binary_eq_ok, hmode, Expr.subexpressions, List.forall_mem_cons,
    List.forall_mem_append]
  constructor
  · rintro ⟨x, y, hx, hy, happly⟩
    obtain ⟨a, b, rfl, rfl, hvalue, hadmits⟩ := apply_eq_integer.1 happly
    obtain ⟨ha, hlhs⟩ := (ihl a).1 hx
    obtain ⟨hb, hrhs⟩ := (ihr b).1 hy
    refine ⟨?_, Expr.fits_binary ha hb hvalue hadmits, hlhs, hrhs⟩
    rw [Expr.rational?, ha, hb]
    exact hvalue
  · rintro ⟨hvalue, hfits, hlhs, hrhs⟩
    obtain ⟨a, ha⟩ := (hlhs lhs lhs.mem_subexpressions_self).exists_integer
    obtain ⟨b, hb⟩ := (hrhs rhs rhs.mem_subexpressions_self).exists_integer
    rw [Expr.rational?, ha, hb] at hvalue
    have hadmits := hfits.admits op lhs rhs a.val b.val rfl ha hb
    exact ⟨.integer a, .integer b, (ihl a).2 ⟨ha, hlhs⟩, (ihr b).2 ⟨hb, hrhs⟩,
      apply_eq_integer.2 ⟨a, b, rfl, rfl, hvalue, hadmits⟩⟩

theorem exactAt (hmode : s.mode = .exact)
    (hcalls : ∀ function argument, Expr.call function argument ∈ e.subexpressions →
      function ≠ "sqrt" ∧ function ≠ "percent") : s.ExactAt e := by
  induction e with
  | literal v => exact exactAt_literal hmode v
  | «variable» name => exact exactAt_variable hmode name
  | negate operand ih =>
      refine exactAt_negate (ih ?_)
      intro f a ha
      exact hcalls f a (List.mem_cons_of_mem _ ha)
  | binary op lhs rhs ihl ihr =>
      refine exactAt_binary hmode (ihl ?_) (ihr ?_)
      · intro f a ha
        exact hcalls f a (List.mem_cons_of_mem _ (List.mem_append_left _ ha))
      · intro f a ha
        exact hcalls f a (List.mem_cons_of_mem _ (List.mem_append_right _ ha))
  | call function argument ih =>
      obtain ⟨hsqrt, hpercent⟩ := hcalls function argument (List.mem_cons_self ..)
      refine exactAt_call hmode hsqrt hpercent (ih ?_)
      intro f a ha
      exact hcalls f a (List.mem_cons_of_mem _ ha)

/-- Exact mode never gives a wrong integer. Where an expression without `sqrt` and `percent` has an
integer result, everything in it has one too, and the result is its exact value; and where the exact
value of everything in it fits, there is an integer result. -/
theorem evalExpr_exact (s : Session) (hmode : s.mode = .exact) (e : Expr)
    (hcalls : ∀ function argument, Expr.call function argument ∈ e.subexpressions →
      function ≠ "sqrt" ∧ function ≠ "percent") :
    (∀ n : Integer, s.evalExpr e = .ok (.integer n) →
      e.rational? s.integer? = some (n.val : ℚ) ∧
      ∀ d ∈ e.subexpressions, ∃ m : Integer, s.evalExpr d = .ok (.integer m)) ∧
    ((∀ d ∈ e.subexpressions, d.Fits s.integer?) →
      ∃ n : Integer, s.evalExpr e = .ok (.integer n) ∧
        e.rational? s.integer? = some (n.val : ℚ)) := by
  have hexact : ∀ d ∈ e.subexpressions, s.ExactAt d := by
    intro d hd
    refine exactAt hmode ?_
    intro f a ha
    exact hcalls f a (Expr.subexpressions_subset hd ha)
  have hself := hexact e e.mem_subexpressions_self
  constructor
  · intro n hn
    obtain ⟨hvalue, hfits⟩ := (hself n).1 hn
    refine ⟨hvalue, ?_⟩
    intro d hd
    obtain ⟨m, hm⟩ := (hfits d hd).exists_integer
    exact ⟨m, (hexact d hd m).2 ⟨hm, fun c hc => hfits c (Expr.subexpressions_subset hd hc)⟩⟩
  · intro hfits
    obtain ⟨n, hn⟩ := (hfits e e.mem_subexpressions_self).exists_integer
    exact ⟨n, (hself n).2 ⟨hn, hfits⟩, hn⟩

/-- In exact mode `(-1) % 2` is an integer, and it is the exact value `-1`. -/
theorem evalExpr_exact_remainder :
    let two : Integer := ⟨2, by decide +kernel, by decide +kernel⟩
    let e : Expr := .binary .remainder (.negate (.literal (.integer Word.one)))
      (.literal (.integer two))
    (Session.fresh .exact).mode = .exact ∧
      (∀ function argument, Expr.call function argument ∈ e.subexpressions →
        function ≠ "sqrt" ∧ function ≠ "percent") ∧
      (∀ d ∈ e.subexpressions, d.Fits (Session.fresh .exact).integer?) ∧
      ∃ n : Integer, (Session.fresh .exact).evalExpr e = .ok (.integer n) ∧
        e.rational? (Session.fresh .exact).integer? = some (n.val : ℚ) := by
  intro two e
  let minusOne : Integer := ⟨-1, by decide +kernel, by decide +kernel⟩
  let valuation := (Session.fresh .exact).integer?
  have hone : (Expr.literal (.integer Word.one)).rational? valuation = some ((1 : ℤ) : ℚ) := rfl
  have htwo : (Expr.literal (.integer two)).rational? valuation = some ((2 : ℤ) : ℚ) := rfl
  have hminus : (Expr.negate (.literal (.integer Word.one))).rational? valuation =
      some ((-1 : ℤ) : ℚ) := by
    rw [Expr.rational?, hone]
    norm_num
  have hvalue : Operation.remainder.rational? ((-1 : ℤ) : ℚ) ((2 : ℤ) : ℚ) = some ((-1 : ℤ) : ℚ) :=
    Operation.rational?_remainder_eq_some.2 ⟨by decide, by decide⟩
  have hadmits : Operation.remainder.Admits ((-1 : ℤ) : ℚ) ((2 : ℤ) : ℚ) := by
    rintro ⟨-, h⟩
    norm_num at h
  have hfits : ∀ d ∈ e.subexpressions, d.Fits valuation := by
    intro d hd
    simp only [e, Expr.subexpressions, List.cons_append, List.nil_append, List.mem_cons,
      List.not_mem_nil, or_false] at hd
    rcases hd with rfl | rfl | rfl | rfl
    · exact Expr.fits_binary (n := minusOne) hminus htwo hvalue hadmits
    · exact Expr.fits_of_not_binary (n := minusOne) hminus (by simp)
    · exact Expr.fits_of_not_binary (n := Word.one) hone (by simp)
    · exact Expr.fits_of_not_binary (n := two) htwo (by simp)
  have hcalls : ∀ function argument, Expr.call function argument ∈ e.subexpressions →
      function ≠ "sqrt" ∧ function ≠ "percent" := by
    intro f a ha
    simp [e, Expr.subexpressions] at ha
  exact ⟨rfl, hcalls, hfits, (evalExpr_exact (.fresh .exact) rfl e hcalls).2 hfits⟩

end Session

end Abacus
