import Mathlib.Tactic.NormNum
import Abacus.Proofs.Number.Integers
import Abacus.Proofs.Session.Evaluation
import Abacus.Proofs.Value.Collapse

/-!
# Square roots and percentages of integers

In exact mode the square root and the hundredth part of an integer are computed with doubles, and
are integers where these doubles are equal to one. Such an integer is the exact result as long as
half a unit in the last of its digits is too small to matter. For larger arguments the double may
have become whole by being rounded; then the integer is only near to the exact result.
-/

namespace Abacus

open Binary64 (Near)

section Rounded

variable {r m n : ℤ} {x : ℝ}

theorem near_root (hx : Near x n) (hr : Near r √x) (hn : 0 ≤ n) : 2 ^ 51 * |r * r - n| ≤ n := by
  have hcast : (0 : ℝ) ≤ n := by exact_mod_cast hn
  have hsquare := hr.sq_sub_le (hx.nonneg hcast)
  rw [Near, abs_of_nonneg hcast] at hx
  have hgap := le_abs_self (x - n)
  have htriangle := abs_sub_le ((r : ℝ) ^ 2) x n
  have hreal : 2 ^ 51 * |(r : ℝ) * r - n| ≤ n := by
    rw [← pow_two]
    linarith
  exact_mod_cast hreal

/-- Up to `2 ^ 52` the squares of integers are too far apart for a root to be off. -/
theorem root_exact (hr : Near r √(n : ℝ)) (hn : 0 ≤ n) (hsize : n ≤ 2 ^ 52) : r * r = n := by
  have hnonneg : 0 ≤ r := by exact_mod_cast hr.nonneg (Real.sqrt_nonneg _)
  have hclose : 2 ^ 106 * |r * r - n| ≤ (2 ^ 54 + 1) * n := by
    have hreal := hr.sq_sub_le (by exact_mod_cast hn)
    rw [pow_two] at hreal
    exact_mod_cast hreal
  by_contra hne
  have hoff : 1 ≤ |r * r - n| := Int.one_le_abs (sub_ne_zero.2 hne)
  have hlast : n = 2 ^ 52 := by omega
  have hone : |r * r - n| ≤ 1 := by omega
  obtain ⟨hlow, hhigh⟩ := abs_le.1 hone
  rcases lt_trichotomy r (2 ^ 26) with hless | hequal | hmore
  · nlinarith
  · rw [hequal, hlast] at hne
    exact hne rfl
  · nlinarith

theorem hundredfold_le (hm : Near m (x / 100)) : 2 ^ 53 * |100 * (m : ℝ) - x| ≤ |x| := by
  have hscale : 100 * (m : ℝ) - x = 100 * (m - x / 100) := by ring
  rw [Near, abs_div, abs_of_pos (by norm_num : (0 : ℝ) < 100)] at hm
  rw [hscale, abs_mul, abs_of_pos (by norm_num : (0 : ℝ) < 100)]
  linarith

theorem near_hundredth (hx : Near x n) (hm : Near m (x / 100)) :
    2 ^ 51 * |100 * m - n| ≤ |n| := by
  have hclose := hundredfold_le hm
  rw [Near] at hx
  have hsize := abs_sub_abs_le_abs_sub x n
  have htriangle := abs_sub_le (100 * (m : ℝ)) x n
  have hreal : 2 ^ 51 * |100 * (m : ℝ) - n| ≤ |(n : ℝ)| := by
    linarith [abs_nonneg (x - n)]
  exact_mod_cast hreal

theorem hundredth_exact (hm : Near m ((n : ℝ) / 100)) (hsize : |n| ≤ 2 ^ 53) : 100 * m = n := by
  have hclose : 2 ^ 53 * |100 * m - n| ≤ |n| := by exact_mod_cast hundredfold_le hm
  by_contra hne
  have hoff : 1 ≤ |100 * m - n| := Int.one_le_abs (sub_ne_zero.2 hne)
  have hlast : |n| = 2 ^ 53 := by omega
  have hone : |100 * m - n| ≤ 1 := by omega
  obtain ⟨hlow, hhigh⟩ := abs_le.1 hone
  -- no neighbour of `2 ^ 53` ends in two zeros
  rcases (abs_eq (by norm_num)).1 hlast with hlast | hlast <;> omega

end Rounded

section Functions

variable {n r m : Integer}

theorem sqrt_eq_integer :
    Session.applyFunction .exact .sqrt (.integer n) = .ok (.integer r) ↔
      0 ≤ n.val ∧ (Binary64.reading (Binary64.ofInt n.val).sqrt).toRat? = some (r.val : ℚ) := by
  have hsign := Binary64.isNegative_ofInt n
  rw [← Value.ofFloat_eq_integer]
  simp only [Session.applyFunction, Value.toFloat, Arithmetic.squareRoot, hsign]
  by_cases hn : n.val < 0
  · simp [hn, Except.map]
  · simp [hn, Except.map, Session.settle, not_lt.1 hn]

theorem percent_eq_integer :
    Session.applyFunction .exact .percent (.integer n) = .ok (.integer m) ↔
      (Binary64.reading (Binary64.ofInt n.val / Binary64.ofInt 100)).toRat? = some (m.val : ℚ) := by
  rw [← Value.ofFloat_eq_integer]
  change Except.ok (Value.ofFloat _) = Except.ok (Value.integer m) ↔ _
  rw [Except.ok.injEq]
  rfl

/-- An integer that is itself a double is taken as one without loss. -/
theorem eq_of_toRat?_ofInt {x : ℚ} (hsize : n.val.natAbs ≤ 2 ^ 53)
    (hx : (Binary64.reading (Binary64.ofInt n.val)).toRat? = some x) : x = n.val := by
  rw [Binary64.toRat?_of_denotes (Binary64.denotes_ofInt hsize)] at hx
  exact (Option.some.inj hx).symm

theorem sqrt_near (h : Session.applyFunction .exact .sqrt (.integer n) = .ok (.integer r)) :
    0 ≤ r.val ∧ 2 ^ 51 * |r.val * r.val - n.val| ≤ n.val ∧
      (n.val ≤ 2 ^ 52 → r.val * r.val = n.val) := by
  obtain ⟨hn, hr⟩ := sqrt_eq_integer.1 h
  obtain ⟨x, y, hx, hy, hnear, hroot⟩ := Binary64.exists_sqrt_ofInt hn
  obtain rfl := Option.some.inj (hy.symm.trans hr)
  rw [Rat.cast_intCast] at hroot
  refine ⟨by exact_mod_cast hroot.nonneg (Real.sqrt_nonneg _), near_root hnear hroot hn, ?_⟩
  intro hsize
  rw [eq_of_toRat?_ofInt (by omega) hx, Rat.cast_intCast] at hroot
  exact root_exact hroot hn hsize

theorem percent_near (h : Session.applyFunction .exact .percent (.integer n) = .ok (.integer m)) :
    2 ^ 51 * |100 * m.val - n.val| ≤ |n.val| ∧ (|n.val| ≤ 2 ^ 53 → 100 * m.val = n.val) := by
  obtain ⟨x, y, hx, hy, hnear, hpart⟩ := Binary64.exists_hundredth_ofInt n
  obtain rfl := Option.some.inj (hy.symm.trans (percent_eq_integer.1 h))
  rw [Rat.cast_intCast] at hpart
  refine ⟨near_hundredth hnear hpart, ?_⟩
  intro hsize
  have hword : n.val.natAbs ≤ 2 ^ 53 := by
    rw [Int.abs_eq_natAbs] at hsize
    omega
  rw [eq_of_toRat?_ofInt hword hx, Rat.cast_intCast] at hpart
  exact hundredth_exact hpart hsize

end Functions

namespace Session

variable {s : Session} {argument : Expr} {n : Integer} {v : Value}

theorem evalExpr_call_integer (hmode : s.mode = .exact)
    (hvalue : s.evalExpr argument = .ok (.integer n)) (f : Function) :
    s.evalExpr (.call f.name argument) = .ok v ↔
      applyFunction .exact f (.integer n) = .ok v := by
  rw [evalExpr_call_eq_ok, hmode, hvalue]
  simp

/-- In exact mode an integer that `sqrt` or `percent` gives for an integer is off by no more than a
small part of the argument, and it is the exact result for arguments up to `2 ^ 52` and `2 ^ 53`. -/
theorem functions_near (s : Session) (argument : Expr) (n : Integer) (hmode : s.mode = .exact)
    (hvalue : s.evalExpr argument = .ok (.integer n)) :
    (∀ r : Integer, s.evalExpr (.call "sqrt" argument) = .ok (.integer r) →
        0 ≤ r.val ∧ 2 ^ 51 * |r.val * r.val - n.val| ≤ n.val ∧
          (n.val ≤ 2 ^ 52 → r.val * r.val = n.val)) ∧
      ∀ m : Integer, s.evalExpr (.call "percent" argument) = .ok (.integer m) →
        2 ^ 51 * |100 * m.val - n.val| ≤ |n.val| ∧
          (|n.val| ≤ 2 ^ 53 → 100 * m.val = n.val) := by
  constructor
  · intro r hr
    exact sqrt_near ((evalExpr_call_integer hmode hvalue .sqrt).1 hr)
  · intro m hm
    exact percent_near ((evalExpr_call_integer hmode hvalue .percent).1 hm)

/-- The root and the hundredth part of `900` are exact. -/
theorem functions_near_nineHundred :
    let s := fresh .exact
    let n : Integer := ⟨900, by decide, by decide⟩
    let root : Integer := ⟨30, by decide, by decide⟩
    let part : Integer := ⟨9, by decide, by decide⟩
    s.mode = .exact ∧ s.evalExpr (.literal (.integer n)) = .ok (.integer n) ∧
      s.evalExpr (.call "sqrt" (.literal (.integer n))) = .ok (.integer root) ∧
      s.evalExpr (.call "percent" (.literal (.integer n))) = .ok (.integer part) ∧
      root.val * root.val = n.val ∧ 100 * part.val = n.val := by
  intro s n root part
  have hvalue : s.evalExpr (.literal (.integer n)) = .ok (.integer n) := rfl
  have hroot : Binary64.toWord? Width.int64 (Binary64.ofInt n.val).sqrt = some root := by
    decide +kernel
  have hpart : Binary64.toWord? Width.int64 (Binary64.ofInt n.val / Binary64.ofInt 100) =
      some part := by
    decide +kernel
  have hsqrt := (evalExpr_call_integer rfl hvalue .sqrt).2
    (sqrt_eq_integer.2 ⟨by decide, Binary64.toWord?_eq_some.1 hroot⟩)
  have hpercent := (evalExpr_call_integer rfl hvalue .percent).2
    (percent_eq_integer.2 (Binary64.toWord?_eq_some.1 hpart))
  have hnear := functions_near s (.literal (.integer n)) n rfl hvalue
  exact ⟨rfl, hvalue, hsqrt, hpercent, (hnear.1 root hsqrt).2.2 (by decide),
    (hnear.2 part hpercent).2 (by decide)⟩

/-- Beyond these bounds neither function has to be exact: `2 ^ 52 + 1` is no square, and
`2 ^ 53 + 7` no multiple of a hundred. -/
theorem functions_not_exact :
    let s := fresh .exact
    let n : Integer := ⟨2 ^ 52 + 1, by decide, by decide⟩
    let root : Integer := ⟨2 ^ 26, by decide, by decide⟩
    let k : Integer := ⟨2 ^ 53 + 7, by decide, by decide⟩
    let part : Integer := ⟨90071992547410, by decide, by decide⟩
    (s.evalExpr (.call "sqrt" (.literal (.integer n))) = .ok (.integer root) ∧
        root.val * root.val ≠ n.val) ∧
      s.evalExpr (.call "percent" (.literal (.integer k))) = .ok (.integer part) ∧
        100 * part.val ≠ k.val := by
  intro s n root k part
  have hroot : Binary64.toWord? Width.int64 (Binary64.ofInt n.val).sqrt = some root := by
    decide +kernel
  have hpart : Binary64.toWord? Width.int64 (Binary64.ofInt k.val / Binary64.ofInt 100) =
      some part := by
    decide +kernel
  have hsqrt := sqrt_eq_integer.2 ⟨by decide, Binary64.toWord?_eq_some.1 hroot⟩
  have hpercent := percent_eq_integer.2 (Binary64.toWord?_eq_some.1 hpart)
  exact ⟨⟨(evalExpr_call_integer rfl rfl .sqrt).2 hsqrt, by decide⟩,
    (evalExpr_call_integer rfl rfl .percent).2 hpercent, by decide⟩

end Session

end Abacus
