import Abacus.Arithmetic
import Abacus.Proofs.Except
import Abacus.Proofs.Number.Finite

/-!
# Results of arithmetic

An operation on words succeeds exactly if it has a result in range, and then gives that result. An
operation on finite doubles gives a finite double if it succeeds.
-/

namespace Abacus.Arithmetic

theorem orOverflow_eq_ok {α : Type} {op : Operation} {x : Option α} {a : α} :
    orOverflow op x = .ok a ↔ x = some a := by
  cases x <;> simp [orOverflow]

section Words

variable {w : Width} {a b c : Word w}

theorem checkedAdd_eq_ok : checkedAdd a b = .ok c ↔ c.val = a.val + b.val :=
  orOverflow_eq_ok.trans Word.ofInt?_eq_some

theorem checkedSubtract_eq_ok : checkedSubtract a b = .ok c ↔ c.val = a.val - b.val :=
  orOverflow_eq_ok.trans Word.ofInt?_eq_some

theorem checkedMultiply_eq_ok : checkedMultiply a b = .ok c ↔ c.val = a.val * b.val :=
  orOverflow_eq_ok.trans Word.ofInt?_eq_some

theorem power_eq_ok {k : ℕ} : power a k = .ok c ↔ c.val = a.val ^ k := by
  refine orOverflow_eq_ok.trans ?_
  have hpow : Number.pow? a k = Word.pow? a k := rfl
  rw [hpow, Word.pow?_eq, Word.ofInt?_eq_some]

theorem isZero_eq_true : Number.isZero a = true ↔ a.val = 0 :=
  beq_iff_eq

theorem divide_eq_ok : divide a b = .ok c ↔ b.val ≠ 0 ∧ c.val = a.val.tdiv b.val := by
  unfold divide
  by_cases hb : b.val = 0
  · simp [isZero_eq_true.2 hb, hb]
  · rw [if_neg (mt isZero_eq_true.1 hb)]
    exact orOverflow_eq_ok.trans Word.div?_eq_some

theorem remainder_eq_ok :
    remainder a b = .ok c ↔
      b.val ≠ 0 ∧ ¬(a.val = w.least ∧ b.val = -1) ∧ c.val = a.val.tmod b.val := by
  unfold remainder
  by_cases hb : b.val = 0
  · simp [isZero_eq_true.2 hb, hb]
  · rw [if_neg (mt isZero_eq_true.1 hb), orOverflow_eq_ok, ← Word.contains_tdiv hb]
    exact Word.rem?_eq_some

end Words

section Doubles

variable {x y z : Float}

theorem isFinite_divide (hx : x.isFinite = true) (hy : y.isFinite = true)
    (h : divide x y = .ok z) : z.isFinite = true := by
  unfold divide at h
  by_cases hzero : Binary64.isZero y = true
  · cases (if_pos hzero).symm.trans h
  · have hguard : Number.div? x y = Binary64.finiteResult? (x.isFinite && y.isFinite) (x / y) :=
      if_neg hzero
    have h := orOverflow_eq_ok.1 ((if_neg hzero).symm.trans h)
    rw [hguard] at h
    exact Binary64.isFinite_of_finiteResult? (by rw [hx, hy]; rfl) h

theorem isFinite_square (hx : x.isFinite = true) (h : square x = .ok z) : z.isFinite = true :=
  Binary64.isFinite_of_finiteResult? hx (orOverflow_eq_ok.1 h)

theorem isFinite_squareRoot (hx : x.isFinite = true) (h : squareRoot x = .ok z) :
    z.isFinite = true := by
  unfold squareRoot at h
  split_ifs at h with hsign
  cases h
  exact Binary64.isFinite_sqrt hx (by simpa using hsign)

theorem isFinite_percentage (hx : x.isFinite = true) : (percentage x).isFinite = true :=
  Binary64.isFinite_div_hundred hx

end Doubles

end Abacus.Arithmetic
