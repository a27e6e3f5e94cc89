import Mathlib.Tactic.Ring
import Mathlib.Tactic.Linarith
import Mathlib.Algebra.Order.Ring.Abs
import Abacus.Number.Word

/-!
# Checked operations on words

Each checked operation is the exact one, followed by the passage to a word. For powers this takes
an argument: repeated squaring computes numbers that the power itself does not mention, and none of
them may leave the range unless the power does.
-/

namespace Abacus

namespace Width

variable {w : Width} {n x : ℤ}

/-- The integers that are words of a width. -/
def Contains (w : Width) (n : ℤ) : Prop := w.least ≤ n ∧ n ≤ w.greatest

theorem least_eq_zero (h : w.signed = false) : w.least = 0 := by
  simp [least, h]

theorem contains_zero (w : Width) : w.Contains 0 :=
  ⟨w.least_le_zero, by linarith [w.one_le_greatest]⟩

theorem contains_one (w : Width) : w.Contains 1 :=
  ⟨by linarith [w.least_le_zero], w.one_le_greatest⟩

theorem int64_least : Width.int64.least = -2 ^ 63 := rfl

theorem int64_greatest : Width.int64.greatest = 2 ^ 63 - 1 := rfl

/-- What is at most half as large as a word, and has a sign that the width allows, is a word. -/
theorem contains_of_two_mul_abs_le (hn : w.Contains n) (hx : 2 * |x| ≤ |n|)
    (hsign : w.signed = false → 0 ≤ x) : w.Contains x := by
  obtain ⟨hleast, hgreatest⟩ := hn
  have hmodulus := w.four_le_modulus
  unfold greatest at hgreatest
  cases hs : w.signed with
  | true =>
      have htwo := w.two_mul_least hs
      have habs : |n| ≤ -w.least := abs_le.2 ⟨by linarith, by linarith⟩
      obtain ⟨hlow, hhigh⟩ := abs_le.1 (le_refl |x|)
      constructor
      · linarith
      · unfold greatest
        omega
  | false =>
      have hzero := least_eq_zero hs
      have hx0 := hsign hs
      have hn0 : 0 ≤ n := by linarith
      rw [abs_of_nonneg hx0, abs_of_nonneg hn0] at hx
      constructor
      · linarith
      · unfold greatest
        linarith

end Width

namespace Word

variable {w : Width} {a b base acc : Word w} {n : ℤ} {k : ℕ}

theorem contains_val (a : Word w) : w.Contains a.val :=
  ⟨a.least_le, a.le_greatest⟩

theorem ofInt?_of_contains (h : w.Contains n) : ofInt? w n = some ⟨n, h.1, h.2⟩ := by
  unfold ofInt?
  exact dif_pos h

theorem ofInt?_val (a : Word w) : ofInt? w a.val = some a :=
  ofInt?_of_contains a.contains_val

@[simp] theorem ofInt?_eq_none : ofInt? w n = none ↔ ¬w.Contains n := by
  unfold ofInt? Width.Contains
  split <;> simp_all

@[simp] theorem ofInt?_eq_some : ofInt? w n = some a ↔ a.val = n := by
  constructor
  · intro h
    by_cases hn : w.Contains n
    · rw [ofInt?_of_contains hn] at h
      cases h
      rfl
    · rw [ofInt?_eq_none.2 hn] at h
      cases h
  · rintro rfl
    exact a.ofInt?_val

theorem val_nonneg (h : w.signed = false) (a : Word w) : 0 ≤ a.val := by
  have hleast := a.least_le
  rw [Width.least_eq_zero h] at hleast
  exact hleast

/-- What repeated squaring keeps: the accumulator is one, or no less than two in size, unless the
base is so small that its powers cannot grow. -/
def SquaringSafe (acc base : Word w) : Prop :=
  acc.val = 1 ∨ 2 ≤ |acc.val| ∨ |base.val| ≤ 1

theorem squaringSafe_one (base : Word w) : SquaringSafe one base :=
  Or.inl rfl

theorem val_cases_of_abs_le_one (h : |base.val| ≤ 1) :
    base.val = 0 ∨ base.val = 1 ∨ base.val = -1 := by
  obtain ⟨hlow, hhigh⟩ := abs_le.1 h
  omega

theorem two_le_abs_pow {x : ℤ} (hx : 2 ≤ |x|) (hk : k ≠ 0) : 2 ≤ |x ^ k| := by
  rw [abs_pow]
  exact hx.trans (le_self_pow₀ (by linarith) hk)

theorem two_mul_abs_le_abs_mul {x y : ℤ} (hy : 2 ≤ |y|) : 2 * |x| ≤ |x * y| := by
  rw [abs_mul, mul_comm 2]
  exact mul_le_mul_of_nonneg_left hy (abs_nonneg x)

theorem contains_square (hsafe : SquaringSafe acc base) (hk : 2 ≤ k)
    (hpow : w.Contains (acc.val * base.val ^ k)) : w.Contains (base.val * base.val) := by
  by_cases hbase : |base.val| ≤ 1
  · rcases val_cases_of_abs_le_one hbase with h | h | h <;> rw [h]
    · exact w.contains_zero
    · exact w.contains_one
    · exact w.contains_one
  have hbase : 2 ≤ |base.val| := by omega
  by_cases hequal : k = 2 ∧ acc.val = 1
  · obtain ⟨rfl, hone⟩ := hequal
    rw [hone, one_mul, pow_two] at hpow
    exact hpow
  have hacc : 1 ≤ |acc.val| := by
    rcases hsafe with h | h | h
    · rw [h]
      exact le_rfl
    · linarith
    · omega
  have hsplit : acc.val * base.val ^ k = base.val * base.val * (acc.val * base.val ^ (k - 2)) := by
    obtain ⟨m, rfl⟩ := Nat.exists_eq_add_of_le hk
    rw [Nat.add_sub_cancel_left]
    ring
  have hcofactor : 2 ≤ |acc.val * base.val ^ (k - 2)| := by
    by_cases htwo : k = 2
    · subst htwo
      rcases hsafe with h | h | h
      · exact absurd ⟨rfl, h⟩ hequal
      · simpa using h
      · omega
    · have hpower := two_le_abs_pow hbase (show k - 2 ≠ 0 by omega)
      rw [abs_mul]
      nlinarith
  rw [hsplit] at hpow
  refine Width.contains_of_two_mul_abs_le hpow (two_mul_abs_le_abs_mul hcofactor) ?_
  intro _
  exact mul_self_nonneg base.val

theorem contains_product (hk : 2 ≤ k) (hodd : k % 2 = 1)
    (hpow : w.Contains (acc.val * base.val ^ k)) : w.Contains (acc.val * base.val) := by
  by_cases hbase : |base.val| ≤ 1
  · have hsame : base.val ^ k = base.val := by
      rcases val_cases_of_abs_le_one hbase with h | h | h <;> rw [h]
      · exact zero_pow (by omega)
      · exact one_pow k
      · exact (Nat.odd_iff.2 hodd).neg_one_pow
    rw [hsame] at hpow
    exact hpow
  have hbase : 2 ≤ |base.val| := by omega
  have hsplit : acc.val * base.val ^ k = acc.val * base.val * base.val ^ (k - 1) := by
    obtain ⟨m, rfl⟩ := Nat.exists_eq_add_of_le (show 1 ≤ k by omega)
    rw [Nat.add_sub_cancel_left]
    ring
  rw [hsplit] at hpow
  have hcofactor := two_le_abs_pow hbase (show k - 1 ≠ 0 by omega)
  refine Width.contains_of_two_mul_abs_le hpow (two_mul_abs_le_abs_mul hcofactor) ?_
  intro hs
  exact mul_nonneg (acc.val_nonneg hs) (base.val_nonneg hs)

theorem SquaringSafe.square {square : Word w} (hsafe : SquaringSafe acc base)
    (hsquare : square.val = base.val * base.val) : SquaringSafe acc square := by
  rcases hsafe with h | h | h
  · exact Or.inl h
  · exact Or.inr (Or.inl h)
  · refine Or.inr (Or.inr ?_)
    rw [hsquare]
    rcases val_cases_of_abs_le_one h with hb | hb | hb <;> rw [hb] <;> decide

theorem SquaringSafe.mul {product square : Word w} (hsafe : SquaringSafe acc base)
    (hproduct : product.val = acc.val * base.val) (hsquare : square.val = base.val * base.val) :
    SquaringSafe product square := by
  by_cases hbase : |base.val| ≤ 1
  · exact SquaringSafe.square (Or.inr (Or.inr hbase)) hsquare
  have hbase : 2 ≤ |base.val| := by omega
  refine Or.inr (Or.inl ?_)
  rw [hproduct, abs_mul]
  rcases hsafe with h | h | h
  · rw [h, abs_one, one_mul]
    exact hbase
  · nlinarith
  · omega

theorem mulPow?_of_lt_two (h : k < 2) :
    mulPow? acc base k = ofInt? w (acc.val * base.val ^ k) := by
  unfold mulPow?
  obtain rfl | rfl : k = 0 ∨ k = 1 := by omega
  · simp [ofInt?_val]
  · simp [mul?]

theorem mulPow?_of_even (h : 2 ≤ k) (heven : k % 2 = 0) :
    mulPow? acc base k = (mul? base base).bind fun square => mulPow? acc square (k / 2) := by
  rw [mulPow?, dif_neg (by omega), if_neg (by omega)]
  rfl

theorem mulPow?_of_odd (h : 2 ≤ k) (hodd : k % 2 = 1) :
    mulPow? acc base k = (mul? acc base).bind fun product =>
      (mul? base base).bind fun square => mulPow? product square (k / 2) := by
  rw [mulPow?, dif_neg (by omega), if_pos hodd]
  rfl

theorem pow_of_even {x : ℤ} (heven : k % 2 = 0) : (x * x) ^ (k / 2) = x ^ k := by
  rw [← pow_two, ← pow_mul]
  congr 1
  omega

theorem pow_of_odd {x : ℤ} (hodd : k % 2 = 1) : x * (x * x) ^ (k / 2) = x ^ k := by
  rw [← pow_two, ← pow_mul, ← pow_succ']
  congr 1
  omega

/-- Repeated squaring is the exact power followed by the passage to a word. -/
theorem mulPow?_eq (hsafe : SquaringSafe acc base) :
    mulPow? acc base k = ofInt? w (acc.val * base.val ^ k) := by
  induction k using Nat.strong_induction_on generalizing acc base with
  | _ k ih =>
      by_cases hk : k < 2
      · exact mulPow?_of_lt_two hk
      have hk : 2 ≤ k := by omega
      by_cases hsquare : w.Contains (base.val * base.val)
      swap
      · -- where the square is out of range the power is too, and both sides give nothing
        have hpow : ¬w.Contains (acc.val * base.val ^ k) := mt (contains_square hsafe hk) hsquare
        rw [ofInt?_eq_none.2 hpow]
        have hnone : mul? base base = none := ofInt?_eq_none.2 hsquare
        obtain heven | hodd := Nat.mod_two_eq_zero_or_one k
        · rw [mulPow?_of_even hk heven, hnone, Option.bind_none]
        · rw [mulPow?_of_odd hk hodd, hnone]
          cases mul? acc base <;> rfl
      have hsquare : mul? base base = some _ := ofInt?_of_contains hsquare
      obtain heven | hodd := Nat.mod_two_eq_zero_or_one k
      · rw [mulPow?_of_even hk heven, hsquare, Option.bind_some,
          ih (k / 2) (by omega) (hsafe.square rfl), pow_of_even heven]
      · rw [mulPow?_of_odd hk hodd]
        by_cases hproduct : w.Contains (acc.val * base.val)
        · have hproduct : mul? acc base = some _ := ofInt?_of_contains hproduct
          rw [hproduct, hsquare, Option.bind_some, Option.bind_some,
            ih (k / 2) (by omega) (hsafe.mul rfl rfl), mul_assoc, pow_of_odd hodd]
        · have hpow : ¬w.Contains (acc.val * base.val ^ k) := mt (contains_product hk hodd) hproduct
          have hproduct : mul? acc base = none := ofInt?_eq_none.2 hproduct
          rw [ofInt?_eq_none.2 hpow, hproduct, Option.bind_none]

/-- A power of a word is checked as if it were computed exactly. -/
theorem pow?_eq (base : Word w) (k : ℕ) : pow? base k = ofInt? w (base.val ^ k) := by
  unfold pow?
  rw [mulPow?_eq (squaringSafe_one base)]
  simp [one]

theorem div?_eq_some {c : Word w} :
    div? a b = some c ↔ b.val ≠ 0 ∧ c.val = a.val.tdiv b.val := by
  unfold div?
  by_cases hb : b.val = 0 <;> simp [hb]

theorem rem?_eq_some {c : Word w} :
    rem? a b = some c ↔
      b.val ≠ 0 ∧ w.Contains (a.val.tdiv b.val) ∧ c.val = a.val.tmod b.val := by
  unfold rem? div?
  by_cases hb : b.val = 0
  · simp [hb]
  by_cases hquotient : w.Contains (a.val.tdiv b.val)
  · simp [hb, hquotient, ofInt?_of_contains hquotient]
  · simp [hb, hquotient, ofInt?_eq_none.2 hquotient]

/-- What a quotient leaves lies between zero and the dividend. -/
theorem contains_tmod (a b : Word w) : w.Contains (a.val.tmod b.val) := by
  have hzero := w.least_le_zero
  have hone := w.one_le_greatest
  have hleast := a.least_le
  have hgreatest := a.le_greatest
  have hsize : (a.val.tmod b.val).natAbs ≤ a.val.natAbs := by
    rw [Int.natAbs_tmod]
    exact Nat.mod_le _ _
  rcases le_total 0 a.val with ha | ha
  · have hnonneg := Int.tmod_nonneg b.val ha
    constructor <;> omega
  · have hnonneg := Int.tmod_nonneg b.val (neg_nonneg.2 ha)
    rw [Int.neg_tmod] at hnonneg
    constructor <;> omega

/-- Rounded toward zero, every quotient is a word but that of the least one by minus one. -/
theorem contains_tdiv (hb : b.val ≠ 0) :
    w.Contains (a.val.tdiv b.val) ↔ ¬(a.val = w.least ∧ b.val = -1) := by
  constructor
  · rintro ⟨-, hgreatest⟩ ⟨ha, hone⟩
    rw [ha, hone, Int.tdiv_neg, Int.tdiv_one] at hgreatest
    cases hs : w.signed with
    | true =>
        have htwo := w.two_mul_least hs
        unfold Width.greatest at hgreatest
        omega
    | false =>
        have hnonneg := b.val_nonneg hs
        omega
  · intro hexcept
    by_cases hone : b.val = 1
    · rw [hone, Int.tdiv_one]
      exact a.contains_val
    by_cases hminus : b.val = -1
    · rw [hminus, Int.tdiv_neg, Int.tdiv_one]
      have hleast := a.least_le
      have hgreatest := a.le_greatest
      have hmodulus := w.four_le_modulus
      unfold Width.greatest at hgreatest
      cases hs : w.signed with
      | true =>
          have htwo := w.two_mul_least hs
          constructor
          · omega
          · unfold Width.greatest
            omega
      | false =>
          have hnonneg := b.val_nonneg hs
          omega
    have hdivisor : 2 ≤ |b.val| := by
      rcases abs_cases b.val with ⟨h, _⟩ | ⟨h, _⟩ <;> omega
    refine Width.contains_of_two_mul_abs_le a.contains_val ?_ ?_
    · rw [Int.abs_eq_natAbs] at hdivisor
      rw [Int.abs_eq_natAbs, Int.abs_eq_natAbs, Int.natAbs_tdiv]
      have hhalf : a.val.natAbs.div b.val.natAbs ≤ a.val.natAbs / 2 :=
        Nat.div_le_div_left (by omega) (by decide)
      omega
    · intro hs
      exact Int.tdiv_nonneg (a.val_nonneg hs) (b.val_nonneg hs)

end Word

end Abacus
