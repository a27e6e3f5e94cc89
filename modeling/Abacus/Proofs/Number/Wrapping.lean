import Mathlib.Data.Int.ModEq
import Abacus.Proofs.Arithmetic

/-!
# Words modulo a power of two

The total operations compute with representatives: each integer is congruent to exactly one word of
a width, so the laws of the integers hold of words as well. A checked operation gives the same word
as the total one where the exact result is a word, and says so where it is not. So does a power,
whatever squares there are on the way to it.
-/

namespace Abacus

open Arithmetic

namespace Width

theorem modulus_eq (w : Width) : w.modulus = 2 ^ w.bits :=
  Nat.cast_pow 2 w.bits

/-- The words of a signed width are the integers in two's complement, those of an unsigned one the
natural numbers of so many bits. -/
theorem contains_iff (w : Width) (n : ℤ) :
    w.Contains n ↔
      if w.signed then -2 ^ (w.bits - 1) ≤ n ∧ n < 2 ^ (w.bits - 1)
      else 0 ≤ n ∧ n < 2 ^ w.bits := by
  have hmodulus := w.modulus_eq
  cases hs : w.signed with
  | true =>
      have htwo := w.two_mul_least hs
      have hleast : w.least = -2 ^ (w.bits - 1) := by
        rw [least, if_pos hs]
        exact congrArg (-·) (Nat.cast_pow 2 (w.bits - 1))
      simp only [Contains, greatest, ← hleast, if_true]
      omega
  | false =>
      simp only [Contains, greatest, least_eq_zero hs, ← hmodulus, Bool.false_eq_true, if_false]
      omega

end Width

namespace Word

variable {w : Width} {a b : Word w} {m n : ℤ}

/-- The word that stands for an integer: of the integers in range, the only one congruent to it. -/
structure Represents (a : Word w) (n : ℤ) : Prop where
  congruent : a.val ≡ n [ZMOD 2 ^ w.bits]
  unique : ∀ m, w.Contains m → m ≡ n [ZMOD 2 ^ w.bits] → m = a.val

theorem wrap_modEq (w : Width) (n : ℤ) : (wrap w n).val ≡ n [ZMOD w.modulus] := by
  have hrest := Int.mod_modEq (n - w.least) w.modulus
  have hsum := hrest.add_left w.least
  rwa [add_sub_cancel] at hsum

/-- Two words are less than the number of words apart. -/
theorem eq_of_modEq (hm : w.Contains m) (hn : w.Contains n) (h : m ≡ n [ZMOD w.modulus]) :
    m = n := by
  obtain ⟨hleast, hgreatest⟩ := hm
  obtain ⟨hleast', hgreatest'⟩ := hn
  unfold Width.greatest at hgreatest hgreatest'
  have hrest : (m - w.least) % w.modulus = (n - w.least) % w.modulus := h.sub_right w.least
  rw [Int.emod_eq_of_lt (by omega) (by omega), Int.emod_eq_of_lt (by omega) (by omega)] at hrest
  omega

theorem represents_wrap (w : Width) (n : ℤ) : (wrap w n).Represents n := by
  constructor
  · rw [← w.modulus_eq]
    exact wrap_modEq w n
  · intro m hm hcongruent
    rw [← w.modulus_eq] at hcongruent
    exact eq_of_modEq hm (wrap w n).contains_val (hcongruent.trans (wrap_modEq w n).symm)

theorem wrap_congr (h : m ≡ n [ZMOD w.modulus]) : wrap w m = wrap w n := by
  apply ext
  refine eq_of_modEq (wrap w m).contains_val (wrap w n).contains_val ?_
  exact (wrap_modEq w m).trans (h.trans (wrap_modEq w n).symm)

theorem wrap_of_contains (h : w.Contains n) : (wrap w n).val = n :=
  eq_of_modEq (wrap w n).contains_val h (wrap_modEq w n)

/-! ## Laws of the total operations -/

section Laws

protected theorem add_comm (a b : Word w) : add a b = add b a := by
  rw [add, add, Int.add_comm]

protected theorem add_assoc (a b c : Word w) : add (add a b) c = add a (add b c) := by
  apply wrap_congr
  have hleft := (wrap_modEq w (a.val + b.val)).add_right c.val
  have hright := (wrap_modEq w (b.val + c.val)).add_left a.val
  rw [Int.add_assoc] at hleft
  exact hleft.trans hright.symm

protected theorem mul_comm (a b : Word w) : mul a b = mul b a := by
  rw [mul, mul, Int.mul_comm]

protected theorem mul_assoc (a b c : Word w) : mul (mul a b) c = mul a (mul b c) := by
  apply wrap_congr
  have hleft := (wrap_modEq w (a.val * b.val)).mul_right c.val
  have hright := (wrap_modEq w (b.val * c.val)).mul_left a.val
  rw [Int.mul_assoc] at hleft
  exact hleft.trans hright.symm

protected theorem mul_add (a b c : Word w) : mul a (add b c) = add (mul a b) (mul a c) := by
  apply wrap_congr
  have hleft := (wrap_modEq w (b.val + c.val)).mul_left a.val
  have hright := (wrap_modEq w (a.val * b.val)).add (wrap_modEq w (a.val * c.val))
  rw [Int.mul_add] at hleft
  exact hleft.trans hright.symm

theorem add_sub_sub (a b : Word w) : add (sub a b) (sub b a) = zero := by
  apply ext
  refine eq_of_modEq (contains_val _) w.contains_zero ((wrap_modEq w _).trans ?_)
  have hsum := (wrap_modEq w (a.val - b.val)).add (wrap_modEq w (b.val - a.val))
  rwa [sub_add_sub_cancel, sub_self] at hsum

end Laws

end Word

namespace Arithmetic

variable {w : Width}

/-! ## Checked operations -/

/-- A checked operation with the exact result `n`, and the total one beside it. -/
structure IsChecked (op : Operation) (n : ℤ) (total : Word w)
    (result : Except ArithmeticError (Word w)) : Prop where
  fits : w.Contains n → result = .ok total ∧ total.val = n
  overflows : ¬w.Contains n → result = .error (.overflow op)

theorem isChecked_wrap (op : Operation) (n : ℤ) :
    IsChecked op n (Word.wrap w n) (orOverflow op (Word.ofInt? w n)) := by
  constructor
  · intro hn
    have hvalue := Word.wrap_of_contains hn
    rw [Word.ofInt?_eq_some.2 hvalue]
    exact ⟨rfl, hvalue⟩
  · intro hn
    rw [Word.ofInt?_eq_none.2 hn]
    rfl

/-- On the words of any width, addition, subtraction and multiplication are exact modulo the number
of words and keep to the laws of a ring, and the checked operations are exact or say that they
overflow. -/
theorem words_modular (a b c : Word w) :
    (∀ n, w.Contains n ↔
        if w.signed then -2 ^ (w.bits - 1) ≤ n ∧ n < 2 ^ (w.bits - 1)
        else 0 ≤ n ∧ n < 2 ^ w.bits) ∧
      ((add a b).Represents (a.val + b.val) ∧ (subtract a b).Represents (a.val - b.val) ∧
        (multiply a b).Represents (a.val * b.val)) ∧
      (add a b = add b a ∧ add (add a b) c = add a (add b c) ∧ multiply a b = multiply b a ∧
        multiply (multiply a b) c = multiply a (multiply b c) ∧
        multiply a (add b c) = add (multiply a b) (multiply a c) ∧
        add (subtract a b) (subtract b a) = Number.zero) ∧
      IsChecked .add (a.val + b.val) (add a b) (checkedAdd a b) ∧
      IsChecked .subtract (a.val - b.val) (subtract a b) (checkedSubtract a b) ∧
      IsChecked .multiply (a.val * b.val) (multiply a b) (checkedMultiply a b) := by
  have hrepresents := Word.represents_wrap w
  refine ⟨w.contains_iff, ⟨hrepresents _, hrepresents _, hrepresents _⟩, ?_,
    isChecked_wrap .add _, isChecked_wrap .subtract _, isChecked_wrap .multiply _⟩
  exact ⟨Word.add_comm a b, Word.add_assoc a b c, Word.mul_comm a b, Word.mul_assoc a b c,
    Word.mul_add a b c, Word.add_sub_sub a b⟩

/-! ## Powers -/

theorem isChecked_power (base : Word w) (k : ℕ) :
    IsChecked .power (base.val ^ k) (Word.wrap w (base.val ^ k)) (power base k) := by
  have hpow : Number.pow? base k = Word.ofInt? w (base.val ^ k) := Word.pow?_eq base k
  rw [power, hpow]
  exact isChecked_wrap .power _

/-- A square is the product of a word by itself, but for the operation that a failure names. -/
theorem square_eq_ok {a c : Word w} : square a = .ok c ↔ checkedMultiply a a = .ok c := by
  rw [square, power_eq_ok, checkedMultiply_eq_ok, pow_two]

/-- The power of a word is exact if it is a word, and overflows only if it is not. -/
theorem power_exact (base : Word w) (exponent : ℕ) :
    (∀ n, w.Contains n ↔
        if w.signed then -2 ^ (w.bits - 1) ≤ n ∧ n < 2 ^ (w.bits - 1)
        else 0 ≤ n ∧ n < 2 ^ w.bits) ∧
      (w.Contains (base.val ^ exponent) →
        ∃ p, power base exponent = .ok p ∧ p.val = base.val ^ exponent) ∧
      (¬w.Contains (base.val ^ exponent) → power base exponent = .error (.overflow .power)) ∧
      power base 0 = .ok Number.one ∧
      ∀ p, square base = .ok p ↔ checkedMultiply base base = .ok p := by
  have hpower := isChecked_power base exponent
  refine ⟨w.contains_iff, ?_, hpower.overflows, ?_, fun p => square_eq_ok⟩
  · intro hfits
    exact ⟨_, hpower.fits hfits⟩
  · rw [power_eq_ok, pow_zero]
    rfl

end Arithmetic

end Abacus
