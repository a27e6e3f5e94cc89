import Mathlib.Algebra.Order.Field.Power
import Abacus.Proofs.Number.Whole

/-!
# The double nearest to a number

A double with all its digits is the nearest one to every number that is less than half a unit of its
last place away from it. The doubles that are read for the places after the point are such ones.
-/

namespace Abacus.Binary64

/-- `t` is the value of a double, and every other double is farther from `c`. -/
structure IsNearest (c t : ℚ) : Prop where
  value : ∃ x, (reading x).toRat? = some t
  nearest : ∀ x v, (reading x).toRat? = some v → v ≠ t → |t - c| < |v - c|

section Nearest

variable {c v : ℚ} {m : ℕ} {e : ℤ} {x : Float}

theorem isFinite_of_toRat? (h : (reading x).toRat? = some v) : x.isFinite = true := by
  change (unpack x).isFinite = true
  rw [reading] at h
  cases hx : unpack x with
  | notANumber =>
      rw [hx] at h
      cases h
  | infinity s =>
      rw [hx] at h
      cases h
  | zero s => rfl
  | finite s m e hm => rfl

/-- The value of a double is an integer of at most 53 digits times a power of two. -/
theorem exists_of_toRat? (h : (reading x).toRat? = some v) :
    ∃ n e : ℤ, n < 2 ^ 53 ∧ v = n * 2 ^ e := by
  have hfinite := isFinite_of_toRat? h
  rw [reading] at h
  rcases unpack_cases hfinite with ⟨s, hs⟩ | ⟨s, m, e, hm, hs, hm', -⟩
  · rw [hs] at h
    obtain rfl := Option.some.inj h
    exact ⟨0, 0, by norm_num, by simp⟩
  · rw [hs] at h
    obtain rfl := Option.some.inj h
    cases s with
    | positive => exact ⟨m, e, by exact_mod_cast hm', rfl⟩
    | negative => exact ⟨-m, e, by omega, by simp [Binary.isNegativeSign]⟩

theorem two_zpow_pos (e : ℤ) : (0 : ℚ) < 2 ^ e := zpow_pos (by norm_num) e

/-- On the grid of the multiples of a power of two there is only one number less than half a step
away from a given one. -/
theorem grid_lt {m j : ℤ} (hnear : |m * 2 ^ e - c| < 2 ^ (e - 1)) (hj : j ≠ m) :
    |m * 2 ^ e - c| < |j * 2 ^ e - c| := by
  have hstep : (2 : ℚ) ^ e = 2 ^ (e - 1) + 2 ^ (e - 1) := by
    rw [zpow_sub_one₀ (by norm_num)]
    ring
  have hone : (1 : ℚ) ≤ |((j - m : ℤ) : ℚ)| := by
    exact_mod_cast Int.one_le_abs (sub_ne_zero.2 hj)
  have hapart : (2 : ℚ) ^ e ≤ |(j * 2 ^ e - m * 2 ^ e : ℚ)| := by
    rw [← sub_mul, abs_mul, abs_of_pos (two_zpow_pos e)]
    push_cast at hone
    exact le_mul_of_one_le_left (two_zpow_pos e).le hone
  have htriangle : |(j * 2 ^ e - m * 2 ^ e : ℚ)| ≤ |j * 2 ^ e - c| + |m * 2 ^ e - c| := by
    rw [abs_sub_comm (m * 2 ^ e : ℚ) c]
    exact abs_sub_le _ _ _
  linarith

/-- The numbers below the grid are farther away than the nearest one on it. -/
theorem below_lt {m : ℤ} (hm : 2 ^ 52 ≤ m) (hc : (2 : ℚ) ^ (e + 52) ≤ c)
    (hnear : |m * 2 ^ e - c| < 2 ^ (e - 1)) (hv : v < 2 ^ (e + 52)) :
    |m * 2 ^ e - c| < |v - c| := by
  have hleast : ((2 ^ 52 : ℤ) : ℚ) * 2 ^ e = 2 ^ (e + 52) := by
    rw [add_comm, zpow_add₀ (by norm_num)]
    norm_num
  have hv' : |v - c| = c - v := by
    rw [abs_sub_comm, abs_of_pos (by linarith)]
  have hleast' : |(2 : ℚ) ^ (e + 52) - c| = c - 2 ^ (e + 52) := by
    rw [abs_sub_comm, abs_of_nonneg (by linarith)]
  rw [hv']
  rcases hm.eq_or_lt with rfl | hm
  · rw [hleast, hleast']
    linarith
  · have hgrid := grid_lt hnear hm.ne
    rw [hleast, hleast'] at hgrid
    linarith

theorem isNearest_of_close (hx : reading x = .finite false m e) (hm : 2 ^ 52 ≤ m)
    (hc : (2 : ℚ) ^ (e + 52) ≤ c) (hnear : |m * 2 ^ e - c| < 2 ^ (e - 1)) :
    IsNearest c (m * 2 ^ e) := by
  refine ⟨⟨x, by rw [hx]; rfl⟩, ?_⟩
  intro y v hv hne
  obtain ⟨n, e', hn, rfl⟩ := exists_of_toRat? hv
  rw [← Int.cast_natCast m] at hnear hne ⊢
  rcases le_or_gt e e' with hle | hlt
  · -- A double of the same or a larger exponent is on the same grid.
    have hgrid : (n : ℚ) * 2 ^ e' = ((n * 2 ^ (e' - e).toNat : ℤ) : ℚ) * 2 ^ e := by
      have hexponent : e' = (e' - e).toNat + e := by omega
      rw [hexponent, zpow_add₀ (by norm_num), zpow_natCast, ← hexponent]
      push_cast
      ring
    rw [hgrid] at hne ⊢
    refine grid_lt hnear ?_
    intro heq
    exact hne (by rw [heq])
  · -- All others are below the least double that has all its digits.
    have hsmall : (n : ℚ) * 2 ^ e' < 2 ^ (e + 52) := by
      calc
        (n : ℚ) * 2 ^ e' < 2 ^ 53 * 2 ^ e' :=
          mul_lt_mul_of_pos_right (by exact_mod_cast hn) (two_zpow_pos e')
        _ = 2 ^ (e' + 53) := by
          rw [add_comm, zpow_add₀ (by norm_num)]
          rfl
        _ ≤ 2 ^ (e + 52) := zpow_le_zpow_right₀ (by norm_num) (by omega)
    exact below_lt (by exact_mod_cast hm) hc hnear hsmall

end Nearest

section Tenths

/-- A double with all its digits that is less than half a unit of its last place away from `c`. -/
def IsClose (c : ℚ) : Binary.Reading → Prop
  | .finite false m e =>
    2 ^ 52 ≤ m ∧ 2 ^ (e + 52) ≤ c ∧ |m * 2 ^ e - c| < 2 ^ (e - 1)
  | _ => False

instance (c : ℚ) : ∀ r, Decidable (IsClose c r)
  | .finite false _ _ => inferInstanceAs (Decidable (_ ∧ _ ∧ _))
  | .finite true _ _ | .infinite _ | .nan => inferInstanceAs (Decidable False)

theorem isClose_ofDecimal_one :
    ∀ places : ℕ, places < 18 →
      IsClose (10 ^ (-(places : ℤ))) (reading (ofDecimal 1 (-places))) := by
  decide +kernel

theorem IsClose.exists_isNearest {c : ℚ} {x : Float} (h : IsClose c (reading x)) :
    ∃ t, (reading x).toRat? = some t ∧ IsNearest c t ∧ c / 2 < t := by
  unfold IsClose at h
  split at h
  · next m e hx =>
      obtain ⟨hm, hc, hnear⟩ := h
      refine ⟨m * 2 ^ e, by rw [hx]; rfl, isNearest_of_close hx hm hc hnear, ?_⟩
      have hlow := (abs_lt.1 hnear).1
      have hpow : (2 : ℚ) ^ (e - 1) ≤ 2 ^ (e + 52 - 1) :=
        zpow_le_zpow_right₀ (by norm_num) (by omega)
      rw [zpow_sub_one₀ (by norm_num : (2 : ℚ) ≠ 0) (e + 52)] at hpow
      linarith
  · exact h.elim

/-- The double that is read for one unit of the last place is the nearest one, and it is more than
half of that unit. -/
theorem exists_isNearest_unit {places : ℕ} (hplaces : places < 18) :
    ∃ t, (reading (ofDecimal 1 (-places))).toRat? = some t ∧
      IsNearest (10 ^ (-(places : ℤ))) t ∧ 10 ^ (-(places : ℤ)) / 2 < t :=
  (isClose_ofDecimal_one places hplaces).exists_isNearest

end Tenths

end Abacus.Binary64
