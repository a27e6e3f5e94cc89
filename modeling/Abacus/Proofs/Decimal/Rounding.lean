import Mathlib.Algebra.Order.Field.Rat
import Mathlib.Algebra.Order.Field.Power
import Mathlib.Data.Rat.Floor
import Mathlib.Tactic.Linarith
import Mathlib.Tactic.NormNum
import Mathlib.Tactic.Ring
import Mathlib.Tactic.FieldSimp
import Abacus.Decimal.Rounding

/-!
# Rounding to decimal numbers

Rounding to an integer takes the nearest one, and the even one of two that are equally near. The
decimal roundings are that rounding on the grid of the multiples of a power of ten: the power is
fixed for a number of places, and it follows the leading digit where digits are counted from there.
-/

namespace Abacus.Decimal

/-- No integer is nearer to `q` than `n`, and `n` is even if another one is as near. -/
structure IsNearest (q : ℚ) (n : ℤ) : Prop where
  near : |q - n| ≤ 1 / 2
  even : |q - n| = 1 / 2 → Even n

/-- Rounding `q` to a multiple of `10 ^ e` gives `v`. -/
def RoundsTo (q : ℚ) (e : ℤ) (v : ℚ) : Prop :=
  ∃ n : ℤ, IsNearest (q * 10 ^ (-e)) n ∧ v = n * 10 ^ e

section Nearest

variable {q : ℚ} {n m : ℤ}

theorem isNearest_roundHalfEven (q : ℚ) : IsNearest q (roundHalfEven q) := by
  have hlow : (q.floor : ℚ) ≤ q := Rat.floor_le q
  have hhigh : q < q.floor + 1 := by exact_mod_cast Rat.lt_floor_add_one q
  unfold roundHalfEven
  generalize q.floor = below at *
  dsimp only
  split_ifs with hfirst hsecond
  · have hdistance : |q - below| = q - below := abs_of_nonneg (by linarith)
    exact ⟨by linarith, fun h => by linarith⟩
  · have hdistance : |q - (below + 1 : ℤ)| = below + 1 - q := by
      rw [abs_of_nonpos (by push_cast; linarith)]
      push_cast
      ring
    exact ⟨by linarith, fun h => by linarith⟩
  · have hhalf : q = below + 1 / 2 := by linarith
    have heven : Even (below + below % 2) := by
      rw [Int.even_iff]
      omega
    refine ⟨?_, fun _ => heven⟩
    rcases Int.emod_two_eq_zero_or_one below with hparity | hparity <;> rw [hparity, hhalf] <;>
      norm_num

theorem IsNearest.not_lt (hn : IsNearest q n) (hm : IsNearest q m) : ¬n < m := by
  intro hlt
  have hnext : (n : ℚ) + 1 ≤ m := by exact_mod_cast hlt
  have hlow := abs_le.1 hn.near
  have hhigh := abs_le.1 hm.near
  -- The two are neighbours with `q` in the middle, and only one of them is even.
  have hq : q = n + 1 / 2 := by linarith
  have hm' : (m : ℚ) = n + 1 := by linarith
  have hneighbour : m = n + 1 := by exact_mod_cast hm'
  have hleft : |q - n| = 1 / 2 := by rw [hq]; norm_num
  have hright : |q - m| = 1 / 2 := by rw [hq, hm']; norm_num
  obtain ⟨a, ha⟩ := hn.even hleft
  obtain ⟨b, hb⟩ := hm.even hright
  omega

/-- Exactly one integer is the rounded one. -/
theorem isNearest_iff : IsNearest q n ↔ n = roundHalfEven q := by
  have hround := isNearest_roundHalfEven q
  constructor
  · intro h
    exact le_antisymm (not_lt.1 (hround.not_lt h)) (not_lt.1 (h.not_lt hround))
  · rintro rfl
    exact hround

theorem IsNearest.neg (h : IsNearest q n) : IsNearest (-q) (-n) := by
  have hdistance : |-q - (-n : ℤ)| = |q - n| := by
    rw [← abs_neg]
    push_cast
    ring_nf
  exact ⟨hdistance ▸ h.near, fun hhalf => (h.even (hdistance ▸ hhalf)).neg⟩

/-- Rounding does not pass an integer. -/
theorem IsNearest.le_of_le (h : IsNearest q n) (hm : m ≤ q) : m ≤ n := by
  have hnear := abs_le.1 h.near
  have hlt : m < n + 1 := by exact_mod_cast (by linarith : (m : ℚ) < n + 1)
  omega

theorem IsNearest.ge_of_ge (h : IsNearest q n) (hm : q ≤ m) : n ≤ m := by
  have hnear := abs_le.1 h.near
  have hlt : n < m + 1 := by exact_mod_cast (by linarith : (n : ℚ) < m + 1)
  omega

theorem IsNearest.pos (h : IsNearest q n) (hq : 1 / 2 < q) : 0 < n := by
  have hnear := abs_le.1 h.near
  exact_mod_cast (by linarith : (0 : ℚ) < n)

end Nearest

section Powers

theorem ten_zpow_pos (e : ℤ) : (0 : ℚ) < 10 ^ e := zpow_pos (by norm_num) e

theorem ten_zpow_add (e f : ℤ) : (10 : ℚ) ^ (e + f) = 10 ^ e * 10 ^ f :=
  zpow_add₀ (by norm_num) e f

end Powers

section Size

variable {n k : ℕ}

theorem size_pos (n : ℕ) : 0 < size n := List.length_pos_iff.2 Nat.toDigits_ne_nil

theorem size_le_iff (hk : 0 < k) : size n ≤ k ↔ n < 10 ^ k :=
  Nat.length_toDigits_le_iff (by decide) hk

theorem lt_ten_pow_size (n : ℕ) : n < 10 ^ size n := (size_le_iff (size_pos n)).1 le_rfl

theorem ten_pow_le_of_lt_size (hn : n ≠ 0) (hk : k < size n) : 10 ^ k ≤ n := by
  rcases Nat.eq_zero_or_pos k with rfl | hpos
  · exact Nat.one_le_iff_ne_zero.2 hn
  · by_contra hlt
    exact absurd ((size_le_iff hpos).2 (not_le.1 hlt)) (not_le.2 hk)

theorem size_eq_succ_iff (hn : n ≠ 0) : size n = k + 1 ↔ 10 ^ k ≤ n ∧ n < 10 ^ (k + 1) := by
  rw [← size_le_iff (Nat.succ_pos k)]
  constructor
  · intro hsize
    exact ⟨ten_pow_le_of_lt_size hn (by omega), hsize.le⟩
  · rintro ⟨hlow, hhigh⟩
    have hk : k < size n := by
      by_contra hle
      have hsmall := lt_ten_pow_size n
      have hpow : 10 ^ size n ≤ 10 ^ k := Nat.pow_le_pow_right (by decide) (not_lt.1 hle)
      omega
    omega

end Size

section Leading

variable {q : ℚ}

theorem natAbs_num_div_den (hq : 0 < q) : (q.num.natAbs : ℚ) / q.den = q := by
  have hnum : ((q.num.natAbs : ℤ) : ℚ) = q.num :=
    congrArg _ (Int.natAbs_of_nonneg (Rat.num_nonneg.2 hq.le))
  rw [Int.cast_natCast] at hnum
  rw [hnum, Rat.num_div_den]

/-- The number of digits of `n / d` before the point gives the leading exponent. -/
theorem leading_of_le {n d : ℕ} (hd : 0 < d) (h : d ≤ n) :
    (10 : ℚ) ^ ((size (n / d) : ℤ) - 1) ≤ n / d ∧ (n / d : ℚ) < 10 ^ (size (n / d) : ℤ) := by
  have hd' : (0 : ℚ) < d := by exact_mod_cast hd
  obtain ⟨s, hs⟩ := Nat.exists_eq_succ_of_ne_zero (size_pos (n / d)).ne'
  obtain ⟨hlow, hhigh⟩ := (size_eq_succ_iff (Nat.div_pos h hd).ne').1 hs
  have hlow' : 10 ^ s * d ≤ n := (Nat.le_div_iff_mul_le hd).1 hlow
  have hhigh' : n < 10 ^ (s + 1) * d := (Nat.div_lt_iff_lt_mul hd).1 hhigh
  have hexponent : (size (n / d) : ℤ) - 1 = s := by omega
  rw [hexponent, hs, zpow_natCast, zpow_natCast, le_div_iff₀ hd', div_lt_iff₀ hd']
  exact ⟨by exact_mod_cast hlow', by exact_mod_cast hhigh'⟩

/-- For a number below one the digits of its inverse are counted. -/
theorem leading_of_lt {n d : ℕ} (hn : 0 < n) (h : n < d) :
    (10 : ℚ) ^ (-(size ((d - 1) / n) : ℤ)) ≤ n / d ∧
      (n / d : ℚ) < 10 ^ (-(size ((d - 1) / n) : ℤ) + 1) := by
  have hd' : (0 : ℚ) < d := by exact_mod_cast hn.trans h
  obtain ⟨s, hs⟩ := Nat.exists_eq_succ_of_ne_zero (size_pos ((d - 1) / n)).ne'
  obtain ⟨hlow, hhigh⟩ := (size_eq_succ_iff (Nat.div_pos (by omega) hn).ne').1 hs
  have hlow' : 10 ^ s * n ≤ d - 1 := (Nat.le_div_iff_mul_le hn).1 hlow
  have hhigh' : d - 1 < 10 ^ (s + 1) * n := (Nat.div_lt_iff_lt_mul hn).1 hhigh
  have hlow'' : ((10 ^ s * n : ℕ) : ℚ) < d := by exact_mod_cast (by omega : 10 ^ s * n < d)
  have hhigh'' : (d : ℚ) ≤ (10 ^ (s + 1) * n : ℕ) := by
    exact_mod_cast (by omega : d ≤ 10 ^ (s + 1) * n)
  have hexponent : -((s + 1 : ℕ) : ℤ) + 1 = -s := by omega
  push_cast at hlow'' hhigh''
  rw [hs, Nat.succ_eq_add_one, hexponent, zpow_neg, zpow_neg, zpow_natCast, zpow_natCast]
  have hpow : (0 : ℚ) < 10 ^ (s + 1) := by positivity
  have hpow' : (0 : ℚ) < 10 ^ s := by positivity
  constructor
  · rw [inv_le_iff_one_le_mul₀ hpow, div_mul_eq_mul_div, one_le_div hd']
    linarith
  · rw [lt_inv_comm₀ (by positivity) hpow', inv_div, lt_div_iff₀ (by positivity)]
    exact hlow''

/-- The leading exponent of `q` is the greatest one of a power of ten up to `q`. -/
theorem leadingExponent_spec (hq : 0 < q) :
    (10 : ℚ) ^ leadingExponent q ≤ q ∧ q < 10 ^ (leadingExponent q + 1) := by
  have hnum : 0 < q.num.natAbs := Int.natAbs_pos.2 (Rat.num_pos.2 hq).ne'
  unfold leadingExponent
  dsimp only
  split_ifs with hle
  · have hlead := leading_of_le q.den_pos hle
    rw [natAbs_num_div_den hq] at hlead
    rwa [sub_add_cancel]
  · have hlead := leading_of_lt hnum (not_le.1 hle)
    rwa [natAbs_num_div_den hq] at hlead

end Leading

section Rounded

variable {q v : ℚ} {e : ℤ}

/-- A number is rounded to exactly one multiple of a power of ten. -/
theorem roundsTo_iff : RoundsTo q e v ↔ v = roundHalfEven (q * 10 ^ (-e)) * 10 ^ e := by
  constructor
  · rintro ⟨n, hn, rfl⟩
    rw [isNearest_iff.1 hn]
  · intro hv
    exact ⟨_, isNearest_roundHalfEven _, hv⟩

theorem RoundsTo.neg (h : RoundsTo q e v) : RoundsTo (-q) e (-v) := by
  obtain ⟨n, hn, rfl⟩ := h
  refine ⟨-n, ?_, by push_cast; ring⟩
  rw [neg_mul]
  exact hn.neg

/-- What is more than half a unit of the last place is not rounded to zero. -/
theorem RoundsTo.pos (h : RoundsTo q e v) (hq : 1 / 2 < q * 10 ^ (-e)) : 0 < v := by
  obtain ⟨n, hn, rfl⟩ := h
  have hpos : (0 : ℚ) < n := by exact_mod_cast hn.pos hq
  exact mul_pos hpos (ten_zpow_pos e)

theorem natCast_toNat_roundHalfEven (hq : 0 ≤ q) :
    (((roundHalfEven q).toNat : ℤ) : ℚ) = roundHalfEven q := by
  have hpos : 0 ≤ roundHalfEven q := (isNearest_roundHalfEven q).le_of_le (by exact_mod_cast hq)
  rw [Int.toNat_of_nonneg hpos]

theorem toPlaces_spec (hq : 0 ≤ q) (places : ℕ) :
    RoundsTo q (-places) (toPlaces q places).toRat := by
  rw [roundsTo_iff, neg_neg, zpow_natCast, toPlaces, toRat,
    ← natCast_toNat_roundHalfEven (by positivity), Int.cast_natCast]

theorem scaled_bounds (hq : 0 < q) (places : ℕ) :
    ((10 ^ places : ℤ) : ℚ) ≤ q * 10 ^ (places - leadingExponent q) ∧
      q * 10 ^ (places - leadingExponent q) ≤ ((10 ^ (places + 1) : ℤ) : ℚ) := by
  obtain ⟨hlow, hhigh⟩ := leadingExponent_spec hq
  generalize leadingExponent q = e at *
  have hscale := ten_zpow_pos (places - e)
  constructor
  · calc
      ((10 ^ places : ℤ) : ℚ) = 10 ^ e * 10 ^ (places - e) := by
        rw [← ten_zpow_add, add_sub_cancel, zpow_natCast]
        push_cast
        rfl
      _ ≤ q * 10 ^ (places - e) := mul_le_mul_of_nonneg_right hlow hscale.le
  · calc
      q * 10 ^ (places - e) ≤ 10 ^ (e + 1) * 10 ^ (places - e) :=
        mul_le_mul_of_nonneg_right hhigh.le hscale.le
      _ = 10 ^ ((places + 1 : ℕ) : ℤ) := by
        rw [← ten_zpow_add]
        congr 1
        push_cast
        ring
      _ = ((10 ^ (places + 1) : ℤ) : ℚ) := by
        rw [zpow_natCast]
        push_cast
        rfl

/-- A positive number rounded to a number of digits has so many of them, or it is the next power of
ten. -/
theorem rounded_bounds (hq : 0 < q) (places : ℕ) :
    10 ^ places ≤ (roundHalfEven (q * 10 ^ (places - leadingExponent q))).toNat ∧
      (roundHalfEven (q * 10 ^ (places - leadingExponent q))).toNat ≤ 10 ^ (places + 1) := by
  obtain ⟨hlow, hhigh⟩ := scaled_bounds hq places
  have hnear := isNearest_roundHalfEven (q * 10 ^ (places - leadingExponent q))
  have hlow' := hnear.le_of_le hlow
  have hhigh' := hnear.ge_of_ge hhigh
  exact ⟨(Int.le_toNat ((by positivity : (0 : ℤ) ≤ 10 ^ places).trans hlow')).2
      (by exact_mod_cast hlow'),
    Int.toNat_le.2 (by exact_mod_cast hhigh')⟩

/-- As many digits of the rounded number are given as were asked for. Where the rounding carries
into a further digit, a zero at the end is left out for it. -/
theorem toScientific_spec (hq : 0 < q) (places : ℕ) :
    ∃ (m : ℕ) (e : ℤ), toScientific q places = (⟨m, -places⟩, e) ∧
      m ≠ 0 ∧ size m = places + 1 ∧
      RoundsTo q (leadingExponent q - places) ((⟨m, -places⟩ : Decimal).toRat * 10 ^ e) := by
  obtain ⟨hlow, hhigh⟩ := rounded_bounds hq places
  have hpow : 0 < 10 ^ places := by positivity
  have hcast := natCast_toNat_roundHalfEven
    (mul_nonneg hq.le (ten_zpow_pos (places - leadingExponent q)).le)
  unfold toScientific
  simp only [roundsTo_iff, neg_sub]
  generalize leadingExponent q = lead at *
  generalize roundHalfEven (q * 10 ^ (places - lead)) = k at *
  generalize k.toNat = n at *
  by_cases hcarry : n = 10 ^ (places + 1)
  · have hsize : size n = places + 2 :=
      (size_eq_succ_iff (by omega)).2 ⟨hcarry.ge, hcarry ▸ Nat.pow_lt_pow_succ (by decide)⟩
    have htenth : n / 10 = 10 ^ places := by
      rw [hcarry, pow_succ, Nat.mul_div_cancel _ (by decide)]
    refine ⟨n / 10, lead + 1, if_pos hsize, by omega, ?_, ?_⟩
    · rw [htenth]
      exact (size_eq_succ_iff hpow.ne').2 ⟨le_rfl, Nat.pow_lt_pow_succ (by decide)⟩
    · rw [← hcast, htenth, hcarry, toRat]
      push_cast
      rw [ten_zpow_add, sub_eq_add_neg, ten_zpow_add, pow_succ, zpow_one]
      ring
  · have hsize : size n = places + 1 := (size_eq_succ_iff (by omega)).2 ⟨hlow, by omega⟩
    refine ⟨n, lead, if_neg (by omega), by omega, hsize, ?_⟩
    rw [← hcast, toRat, sub_eq_add_neg, ten_zpow_add]
    push_cast
    ring

end Rounded

end Abacus.Decimal
