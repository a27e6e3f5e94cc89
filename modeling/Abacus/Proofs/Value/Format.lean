import Abacus.Proofs.Decimal.Digits
import Abacus.Proofs.Decimal.Rounding
import Abacus.Proofs.Number.Nearest
import Abacus.Value.Format

/-!
# Correctly rounded texts

The text of a double is its value rounded once, to a number of places after the point or after the
leading digit. What is written with places is never rounded to zero, because the least double that
is written so is more than half a unit of the last place.
-/

namespace Abacus.Value

open Decimal (RoundsTo)

/-- The value of a numeral behind a sign. -/
def signedRat (negative : Bool) (n : Numeral) : ℚ := if negative then -n.toRat else n.toRat

/-- `n` is the numeral of the magnitude of `r`, rounded to a number of places after the point. -/
structure IsPlain (r : ℚ) (places : ℕ) (n : Numeral) : Prop where
  trimmed : n.IsTrimmed places
  exponent : n.exponent = none
  value : RoundsTo r (-places) (signedRat (decide (r < 0)) n)

/-- `n` is the numeral of the magnitude of `r` with one digit before the point and an exponent,
rounded to a number of places after the leading digit of `r`. -/
structure IsScientific (r : ℚ) (places : ℕ) (n : Numeral) : Prop where
  trimmed : n.IsTrimmed places
  whole : ∃ digit, n.whole = [digit] ∧ digit ≠ '0'
  exponent : ∃ e, n.exponent = some (.ofInt e)
  value : ∃ lead : ℤ, 10 ^ lead ≤ |r| ∧ |r| < 10 ^ (lead + 1) ∧
    RoundsTo r (lead - places) (signedRat (decide (r < 0)) n)

section Sign

variable {q : ℚ} {places : ℕ} {n : Numeral}

theorem signedRat_of_pos (hq : 0 < q) : signedRat (decide (q < 0)) n = n.toRat := by
  rw [decide_eq_false (not_lt.2 hq.le)]
  rfl

theorem signedRat_neg (hq : 0 < q) :
    signedRat (decide (-q < 0)) n = -signedRat (decide (q < 0)) n := by
  rw [signedRat_of_pos hq, decide_eq_true (neg_lt_zero.2 hq)]
  rfl

theorem IsPlain.neg (hq : 0 < q) (h : IsPlain q places n) : IsPlain (-q) places n := by
  refine ⟨h.trimmed, h.exponent, ?_⟩
  rw [signedRat_neg hq]
  exact h.value.neg

theorem IsScientific.neg (hq : 0 < q) (h : IsScientific q places n) :
    IsScientific (-q) places n := by
  obtain ⟨lead, hlow, hhigh, hvalue⟩ := h.value
  refine ⟨h.trimmed, h.whole, h.exponent, lead, ?_, ?_, ?_⟩
  · rwa [abs_neg]
  · rwa [abs_neg]
  · rw [signedRat_neg hq]
    exact hvalue.neg

end Sign

section Magnitude

variable {q t : ℚ} {places : ℕ} {n : Numeral}

theorem exists_isPlain (hq : 0 < q) (places : ℕ) :
    ∃ n, formatPlaces q places = n.chars ∧ IsPlain q places n := by
  have hvalue := Decimal.toPlaces_spec hq.le places
  rw [Decimal.toPlaces] at hvalue
  refine ⟨(Decimal.toPlaces q places).numeral none, ?_, ?_, rfl, ?_⟩
  · rw [Decimal.chars_numeral, Option.elim_none, List.append_nil]
    rfl
  · refine Decimal.isTrimmed_numeral _ _ ?_
    intro e he
    cases he
  · rw [signedRat_of_pos hq, Decimal.toPlaces, Decimal.toRat_numeral, Option.elim_none, zpow_zero,
      mul_one]
    exact hvalue

theorem exists_isScientific (hq : 0 < q) (places : ℕ) :
    ∃ n, formatScientific q places = n.chars ∧ IsScientific q places n := by
  obtain ⟨m, e, hrounded, hm, hsize, hvalue⟩ := Decimal.toScientific_spec hq places
  obtain ⟨hlow, hhigh⟩ := Decimal.leadingExponent_spec hq
  refine ⟨(⟨m, -places⟩ : Decimal).numeral (some (.ofInt e)), ?_, ?_, ?_, ⟨e, rfl⟩,
    Decimal.leadingExponent q, ?_, ?_, ?_⟩
  · rw [Decimal.chars_numeral, Option.elim_some, ExponentPart.chars_ofInt, formatScientific,
      hrounded]
  · refine Decimal.isTrimmed_numeral _ _ ?_
    rintro _ ⟨⟩
    exact ExponentPart.isScanned_ofInt e
  · have hlength := Decimal.length_whole m places
    have hhead := Decimal.head?_whole m places hm (by omega)
    rw [hsize, Nat.add_sub_cancel_left] at hlength
    obtain ⟨digit, hdigit⟩ := List.length_eq_one_iff.1 hlength
    rw [hdigit] at hhead
    exact ⟨digit, hdigit, fun hzero => hhead (congrArg some hzero)⟩
  · rwa [abs_of_pos hq]
  · rwa [abs_of_pos hq]
  · rw [signedRat_of_pos hq, Decimal.toRat_numeral, Option.elim_some, ExponentPart.toInt_ofInt]
    exact hvalue

theorem toRat_pos_of_isPlain (hq : 0 < q) (hunit : 10 ^ (-(places : ℤ)) / 2 < q)
    (h : IsPlain q places n) : 0 < n.toRat := by
  have hvalue := h.value
  rw [signedRat_of_pos hq] at hvalue
  have hscale := mul_lt_mul_of_pos_right hunit (Decimal.ten_zpow_pos (places : ℤ))
  rw [div_mul_eq_mul_div, ← Decimal.ten_zpow_add, neg_add_cancel, zpow_zero] at hscale
  refine hvalue.pos ?_
  rwa [neg_neg]

theorem toRat_pos_of_isScientific (hq : 0 < q) (h : IsScientific q places n) : 0 < n.toRat := by
  obtain ⟨lead, hlow, -, hvalue⟩ := h.value
  rw [signedRat_of_pos hq] at hvalue
  rw [abs_of_pos hq] at hlow
  have hscale := mul_le_mul_of_nonneg_right hlow (Decimal.ten_zpow_pos (places - lead)).le
  rw [← Decimal.ten_zpow_add, add_sub_cancel, zpow_natCast] at hscale
  have hone : (1 : ℚ) ≤ 10 ^ places := one_le_pow₀ (by norm_num)
  refine hvalue.pos ?_
  rw [neg_sub]
  linarith

/-- How the text of a positive number is made up, where numbers from `t` on are written with
places. -/
structure IsMagnitude (q t : ℚ) (places : ℕ) (n : Numeral) : Prop where
  plain : t ≤ q → q < 10 ^ 15 → IsPlain q places n
  scientific : q < t ∨ 10 ^ 15 ≤ q → IsScientific q (min places maxScientificPrecision) n
  trimmed : n.IsTrimmed places
  pos : 0 < n.toRat

theorem exists_isMagnitude (hq : 0 < q) (ht : smallestShown places = t)
    (hunit : 10 ^ (-(places : ℤ)) / 2 < t) :
    ∃ n, formatMagnitude q places = n.chars ∧ IsMagnitude q t places n := by
  have hlimit : scientificThreshold = 10 ^ 15 := by
    rw [scientificThreshold]
    norm_num
  unfold formatMagnitude
  rw [ht, hlimit]
  split_ifs with houtside
  · obtain ⟨n, hchars, hn⟩ := exists_isScientific hq (min places maxScientificPrecision)
    refine ⟨n, hchars, ?_, fun _ => hn, hn.trimmed.mono (min_le_left _ _),
      toRat_pos_of_isScientific hq hn⟩
    intro hlow hhigh
    exact absurd houtside (by rintro (h | h) <;> linarith)
  · rw [not_or, not_le, not_lt] at houtside
    obtain ⟨n, hchars, hn⟩ := exists_isPlain hq places
    have hpos := toRat_pos_of_isPlain hq (hunit.trans_le houtside.2) hn
    refine ⟨n, hchars, fun _ _ => hn, ?_, hn.trimmed, hpos⟩
    rintro (h | h) <;> linarith [houtside.1, houtside.2]

end Magnitude

/-- The text of a double of the value `r`, rounded to a number of places. Magnitudes from `t` on and
below `10 ^ 15` are written with places, the others with an exponent. -/
structure IsFormatted (r t : ℚ) (places : ℕ) (text : String) : Prop where
  zero : text = "0" ↔ r = 0
  ne_negativeZero : text ≠ "-0"
  sign : text.toList.head? = some '-' ↔ r < 0
  plain : t ≤ |r| → |r| < 10 ^ 15 →
    ∃ n, text.toList = Decimal.signed (decide (r < 0)) n.chars ∧ IsPlain r places n
  scientific : r ≠ 0 → |r| < t ∨ 10 ^ 15 ≤ |r| →
    ∃ n, text.toList = Decimal.signed (decide (r < 0)) n.chars ∧ IsScientific r (min places 15) n

section Text

variable {q r t : ℚ} {places : ℕ} {n : Numeral} {text : String}

theorem isFormatted_zero (ht : 0 < t) (places : ℕ) : IsFormatted 0 t places "0" := by
  refine ⟨by simp, by decide, by simp, ?_, fun h => absurd rfl h⟩
  intro hle
  rw [abs_zero] at hle
  exact absurd hle (not_le.2 ht)

theorem IsMagnitude.isFormatted (h : IsMagnitude q t places n) (hq : 0 < q)
    (htext : text.toList = n.chars) : IsFormatted q t places text := by
  have hsigned : text.toList = Decimal.signed (decide (q < 0)) n.chars := by
    rw [decide_eq_false (not_lt.2 hq.le)]
    exact htext
  obtain ⟨c, hhead, hdigit⟩ := h.trimmed.exists_head?
  have hminus : text.toList.head? ≠ some '-' := by
    rw [htext, hhead]
    rintro ⟨⟩
    exact absurd hdigit (by decide)
  have habs := abs_of_pos hq
  refine ⟨⟨?_, fun hzero => absurd hzero hq.ne'⟩, ?_, ⟨fun hhead => absurd hhead hminus, ?_⟩,
    ?_, ?_⟩
  · rintro rfl
    exact absurd htext.symm (Numeral.chars_ne_zero h.trimmed.scanned h.pos.ne')
  · rintro rfl
    exact hminus rfl
  · intro hnegative
    exact absurd hq (not_lt.2 hnegative.le)
  · rw [habs]
    exact fun hlow hhigh => ⟨n, hsigned, h.plain hlow hhigh⟩
  · rw [habs]
    exact fun _ houtside => ⟨n, hsigned, h.scientific houtside⟩

theorem IsMagnitude.isFormatted_neg (h : IsMagnitude q t places n) (hq : 0 < q)
    (htext : text.toList = '-' :: n.chars) : IsFormatted (-q) t places text := by
  have hnegative : -q < 0 := neg_lt_zero.2 hq
  have hsigned : text.toList = Decimal.signed (decide (-q < 0)) n.chars := by
    rw [decide_eq_true hnegative]
    exact htext
  have hhead : text.toList.head? = some '-' := by
    rw [htext]
    rfl
  have habs : |-q| = q := by rw [abs_neg, abs_of_pos hq]
  refine ⟨⟨?_, fun hzero => absurd hzero hnegative.ne⟩, ?_, ⟨fun _ => hnegative, fun _ => hhead⟩,
    ?_, ?_⟩
  · rintro rfl
    exact absurd hhead (by decide)
  · rintro rfl
    have hchars := (List.cons.inj htext).2
    exact Numeral.chars_ne_zero h.trimmed.scanned h.pos.ne' hchars.symm
  · rw [habs]
    exact fun hlow hhigh => ⟨n, hsigned, (h.plain hlow hhigh).neg hq⟩
  · rw [habs]
    exact fun _ houtside => ⟨n, hsigned, (h.scientific houtside).neg hq⟩

end Text

section Doubles

variable {x : Float}

theorem formatFloat_eq {negative : Bool} {m : ℕ} {e : ℤ}
    (h : Binary64.reading x = .finite negative m e) (hm : m ≠ 0) (precision : ℕ) :
    formatFloat x precision =
      if formatMagnitude (m * 2 ^ e) (min precision maxPrecision) = ['0'] then
        formatMagnitude (m * 2 ^ e) (min precision maxPrecision)
      else Decimal.signed negative (formatMagnitude (m * 2 ^ e) (min precision maxPrecision)) := by
  obtain ⟨k, rfl⟩ := Nat.exists_eq_succ_of_ne_zero hm
  rw [formatFloat, h]
  rfl

theorem formatFloat_of_zero {negative : Bool} {e : ℤ}
    (h : Binary64.reading x = .finite negative 0 e) (precision : ℕ) :
    formatFloat x precision = ['0'] := by
  rw [formatFloat, h]
  rfl

/-- Every double is written as its correctly rounded value. -/
theorem format_rounded (hx : x.isFinite = true) (precision : ℕ) :
    ∃ r t, (Binary64.reading x).toRat? = some r ∧
      Binary64.IsNearest (10 ^ (-(min precision 17 : ℕ) : ℤ)) t ∧
      IsFormatted r t (min precision 17) ((decimal x).format precision) := by
  obtain ⟨t, hvalue, hnearest, hunit⟩ :=
    Binary64.exists_isNearest_unit (Nat.lt_succ_of_le (min_le_right precision 17))
  have ht : smallestShown (min precision 17) = t := by
    rw [smallestShown, hvalue, Option.getD_some]
  have hpos : 0 < t := lt_trans (by positivity) hunit
  have htext : ((decimal x).format precision).toList = formatFloat x precision :=
    String.toList_ofList
  obtain ⟨negative, m, e, hreading⟩ := Binary64.exists_reading hx
  rcases Nat.eq_zero_or_pos m with rfl | hm
  · have hzero : (decimal x).format precision = "0" := by
      rw [format, formatFloat_of_zero hreading]
    refine ⟨0, t, ?_, hnearest, hzero ▸ isFormatted_zero hpos _⟩
    rw [hreading]
    simp [Binary.Reading.toRat?]
  · have hq : (0 : ℚ) < m * 2 ^ e :=
      mul_pos (by exact_mod_cast hm) (Binary64.two_zpow_pos e)
    obtain ⟨n, hchars, hn⟩ := exists_isMagnitude hq ht hunit
    have hnonzero : n.chars ≠ ['0'] := Numeral.chars_ne_zero hn.trimmed.scanned hn.pos.ne'
    have hformat : formatFloat x precision = Decimal.signed negative n.chars := by
      rw [formatFloat_eq hreading hm.ne', ← hchars]
      exact if_neg (hchars ▸ hnonzero)
    refine ⟨if negative then -(m * 2 ^ e) else m * 2 ^ e, t, by rw [hreading]; rfl, hnearest, ?_⟩
    rw [hformat] at htext
    cases negative with
    | false => exact hn.isFormatted hq htext
    | true => exact hn.isFormatted_neg hq htext

/-- Halfway between two numerals the even one is written. -/
theorem format_rounded_half :
    (Binary64.ofDecimal 25 (-1)).isFinite = true ∧
      (decimal (Binary64.ofDecimal 25 (-1))).format 0 = "2" ∧
      ∃ r t, (Binary64.reading (Binary64.ofDecimal 25 (-1))).toRat? = some r ∧
        Binary64.IsNearest (10 ^ (-(min 0 17 : ℕ) : ℤ)) t ∧
        IsFormatted r t (min 0 17) ((decimal (Binary64.ofDecimal 25 (-1))).format 0) :=
  ⟨by decide +kernel, by decide +kernel, format_rounded (by decide +kernel) 0⟩

end Doubles

end Abacus.Value
