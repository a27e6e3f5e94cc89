import Abacus.Decimal.Numeral
import Abacus.Text.Blank
import Abacus.Text.Letter

/-!
# Classes of characters

No blank is a letter, and no letter stands before the capitals among the code points. The letters
and digits of ASCII are letters and numerals.
-/

namespace Abacus.Text

/-- All code points in some ranges. -/
def codePoints (ranges : List (Nat × Nat)) : List Nat :=
  ranges.flatMap fun range => List.range' range.1 (range.2 + 1 - range.1)

theorem mem_codePoints {ranges : List (Nat × Nat)} {n : Nat} (h : covers ranges n = true) :
    n ∈ codePoints ranges := by
  induction ranges with
  | nil => cases h
  | cons range rest ih =>
      obtain ⟨first, last⟩ := range
      rw [codePoints, List.flatMap_cons, List.mem_append]
      unfold covers at h
      split at h
      · cases h
      · next hfirst =>
          rcases Bool.or_eq_true_iff.1 h with h | h
          · have hlast : n ≤ last := by simpa using h
            left
            rw [List.mem_range'_1]
            omega
          · exact Or.inr (ih h)

theorem isLetter_of_isBlank {c : Char} (h : isBlank c = true) : isLetter c = false := by
  have hblanks : ∀ n ∈ codePoints whiteSpace.ranges, covers alphabetic.ranges n = false := by
    decide +kernel
  exact hblanks c.toNat (mem_codePoints h)

theorem le_toNat_of_isLetter {c : Char} (h : isLetter c = true) : 0x41 ≤ c.toNat := by
  have hcover : covers alphabetic.ranges c.toNat = true := h
  rw [alphabetic, covers] at hcover
  split at hcover
  · cases hcover
  · omega

theorem isLetter_of_ascii {c : Char} (h : 'A' ≤ c ∧ c ≤ 'Z' ∨ 'a' ≤ c ∧ c ≤ 'z') :
    isLetter c = true := by
  have hcode : ∀ {a b : Char}, a ≤ b → a.toNat ≤ b.toNat := fun hle => UInt32.le_iff_toNat_le.1 hle
  change covers alphabetic.ranges c.toNat = true
  rw [alphabetic, covers, covers]
  rcases h with ⟨hlow, hhigh⟩ | ⟨hlow, hhigh⟩
  · have hlow : 0x41 ≤ c.toNat := hcode hlow
    have hhigh : c.toNat ≤ 0x5A := hcode hhigh
    rw [if_neg (by omega), decide_eq_true hhigh, Bool.true_or]
  · have hlow : 0x61 ≤ c.toNat := hcode hlow
    have hhigh : c.toNat ≤ 0x7A := hcode hhigh
    rw [if_neg (by omega), if_neg (by omega), decide_eq_true hhigh, Bool.true_or, Bool.or_true]

theorem isNumeral_of_isDigit {c : Char} (h : isDigit c = true) :
    numeric.contains c = true := by
  obtain ⟨hlow, hhigh⟩ := Bool.and_eq_true_iff.1 h
  have hlow : 0x30 ≤ c.toNat := UInt32.le_iff_toNat_le.1 (decide_eq_true_iff.1 hlow)
  have hhigh : c.toNat ≤ 0x39 := UInt32.le_iff_toNat_le.1 (decide_eq_true_iff.1 hhigh)
  change covers numeric.ranges c.toNat = true
  rw [numeric, covers, if_neg (by omega), decide_eq_true hhigh, Bool.true_or]

end Abacus.Text
