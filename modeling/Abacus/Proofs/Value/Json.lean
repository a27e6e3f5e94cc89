import Abacus.Proofs.Json.Layout
import Abacus.Proofs.Number.Sign
import Abacus.Proofs.Token.Lexeme
import Abacus.Proofs.Value.Finite
import Abacus.Proofs.Value.Numeral

/-!
# Reading values back from JSON

Every finite value is read as the number that it was written as. An integer is that number, and it
is an integer again. A double is never taken for an integer, and it keeps its sign; it is the same
double where the reader rounds the digits of its magnitude to that magnitude.
-/

namespace Abacus

open Json

section Digits

theorem isDigit_of_mem_digits {n : Nat} {c : Char} (h : c ∈ Token.digits n) : isDigit c = true :=
  isDigit_of_mem_toDigits h

theorem isNumeral_digits (n : Nat) : isNumeral ⟨Token.digits n, none, none⟩ = true := by
  have hne : (Token.digits n).isEmpty = false := by
    rw [List.isEmpty_eq_false_iff]
    exact Nat.toDigits_ne_nil
  by_cases hone : (Token.digits n).length = 1
  · simp [isNumeral, hne, hone]
  · have hn : n ≠ 0 := by
      rintro rfl
      exact hone rfl
    have hhead : (Token.digits n).head? ≠ some '0' := head?_toDigits_ne_zero hn
    simp [isNumeral, hne, hhead]

end Digits

namespace Json

def numeral? : Json → Option Numeral
  | .number _ n => some n
  | _ => none

end Json

namespace Value

/-- The numeral of an integer without its sign. -/
def wholeNumeral (k : Nat) : Numeral := ⟨Token.digits k, none, none⟩

theorem toJson_integer (n : Integer) :
    (integer n).toJson = .number (decide (n.val < 0)) (wholeNumeral n.val.natAbs) :=
  rfl

theorem significand_wholeNumeral (k : Nat) : (wholeNumeral k).significand = k := by
  simp [wholeNumeral, Numeral.significand, Token.digits]

theorem isScanned_wholeNumeral (k : Nat) : (wholeNumeral k).IsScanned where
  whole := List.all_eq_true.2 fun _ => isDigit_of_mem_digits
  fraction := nofun
  exponent := nofun

theorem ofJson?_toJson_integer (n : Integer) : ofJson? (integer n).toJson = some (.integer n) := by
  have hsign : (decide (n.val < 0) && n.val.natAbs == 0) = false := by
    simp only [Bool.and_eq_false_iff, decide_eq_false_iff_not, beq_eq_false_iff_ne]
    omega
  have hvalue : (if n.val < 0 then -(n.val.natAbs : Int) else n.val.natAbs) = n.val := by
    split <;> omega
  have hwhole : (wholeNumeral n.val.natAbs).isWhole = true := rfl
  rw [toJson_integer, ofJson?, ofNumber?, significand_wholeNumeral]
  simp only [hsign, hwhole, Bool.not_false, Bool.and_self, if_true, decide_eq_true_eq, hvalue,
    Word.ofInt?_val]

/-- The number that a double is written as, without its sign, is read as the magnitude of that
double. The reader does not round correctly, and so it reads some of them as a neighbour. -/
def ReadsBack (x : Float) : Prop :=
  ∀ n ∈ (decimal x).toJson.numeral?, readMagnitude n = some x.abs

instance (x : Float) : Decidable (ReadsBack x) :=
  inferInstanceAs (Decidable (∀ n ∈ (decimal x).toJson.numeral?, readMagnitude n = some x.abs))

/-- The double nearest to `3e23` is read as its neighbour below. -/
theorem exists_not_readsBack : ∃ x : Float, x.isFinite = true ∧ ¬ReadsBack x :=
  ⟨Binary64.ofDecimal 3 23, by decide +kernel, by decide +kernel⟩

theorem toJson_decimal {x : Float} {negative : Bool} {m : ℕ} {e : ℤ}
    (h : Binary64.reading x = .finite negative m e) :
    (decimal x).toJson = .number negative (numeralOf (decimalOf m e)) := by
  rw [toJson, floatToJson, h]

/-- A double is read as a double, with its sign. -/
theorem ofJson?_toJson_decimal {x : Float} (hfinite : x.isFinite = true) (hback : ReadsBack x) :
    ofJson? (decimal x).toJson = some (.decimal x) := by
  obtain ⟨negative, m, e, hreading⟩ := Binary64.exists_reading hfinite
  have hjson := toJson_decimal hreading
  have hmagnitude : readMagnitude (numeralOf (decimalOf m e)) = some x.abs := by
    apply hback
    rw [hjson]
    rfl
  rw [hjson, ofJson?, ofNumber?]
  simp only [isWhole_numeralOf, Bool.false_and, Bool.false_eq_true, if_false, hmagnitude,
    Option.map_some, Binary64.signed_abs_float hreading]

theorem ofJson?_toJson {v : Value} (hfinite : v.IsFinite)
    (hback : ∀ x, v = .decimal x → ReadsBack x) : ofJson? v.toJson = some v := by
  cases v with
  | integer n => exact ofJson?_toJson_integer n
  | decimal x => exact ofJson?_toJson_decimal hfinite (hback x rfl)

/-- A finite value is read as the number that it was written as, wherever its text stands. -/
theorem reads_toJson {v : Value} (hfinite : v.IsFinite) (depth : Nat) :
    Reads (indentedChars depth v.toJson) v.toJson := by
  cases v with
  | integer n =>
      rw [toJson_integer]
      exact reads_number _ (isScanned_wholeNumeral _) (isNumeral_digits _)
  | decimal x =>
      obtain ⟨negative, m, e, hreading⟩ := Binary64.exists_reading hfinite
      rw [toJson_decimal hreading]
      exact reads_number _ (isScanned_numeralOf _) (isNumeral_numeralOf exponent_decimalOf)

end Value

end Abacus
