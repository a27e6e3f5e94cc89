import Abacus.Proofs.Number.Integers
import Abacus.Proofs.Session.Calculation

/-!
# Integers that are read back

The text of an integer is an expression as well: the digits, behind a minus sign if the integer is
negative. In exact mode its value is the integer again. Only the digits of the least integer are no
integer without their sign; they are read as a double, whose negative is equal to the least integer.
-/

namespace Abacus

variable {n : Integer}

theorem Token.text_of_neg (h : n.val < 0) :
    (Value.integer n).text.toList = '-' :: digits n.val.natAbs := by
  have htext : (Value.integer n).text = toString n.val := rfl
  rw [htext]
  generalize n.val = i at h
  cases i with
  | ofNat k => exact absurd h (by simp)
  | negSucc k =>
      rw [Int.natAbs_negSucc, digits, ← Nat.toList_repr]
      simp [toString, Int.repr]

/-- Every integer but the least one is spelled by its text. -/
theorem exists_spells_integer (hn : n.val ≠ Width.int64.least) :
    ∃ e, Spells (Value.integer n).text.toList e (.integer n) := by
  by_cases hnonneg : 0 ≤ n.val
  · rw [Token.text_integer hnonneg]
    exact ⟨_, spells_literal (Token.scan_digits _) (Token.ofNumeral?_digits hnonneg)⟩
  · have hleast := n.least_le
    have hrange := Width.int64_least
    have hgreatest := Width.int64_greatest
    let opposite : Integer := ⟨-n.val, by omega, by omega⟩
    have hopposite : 0 ≤ opposite.val := by
      change 0 ≤ -n.val
      omega
    have hvalue := Token.ofNumeral?_digits hopposite
    have habs : opposite.val.toNat = n.val.natAbs := by
      change (-n.val).toNat = _
      omega
    rw [habs] at hvalue
    rw [Token.text_of_neg (by omega)]
    exact ⟨_, spells_minus (Token.scan_digits _) hvalue (negatesTo_integer (by simp [opposite])
      hopposite)⟩

/-- The text of the least integer spells the negative of a double. -/
theorem spells_least (hn : n.val = Width.int64.least) :
    Spells (Value.integer n).text.toList
      (.negate (.literal (.decimal (Binary64.ofDecimal (2 ^ 63) 0)))) (.integer n) := by
  have hrange := Width.int64_least
  let numeral : Numeral := ⟨Token.digits n.val.natAbs, none, none⟩
  have hsigned : numeral.signed true = Width.int64.least := by
    have hsignificand : numeral.significand = n.val.natAbs := Token.significand_digits _
    change -(numeral.significand : ℤ) = _
    omega
  have hvalue := ofNumeral?_of_least (Token.hasDigits_digits _) rfl hsigned
  rw [Token.text_of_neg (by omega)]
  exact spells_minus (Token.scan_digits _) hvalue (negatesTo_least hn)

theorem toRat?_ofInt_least :
    (Value.decimal (Binary64.ofInt Width.int64.least)).toRat? = some (Width.int64.least : ℚ) := by
  have hm : 0 < 2 ^ 52 := by decide
  have hunpack : Binary64.unpack (Binary64.ofInt Width.int64.least) =
      .finite .negative (2 ^ 52) 11 hm := by
    rfl
  rw [Value.toRat?, Binary64.toRat?_of_unpack hunpack, Width.int64_least]
  norm_num [Float.Model.UnpackedFloat.Sign.apply]

namespace Session

theorem eval_text_integer (hn : n.val ≠ Width.int64.least) :
    (fresh .exact).eval (Value.integer n).text =
      .ok (.integer n, { fresh .exact with answer := .integer n }) := by
  obtain ⟨e, hspells⟩ := exists_spells_integer hn
  obtain ⟨u, hvalue, halike⟩ := hspells.value (fresh .exact) fun _ hleast =>
    hn (Option.some.inj hleast)
  obtain rfl | ⟨x, y, -, hy, -, -⟩ := halike
  · exact eval_of_parse hspells.parse_eq hvalue
  · cases hy

theorem eval_text_least (hn : n.val = Width.int64.least) :
    (fresh .exact).eval (Value.integer n).text =
      .ok (.decimal (Binary64.ofInt Width.int64.least),
        { fresh .exact with answer := .decimal (Binary64.ofInt Width.int64.least) }) := by
  apply eval_of_parse (spells_least hn).parse_eq
  rw [Binary64.ofInt_least]
  rfl

/-- In exact mode the text of an integer, whatever its precision, has that integer as its value. The
least integer comes back as the double that is equal to it. -/
theorem eval_format_integer (n : Integer) (precision : ℕ) :
    ∃ v, (fresh .exact).eval ((Value.integer n).format precision) =
        .ok (v, { fresh .exact with answer := v }) ∧
      v.toRat? = some (n.val : ℚ) ∧
      (n.val ≠ -2 ^ 63 → v = .integer n) ∧
      (n.val = -2 ^ 63 → v = .decimal (Binary64.ofInt (-2 ^ 63))) := by
  by_cases hn : n.val = Width.int64.least
  · refine ⟨_, eval_text_least hn, ?_, fun hother => absurd hn hother, fun _ => rfl⟩
    rw [hn]
    exact toRat?_ofInt_least
  · exact ⟨_, eval_text_integer hn, rfl, fun _ => rfl, fun hleast => absurd hleast hn⟩

/-- The text of the least integer does not give that integer. -/
theorem eval_format_integer_least :
    let least : Integer := ⟨-2 ^ 63, by decide, by decide⟩
    ((fresh .exact).eval ((Value.integer least).format 10)).map (·.1) ≠ .ok (.integer least) := by
  intro least heval
  have hdouble : (fresh .exact).eval ((Value.integer least).format 10) = _ :=
    eval_text_least rfl
  rw [hdouble] at heval
  cases heval

end Session

end Abacus
