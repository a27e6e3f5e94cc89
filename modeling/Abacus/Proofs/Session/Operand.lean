import Abacus.Proofs.Expr.Printing
import Abacus.Proofs.Session.Exactness
import Abacus.Proofs.Session.Zeros
import Abacus.Proofs.Text.Trim
import Abacus.Session.Operand

/-!
# Operands as expressions

The text of an operand is also the text of an expression: of a literal, with a sign in front of it
perhaps. A minus sign that belongs to the operand is an operation in the expression. Both give the
same value, up to the sign of a zero, except for the least integer, which no literal can be the
negative of.
-/

namespace Abacus

section Numerals

variable {negative : Bool} {n : Numeral} {v : Value}

/-- The integer that the digits of a numeral stand for. -/
def Numeral.signed (n : Numeral) (negative : Bool) : ℤ :=
  if negative then -(n.significand : ℤ) else n.significand

theorem ofNumeral?_eq (negative : Bool) (n : Numeral) :
    Value.ofNumeral? negative n =
      if n.hasDigits = true then
        match (if n.isWhole = true then Word.ofInt? Width.int64 (n.signed negative) else none) with
        | some i => some (.integer i)
        | none =>
          if n.toFloat.isFinite = true then
            some (.decimal (if negative then -n.toFloat else n.toFloat))
          else none
      else none :=
  rfl

theorem ofNumeral?_of_integer {i : Integer} (hdigits : n.hasDigits = true)
    (hwhole : n.isWhole = true) (hi : i.val = n.signed negative) :
    Value.ofNumeral? negative n = some (.integer i) := by
  rw [ofNumeral?_eq, if_pos hdigits, if_pos hwhole, Word.ofInt?_eq_some.2 hi]

theorem ofNumeral?_of_decimal (hdigits : n.hasDigits = true)
    (hrange : n.isWhole = true → ¬Width.int64.Contains (n.signed negative)) :
    Value.ofNumeral? negative n =
      if n.toFloat.isFinite = true then
        some (.decimal (if negative then -n.toFloat else n.toFloat))
      else none := by
  have hnone : (if n.isWhole = true then Word.ofInt? Width.int64 (n.signed negative) else none) =
      none := by
    split_ifs with hwhole
    · exact Word.ofInt?_eq_none.2 (hrange hwhole)
    · rfl
  rw [ofNumeral?_eq, if_pos hdigits, hnone]

/-- A value `w` that is read without the minus sign gives the value `v` with it, as soon as it is
negated. -/
def NegatesTo (w v : Value) : Prop :=
  ∀ mode : NumberMode, (mode = .exact → v.integer? ≠ some Width.int64.least) →
    ∃ u, Session.negate (Session.coerce mode w) = .ok u ∧ u.Alike (Session.coerce mode v)

theorem negatesTo_decimal (x : Float) : NegatesTo (.decimal x) (.decimal (-x)) := by
  intro mode _
  refine ⟨.decimal (-x), ?_, Or.inl ?_⟩ <;> cases mode <;> rfl

/-- The least integer is only read as the negative of a double. -/
theorem negatesTo_least {i : Integer} (hi : i.val = Width.int64.least) :
    NegatesTo (.decimal (Binary64.ofDecimal (2 ^ 63) 0)) (.integer i) := by
  intro mode hleast
  cases mode with
  | exact => exact absurd (congrArg some hi) (hleast rfl)
  | float =>
      refine ⟨.decimal (-Binary64.ofDecimal (2 ^ 63) 0), rfl, Or.inl ?_⟩
      rw [← Binary64.ofInt_least, ← hi]
      rfl

/-- As doubles `0` and `-0` are different zeros. -/
theorem negatesTo_integer {i j : Integer} (hvalue : i.val = -j.val) (hj : 0 ≤ j.val) :
    NegatesTo (.integer j) (.integer i) := by
  intro mode _
  cases mode with
  | exact => exact ⟨.integer i, negate_eq_integer.2 ⟨j, rfl, hvalue⟩, Or.inl rfl⟩
  | float =>
      refine ⟨.decimal (-Binary64.ofInt j.val), rfl, ?_⟩
      obtain ⟨k, hk⟩ := Int.eq_ofNat_of_zero_le hj
      have hsize := j.le_greatest
      rw [Width.int64_greatest] at hsize
      by_cases hzero : k = 0
      · subst hzero
        have hi : i.val = 0 := by omega
        refine Or.inr ⟨_, _, rfl, rfl, Binary64.isZero_neg ?_, ?_⟩
        · rw [hk]
          exact Binary64.isZero_ofInt_zero
        · rw [hi]
          exact Binary64.isZero_ofInt_zero
      · left
        rw [hk, ← Binary64.ofInt_neg hzero (by omega), ← hk, ← hvalue]
        rfl

theorem toFloat_of_isWhole (h : n.isWhole = true) :
    n.toFloat = Binary64.ofDecimal n.significand 0 := by
  obtain ⟨hfraction, hexponent⟩ := Bool.and_eq_true_iff.1 h
  rw [Option.isNone_iff_eq_none] at hfraction hexponent
  rw [Numeral.toFloat, Numeral.lastExponent, hfraction, hexponent]
  rfl

/-- With a minus sign there is one more integer, the least one. -/
theorem contains_signed (n : Numeral) :
    Width.int64.Contains (n.signed true) ↔
      n.signed true = Width.int64.least ∨ Width.int64.Contains (n.signed false) := by
  have hsigned : n.signed true = -(n.signed false) := rfl
  have hnonneg : 0 ≤ n.signed false := Int.natCast_nonneg n.significand
  simp only [Width.Contains, Width.int64_least, Width.int64_greatest, hsigned]
  omega

theorem ofNumeral?_of_least (hdigits : n.hasDigits = true) (hwhole : n.isWhole = true)
    (hleast : n.signed true = Width.int64.least) :
    Value.ofNumeral? false n = some (.decimal (Binary64.ofDecimal (2 ^ 63) 0)) := by
  have hsignificand : n.significand = 2 ^ 63 := by
    rw [Width.int64_least] at hleast
    change -(n.significand : ℤ) = _ at hleast
    omega
  have hoverflow : n.isWhole = true → ¬Width.int64.Contains (n.signed false) := by
    rintro - ⟨-, hle⟩
    rw [Width.int64_greatest] at hle
    change (n.significand : ℤ) ≤ _ at hle
    omega
  have hfloat : n.toFloat = Binary64.ofDecimal (2 ^ 63) 0 := by
    rw [toFloat_of_isWhole hwhole, hsignificand]
  have hfinite : (Binary64.ofDecimal (2 ^ 63) 0).isFinite = true := by
    rfl
  rw [ofNumeral?_of_decimal hdigits hoverflow, hfloat, if_pos hfinite]
  rfl

/-- A numeral with a minus sign is also read without it, and negated. -/
theorem exists_negatesTo (h : Value.ofNumeral? true n = some v) :
    ∃ w, Value.ofNumeral? false n = some w ∧ NegatesTo w v := by
  have hdigits := Token.hasDigits_of_ofNumeral? h
  by_cases hword : n.isWhole = true ∧ Width.int64.Contains (n.signed true)
  · obtain ⟨hwhole, hrange⟩ := hword
    let i : Integer := ⟨n.signed true, hrange.1, hrange.2⟩
    rw [ofNumeral?_of_integer hdigits hwhole (rfl : i.val = n.signed true)] at h
    cases h
    rcases (contains_signed n).1 hrange with hleast | hinside
    · exact ⟨_, ofNumeral?_of_least hdigits hwhole hleast, negatesTo_least hleast⟩
    · let j : Integer := ⟨n.signed false, hinside.1, hinside.2⟩
      have hnonneg : 0 ≤ j.val := Int.natCast_nonneg n.significand
      exact ⟨.integer j, ofNumeral?_of_integer hdigits hwhole rfl, negatesTo_integer rfl hnonneg⟩
  · have hrange : n.isWhole = true → ¬Width.int64.Contains (n.signed true) :=
      fun hwhole hcontains => hword ⟨hwhole, hcontains⟩
    have hunsigned : n.isWhole = true → ¬Width.int64.Contains (n.signed false) :=
      fun hwhole hcontains => hrange hwhole ((contains_signed n).2 (Or.inr hcontains))
    rw [ofNumeral?_of_decimal hdigits hrange] at h
    by_cases hfinite : n.toFloat.isFinite = true
    swap
    · rw [if_neg hfinite] at h
      cases h
    rw [if_pos hfinite, if_pos rfl] at h
    cases h
    refine ⟨.decimal n.toFloat, ?_, negatesTo_decimal n.toFloat⟩
    rw [ofNumeral?_of_decimal hdigits hunsigned, if_pos hfinite]
    rfl

end Numerals

section Texts

variable {cs : List Char} {v : Value} {e : Expr}

/-- `Spells cs e v`: the text `cs` stands for the signed operand `e`, up to a text that ends it, and
every session gives `e` the value `v`, up to the sign of a zero. -/
structure Spells (cs : List Char) (e : Expr) (v : Value) : Prop where
  derives : ∃ kinds depth, Expr.Derives .signed kinds e depth ∧ depth ≤ 1 ∧
    ∀ rest, Numeral.Ends rest → Token.Lexes (cs ++ rest) kinds rest
  height : e.height ≤ 2
  value : ∀ s : Session, (s.mode = .exact → v.integer? ≠ some Width.int64.least) →
    ∃ u, s.evalExpr e = .ok u ∧ u.Alike (Session.coerce s.mode v)

variable {numeral : Numeral}

theorem spells_literal (hscan : Numeral.scan cs = (numeral, []))
    (hvalue : Value.ofNumeral? false numeral = some v) : Spells cs (.literal v) v where
  derives := ⟨[.number v], 0, (Expr.Derives.number v).signed_of_primary, by decide,
    fun _ hrest => Token.lexes_numeral hscan hvalue hrest⟩
  height := Nat.le_succ 1
  value := fun s _ => ⟨Session.coerce s.mode v, rfl, Or.inl rfl⟩

theorem spells_plus (hscan : Numeral.scan cs = (numeral, []))
    (hvalue : Value.ofNumeral? false numeral = some v) : Spells ('+' :: cs) (.literal v) v where
  derives := ⟨[.operator .add, .number v], 1, .plus (Expr.Derives.number v).signed_of_primary,
    Nat.le_refl 1, fun rest hrest => (Token.lexes_operator .add (cs ++ rest)).trans
      (Token.lexes_numeral hscan hvalue hrest)⟩
  height := Nat.le_succ 1
  value := fun s _ => ⟨Session.coerce s.mode v, rfl, Or.inl rfl⟩

theorem spells_minus {w : Value} (hscan : Numeral.scan cs = (numeral, []))
    (hvalue : Value.ofNumeral? false numeral = some w) (hnegates : NegatesTo w v) :
    Spells ('-' :: cs) (.negate (.literal w)) v where
  derives := ⟨[.operator .subtract, .number w], 1,
    .minus (Expr.Derives.number w).signed_of_primary, Nat.le_refl 1,
    fun rest hrest => (Token.lexes_operator .subtract (cs ++ rest)).trans
      (Token.lexes_numeral hscan hvalue hrest)⟩
  height := Nat.le_refl 2
  value := by
    intro s hleast
    obtain ⟨u, hu, halike⟩ := hnegates s.mode hleast
    exact ⟨u, Session.evalExpr_negate_eq_ok.2 ⟨_, rfl, hu⟩, halike⟩

/-- The value of an operand without its sign, which has to be read to the end. -/
def unsigned? (negative : Bool) (cs : List Char) : Option Value :=
  match Numeral.scan cs with
  | (numeral, []) => Value.ofNumeral? negative numeral
  | _ => none

theorem exists_scan {negative : Bool} (h : unsigned? negative cs = some v) :
    ∃ numeral, Numeral.scan cs = (numeral, []) ∧ Value.ofNumeral? negative numeral = some v := by
  unfold unsigned? at h
  cases hscan : Numeral.scan cs with
  | mk numeral rest =>
      rw [hscan] at h
      cases rest with
      | nil => exact ⟨numeral, rfl, h⟩
      | cons c more => cases h

/-- Whether there is a minus sign, and what follows the sign. -/
def splitSign (cs : List Char) : Bool × List Char :=
  match cs with
  | '-' :: rest => (true, rest)
  | '+' :: rest => (false, rest)
  | _ => (false, cs)

theorem ofChars?_eq (cs : List Char) :
    Value.ofChars? cs = unsigned? (splitSign cs).1 (splitSign cs).2 :=
  rfl

theorem splitSign_cases (cs : List Char) :
    (∃ rest, cs = '-' :: rest ∧ splitSign cs = (true, rest)) ∨
      (∃ rest, cs = '+' :: rest ∧ splitSign cs = (false, rest)) ∨ splitSign cs = (false, cs) := by
  rw [splitSign.eq_def]
  split
  · exact Or.inl ⟨_, rfl, rfl⟩
  · exact Or.inr (Or.inl ⟨_, rfl, rfl⟩)
  · exact Or.inr (Or.inr rfl)

theorem exists_spells (h : Value.ofChars? cs = some v) : ∃ e, Spells cs e v := by
  rw [ofChars?_eq] at h
  obtain ⟨rest, rfl, hsign⟩ | ⟨rest, rfl, hsign⟩ | hsign := splitSign_cases cs <;> rw [hsign] at h
  · obtain ⟨numeral, hscan, hvalue⟩ := exists_scan h
    obtain ⟨w, hunsigned, hnegates⟩ := exists_negatesTo hvalue
    exact ⟨_, spells_minus hscan hunsigned hnegates⟩
  · obtain ⟨numeral, hscan, hvalue⟩ := exists_scan h
    exact ⟨_, spells_plus hscan hvalue⟩
  · obtain ⟨numeral, hscan, hvalue⟩ := exists_scan h
    exact ⟨_, spells_literal hscan hvalue⟩

theorem Spells.pad (h : Spells cs e v) {front back : List Char} (hfront : front.all Text.isBlank)
    (hback : back.all Text.isBlank) : Spells (front ++ cs ++ back) e v where
  derives := by
    obtain ⟨kinds, depth, hderives, hdepth, hlexes⟩ := h.derives
    refine ⟨kinds, depth, hderives, hdepth, ?_⟩
    intro rest hrest
    have hends : Numeral.Ends (back ++ rest) := by
      cases back with
      | nil => exact hrest
      | cons c more =>
          have hc : Text.isBlank c = true := List.all_eq_true.1 hback c (List.mem_cons_self ..)
          exact Token.ends_of_isBlank hc (more ++ rest)
    have hwhole := (Token.lexes_blanks hfront (cs ++ (back ++ rest))).trans
      ((hlexes (back ++ rest) hends).trans (Token.lexes_blanks hback rest))
    simpa using hwhole
  height := h.height
  value := h.value

theorem readOperand_eq_ok {text : String} :
    Value.readOperand text = .ok v ↔ Value.ofChars? (Text.trimChars text.toList) = some v := by
  unfold Value.readOperand
  cases Value.ofChars? (Text.trimChars text.toList) with
  | none => exact ⟨nofun, nofun⟩
  | some w => rw [Except.ok.injEq, Option.some.injEq]

theorem exists_spells_text {text : String} (h : Value.readOperand text = .ok v) :
    ∃ e, Spells text.toList e v := by
  obtain ⟨e, hspells⟩ := exists_spells (readOperand_eq_ok.1 h)
  obtain ⟨front, back, htext, hfront, hback⟩ := Text.exists_trimChars text.toList
  refine ⟨e, ?_⟩
  rw [htext]
  exact hspells.pad hfront hback

theorem isFinite_of_readOperand {text : String} (h : Value.readOperand text = .ok v) :
    v.IsFinite := by
  have hread := readOperand_eq_ok.1 h
  rw [ofChars?_eq] at hread
  obtain ⟨numeral, -, hvalue⟩ := exists_scan hread
  exact Value.isFinite_of_ofNumeral? hvalue

end Texts

end Abacus
