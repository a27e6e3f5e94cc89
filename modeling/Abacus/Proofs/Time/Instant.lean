import Abacus.Proofs.Time.Calendar
import Abacus.Proofs.Text.Trim
import Abacus.Proofs.Token.Lexeme
import Abacus.Time.Instant

/-!
# Instants and their texts

The text of an instant is read as that instant, and what is read is an instant that has a text.
-/

namespace Abacus.Instant

/-- An instant that exists: its second and its fraction are in range, and so is its date. -/
structure IsValid (t : Instant) : Prop where
  second_le : t.second ≤ 60
  nanosecond_lt : t.nanosecond < 10 ^ 9
  inRange : Date.isDayInRange (t.minutes / 1440) = true

instance (t : Instant) : Decidable t.IsValid :=
  decidable_of_iff (t.second ≤ 60 ∧ t.nanosecond < 10 ^ 9 ∧
    Date.isDayInRange (t.minutes / 1440) = true)
    ⟨fun ⟨hsecond, hnanosecond, hrange⟩ => ⟨hsecond, hnanosecond, hrange⟩,
      fun ⟨hsecond, hnanosecond, hrange⟩ => ⟨hsecond, hnanosecond, hrange⟩⟩

section Padded

variable {width n : Nat} {rest : List Char}

theorem all_isDigit_padded (width n : Nat) : (padded width n).all isDigit = true := by
  have hdigits := Token.all_isDigit_digits n
  rw [padded, List.all_append, Bool.and_eq_true]
  constructor
  · rw [List.all_eq_true]
    intro c hc
    rw [List.eq_of_mem_replicate hc]
    decide
  · exact hdigits

theorem length_padded (hwidth : 0 < width) (hn : n < 10 ^ width) :
    (padded width n).length = width := by
  have hle := (Nat.length_toDigits_le_iff (by decide) hwidth).2 hn
  simp only [padded, List.length_append, List.length_replicate]
  omega

theorem padded_ne_nil (width n : Nat) : padded width n ≠ [] := by
  simp [padded, Nat.toDigits_ne_nil]

@[simp] theorem ofDigitChars_padded (width n : Nat) :
    Nat.ofDigitChars 10 (padded width n) 0 = n := by
  simp [padded, Nat.ofDigitChars_append]

theorem exists_padded_eq_cons (width n : Nat) :
    ∃ c more, padded width n = c :: more ∧ isDigit c = true := by
  have hdigits := all_isDigit_padded width n
  cases hchars : padded width n with
  | nil => exact absurd hchars (padded_ne_nil width n)
  | cons c more =>
      rw [hchars] at hdigits
      exact ⟨c, more, rfl, List.all_eq_true.1 hdigits c (List.mem_cons_self ..)⟩

theorem trimFront_cons {c : Char} (hblank : Text.isBlank c = false) (rest : List Char) :
    Text.trimFront (c :: rest) = c :: rest := by
  simp [Text.trimFront, hblank]

/-- Digits do not begin with a blank. -/
theorem trimFront_padded (width n : Nat) (rest : List Char) :
    Text.trimFront (padded width n ++ rest) = padded width n ++ rest := by
  obtain ⟨c, more, hchars, hdigit⟩ := exists_padded_eq_cons width n
  rw [hchars]
  exact trimFront_cons (Token.isBlank_of_isDigit hdigit) _

theorem readNumber_padded (hwidth : 0 < width) (hn : n < 10 ^ width) (rest : List Char) :
    readNumber width (padded width n ++ rest) = some (n, rest) := by
  have hlength := length_padded hwidth hn
  have htake : (padded width n ++ rest).take width = padded width n :=
    List.take_left' hlength
  have hdigits : (padded width n).takeWhile isDigit = padded width n := by
    rw [List.takeWhile_eq_self_iff]
    exact List.all_eq_true.1 (all_isDigit_padded width n)
  rw [readNumber]
  simp only [trimFront_padded, htake, hdigits, List.isEmpty_eq_false_iff.2 (padded_ne_nil width n),
    ofDigitChars_padded, List.drop_left, Bool.false_eq_true, if_false]

theorem skipMark_cons {mark : Char} (hblank : Text.isBlank mark = false) (rest : List Char) :
    skipMark mark (mark :: rest) = some rest := by
  simp [skipMark, trimFront_cons hblank]

theorem readFraction_padded (hwidth : 0 < width) (hwidth₉ : width ≤ 9) (hn : n < 10 ^ width)
    (hrest : ∀ c ∈ rest.head?, isDigit c = false) :
    readFraction ('.' :: padded width n ++ rest) = some (10 ^ (9 - width) * n, rest) := by
  have hlength := length_padded hwidth hn
  have hdigits := all_isDigit_padded width n
  have htake : (padded width n).take 9 = padded width n := by
    apply List.take_of_length_le
    omega
  rw [List.cons_append, readFraction]
  simp only [takeWhile_append_stop hdigits hrest, dropWhile_append_stop hdigits hrest,
    htake, List.isEmpty_eq_false_iff.2 (padded_ne_nil width n), hlength, Bool.false_eq_true,
    if_false, Nat.ofDigitChars_append, ofDigitChars_padded, Nat.ofDigitChars_replicate_zero]

end Padded

section Years

variable {rest : List Char}

theorem unsigned_padded (n : Nat) (hrest : ∀ c ∈ rest.head?, isDigit c = false) :
    readYear.unsigned (padded 4 n ++ rest) = some (n, rest) := by
  have hdigits := all_isDigit_padded 4 n
  rw [readYear.unsigned]
  simp only [takeWhile_append_stop hdigits hrest, dropWhile_append_stop hdigits hrest,
    List.isEmpty_eq_false_iff.2 (padded_ne_nil 4 n), ofDigitChars_padded, Bool.false_eq_true,
    if_false]

/-- Digits without a sign are a year of four digits. -/
theorem readYear_padded {n : Nat} (hn : n < 10 ^ 4) (rest : List Char) :
    readYear (padded 4 n ++ rest) = some ((n : Int), rest) := by
  have hread := readNumber_padded (by decide) hn rest
  obtain ⟨c, more, hchars, hdigit⟩ := exists_padded_eq_cons 4 n
  rw [readYear, trimFront_padded]
  rw [hchars] at hread ⊢
  split
  · next heq =>
      cases heq
      exact absurd hdigit (by decide)
  · next heq =>
      cases heq
      exact absurd hdigit (by decide)
  · rw [hread]
    rfl

theorem readYear_negative (n : Nat) (hrest : ∀ c ∈ rest.head?, isDigit c = false) :
    readYear ('-' :: (padded 4 n ++ rest)) = some (-(n : Int), rest) := by
  rw [readYear, trimFront_cons (by decide)]
  simp [unsigned_padded n hrest]

theorem readYear_positive (n : Nat) (hrest : ∀ c ∈ rest.head?, isDigit c = false) :
    readYear ('+' :: (padded 4 n ++ rest)) = some ((n : Int), rest) := by
  rw [readYear, trimFront_cons (by decide)]
  simp [unsigned_padded n hrest]

theorem readYear_yearChars (year : Int) (hrest : ∀ c ∈ rest.head?, isDigit c = false) :
    readYear (yearChars year ++ rest) = some (year, rest) := by
  rw [yearChars]
  split
  · next hplain =>
      have hyear : ((year.toNat : Nat) : Int) = year := by omega
      rw [readYear_padded (by omega), hyear]
  · next hsigned =>
      split
      · next hnegative =>
          have hyear : -(year.natAbs : Int) = year := by omega
          rw [List.cons_append, readYear_negative _ hrest, hyear]
      · next hpositive =>
          have hyear : (year.natAbs : Int) = year := by omega
          rw [List.cons_append, readYear_positive _ hrest, hyear]

end Years

section Texts

variable {t : Instant}

theorem daysInMonth_le (year : Int) (month : Nat) : Date.daysInMonth year month ≤ 31 := by
  unfold Date.daysInMonth
  split
  · split <;> decide
  all_goals decide

theorem readDate_dateChars (h : t.IsValid) (rest : List Char) :
    readDate (t.dateChars ++ rest) = some (t.date, rest) := by
  have hvalid : t.date.isValid = true := Date.isValid_ofDays _
  have hyears : Date.minYear ≤ t.date.year ∧ t.date.year ≤ Date.maxYear :=
    Date.year_ofDays _ h.inRange
  have hparts : ((1 ≤ t.date.month ∧ t.date.month ≤ 12) ∧ 1 ≤ t.date.day) ∧
      t.date.day ≤ Date.daysInMonth t.date.year t.date.month := by
    simpa [Date.isValid] using hvalid
  have hmonth : ∀ rest, readNumber 2 (padded 2 t.date.month ++ rest) =
      some (t.date.month, rest) :=
    readNumber_padded (by decide) (by omega)
  have hday : ∀ rest, readNumber 2 (padded 2 t.date.day ++ rest) = some (t.date.day, rest) := by
    have hdays := daysInMonth_le t.date.year t.date.month
    exact readNumber_padded (by decide) (by omega)
  have hmark : ∀ rest, skipMark '-' ('-' :: rest) = some rest := skipMark_cons (by decide)
  have hstop : ∀ rest : List Char, ∀ c ∈ ('-' :: rest).head?, isDigit c = false := by
    intro rest c hc
    cases hc
    decide
  have hyear : ∀ rest, readYear (yearChars t.date.year ++ '-' :: rest) =
      some (t.date.year, '-' :: rest) := by
    intro rest
    exact readYear_yearChars _ (hstop rest)
  have hchars : t.dateChars ++ rest = yearChars t.date.year ++
      ('-' :: (padded 2 t.date.month ++ ('-' :: (padded 2 t.date.day ++ rest)))) := by
    simp [dateChars]
  rw [hchars, readDate, hyear]
  simp [hmark, hmonth, hday, hvalid, hyears.1, hyears.2]

theorem readFraction_fractionChars (h : t.nanosecond < 10 ^ 9) :
    readFraction (t.fractionChars ++ ['Z']) = some (t.nanosecond, ['Z']) := by
  have hrest : ∀ c ∈ ['Z'].head?, isDigit c = false := by
    intro c hc
    cases hc
    rfl
  rw [fractionChars]
  split
  · next hzero =>
      rw [hzero]
      rfl
  split
  · next hmilli =>
      rw [readFraction_padded (by decide) (by decide) (by omega) hrest]
      have hvalue : 10 ^ (9 - 3) * (t.nanosecond / 1000000) = t.nanosecond := by omega
      rw [hvalue]
  split
  · next hmicro =>
      rw [readFraction_padded (by decide) (by decide) (by omega) hrest]
      have hvalue : 10 ^ (9 - 6) * (t.nanosecond / 1000) = t.nanosecond := by omega
      rw [hvalue]
  · rw [readFraction_padded (by decide) (by decide) h hrest]
    simp

theorem readClock_clockChars (h : t.IsValid) :
    readClock (t.clockChars ++ (t.fractionChars ++ ['Z'])) =
      some ((t.hour, t.minute, t.second, t.nanosecond), ['Z']) := by
  have hhour : t.hour ≤ 23 := by
    rw [hour]
    omega
  have hminute : t.minute ≤ 59 := by
    rw [minute]
    omega
  have hsecond := h.second_le
  have hhours : ∀ rest, readNumber 2 (padded 2 t.hour ++ rest) = some (t.hour, rest) :=
    readNumber_padded (by decide) (by omega)
  have hminutes : ∀ rest, readNumber 2 (padded 2 t.minute ++ rest) = some (t.minute, rest) :=
    readNumber_padded (by decide) (by omega)
  have hseconds : ∀ rest, readNumber 2 (padded 2 t.second ++ rest) = some (t.second, rest) :=
    readNumber_padded (by decide) (by omega)
  have hmark : ∀ rest, skipMark ':' (':' :: rest) = some rest := skipMark_cons (by decide)
  have hchars : t.clockChars ++ (t.fractionChars ++ ['Z']) = padded 2 t.hour ++
      (':' :: (padded 2 t.minute ++ (':' :: (padded 2 t.second ++
        (t.fractionChars ++ ['Z']))))) := by
    simp [clockChars]
  rw [hchars, readClock, hhours]
  simp [hmark, hminutes, hseconds, readFraction_fractionChars h.nanosecond_lt, hhour, hminute,
    hsecond]

theorem minutes_eq (t : Instant) :
    t.date.toDays * 1440 + t.hour * 60 + t.minute = t.minutes := by
  rw [date, Date.toDays_ofDays, hour, minute]
  omega

theorem read?_text (h : t.IsValid) : read? t.text = some t := by
  have hchars : t.text.toList =
      t.dateChars ++ ('T' :: (t.clockChars ++ (t.fractionChars ++ ['Z']))) := by
    simp [text]
  have hoffset : readOffset (Text.trimFront ['Z']) = some (0, []) := by decide
  rw [read?, hchars, readDate_dateChars h]
  simp only [Option.bind_eq_bind, Option.bind_some, true_or, if_true, readClock_clockChars h,
    hoffset, minutes_eq, Int.sub_zero, List.all_nil, h.inRange, Bool.and_self]

end Texts

section Reading

end Reading

end Abacus.Instant
