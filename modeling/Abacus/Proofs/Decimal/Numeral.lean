import Mathlib.Data.List.TakeWhile
import Mathlib.Tactic.SplitIfs
import Abacus.Decimal.Numeral

/-!
# Scanning numerals

A scan splits a text into a numeral and the rest, and what stands behind a numeral does not matter
as long as it cannot go on with it.
-/

namespace Abacus

/-- A text that no numeral goes on with. -/
def Numeral.Ends (rest : List Char) : Prop :=
  ∀ c ∈ rest.head?, isDigit c = false ∧ c ∉ ['.', 'e', 'E', '+', '-']

variable {cs rest : List Char}

theorem takeWhile_append_of_stop {p : Char → Bool} (h : ∀ c ∈ rest.head?, p c = false) :
    (cs ++ rest).takeWhile p = cs.takeWhile p := by
  induction cs with
  | nil =>
      cases rest with
      | nil => rfl
      | cons c more => simp [h c rfl]
  | cons c cs ih => simp only [List.cons_append, List.takeWhile_cons, ih]

theorem dropWhile_append_of_stop {p : Char → Bool} (h : ∀ c ∈ rest.head?, p c = false) :
    (cs ++ rest).dropWhile p = cs.dropWhile p ++ rest := by
  induction cs with
  | nil =>
      cases rest with
      | nil => rfl
      | cons c more => simp [h c rfl]
  | cons c cs ih =>
      simp only [List.cons_append, List.dropWhile_cons, ih]
      split <;> rfl

theorem takeWhile_append_stop {p : Char → Bool} (hall : cs.all p = true)
    (h : ∀ c ∈ rest.head?, p c = false) : (cs ++ rest).takeWhile p = cs := by
  rw [takeWhile_append_of_stop h, List.takeWhile_eq_self_iff.2 (List.all_eq_true.1 hall)]

theorem dropWhile_append_stop {p : Char → Bool} (hall : cs.all p = true)
    (h : ∀ c ∈ rest.head?, p c = false) : (cs ++ rest).dropWhile p = rest := by
  rw [dropWhile_append_of_stop h, List.dropWhile_eq_nil_iff.2 (List.all_eq_true.1 hall),
    List.nil_append]

theorem not_isDigit_of_head?_dropWhile (cs : List Char) :
    ∀ c ∈ (cs.dropWhile isDigit).head?, isDigit c = false := by
  intro c hc
  have hhead := List.head?_dropWhile_not isDigit cs
  rw [Option.mem_def.1 hc] at hhead
  exact hhead

namespace ExponentPart

theorem scan?_of_ends (h : Numeral.Ends rest) : scan? rest = none := by
  cases rest with
  | nil => rfl
  | cons c more =>
      have hmark : c ∉ ['.', 'e', 'E', '+', '-'] := (h c rfl).2
      simp only [List.mem_cons, List.not_mem_nil, or_false, not_or] at hmark
      simp [scan?, hmark]

/-- The sign behind an exponent mark, if there is one, and what follows it. -/
def splitSign (cs : List Char) : Option Char × List Char :=
  match cs with
  | '+' :: more => (some '+', more)
  | '-' :: more => (some '-', more)
  | _ => (none, cs)

theorem splitSign_append (h : Numeral.Ends rest) :
    splitSign (cs ++ rest) = ((splitSign cs).1, (splitSign cs).2 ++ rest) := by
  cases cs with
  | nil =>
      cases rest with
      | nil => rfl
      | cons c more =>
          have hsign : c ∉ ['.', 'e', 'E', '+', '-'] := (h c rfl).2
          simp only [List.mem_cons, List.not_mem_nil, or_false, not_or] at hsign
          simp [splitSign, hsign]
  | cons c cs =>
      rw [List.cons_append, splitSign.eq_def, splitSign.eq_def]
      split <;> simp_all

theorem splitSign_toList (cs : List Char) : (splitSign cs).1.toList ++ (splitSign cs).2 = cs := by
  rw [splitSign.eq_def]
  split <;> rfl

theorem scan?_cons (mark : Char) (cs : List Char) :
    scan? (mark :: cs) =
      if mark = 'e' ∨ mark = 'E' then
        if ((splitSign cs).2.takeWhile isDigit).isEmpty then none
        else some (⟨mark, (splitSign cs).1, (splitSign cs).2.takeWhile isDigit⟩,
          (splitSign cs).2.dropWhile isDigit)
      else none :=
  rfl

theorem scan?_append (h : Numeral.Ends rest) :
    scan? (cs ++ rest) = (scan? cs).map fun front => (front.1, front.2 ++ rest) := by
  have hstop : ∀ c ∈ rest.head?, isDigit c = false := fun c hc => (h c hc).1
  cases cs with
  | nil => exact scan?_of_ends h
  | cons mark cs =>
      rw [List.cons_append, scan?_cons, scan?_cons, splitSign_append h]
      simp only [takeWhile_append_of_stop hstop, dropWhile_append_of_stop hstop]
      split
      · split <;> rfl
      · rfl

/-- The exponents that a scan gives. -/
structure IsScanned (e : ExponentPart) : Prop where
  mark : e.mark = 'e' ∨ e.mark = 'E'
  sign : e.sign = none ∨ e.sign = some '+' ∨ e.sign = some '-'
  digits : e.digits.all isDigit = true
  digits_ne_nil : e.digits ≠ []

theorem isScanned_of_scan? {e : ExponentPart} (h : scan? cs = some (e, rest)) : e.IsScanned := by
  cases cs with
  | nil => cases h
  | cons mark cs =>
      rw [scan?_cons] at h
      split_ifs at h with hmark hdigits
      cases h
      refine ⟨hmark, ?_, List.all_takeWhile, by simpa using hdigits⟩
      rw [splitSign.eq_def]
      split <;> simp

theorem splitSign_of_isScanned {e : ExponentPart} (h : e.IsScanned) (rest : List Char) :
    splitSign (e.sign.toList ++ (e.digits ++ rest)) = (e.sign, e.digits ++ rest) := by
  obtain ⟨-, hsign, hdigits, hne⟩ := h
  rcases hsign with hsign | hsign | hsign <;> rw [hsign]
  · obtain ⟨first, others, hfirst⟩ := List.exists_cons_of_ne_nil hne
    have hdigit : isDigit first = true :=
      List.all_eq_true.1 hdigits first (hfirst ▸ List.mem_cons_self ..)
    have hplus : first ≠ '+' := by
      rintro rfl
      exact absurd hdigit (by decide)
    have hminus : first ≠ '-' := by
      rintro rfl
      exact absurd hdigit (by decide)
    simp [hfirst, splitSign, hplus, hminus]
  · rfl
  · rfl

/-- An exponent that was scanned is scanned again, up to a text that does not start with a digit. -/
theorem scan?_chars_append {e : ExponentPart} (h : e.IsScanned)
    (hstop : ∀ c ∈ rest.head?, isDigit c = false) :
    scan? (e.chars ++ rest) = some (e, rest) := by
  have htake : (e.digits ++ rest).takeWhile isDigit = e.digits :=
    takeWhile_append_stop h.digits hstop
  have hdrop : (e.digits ++ rest).dropWhile isDigit = rest :=
    dropWhile_append_stop h.digits hstop
  rw [chars, List.cons_append, List.append_assoc, scan?_cons, if_pos h.mark,
    splitSign_of_isScanned h, htake, hdrop, if_neg (by simpa using h.digits_ne_nil)]

theorem not_isDigit_behind {e : ExponentPart} (h : scan? cs = some (e, rest)) :
    ∀ c ∈ rest.head?, isDigit c = false := by
  cases cs with
  | nil => cases h
  | cons mark cs =>
      rw [scan?_cons] at h
      split_ifs at h
      cases h
      exact not_isDigit_of_head?_dropWhile _

theorem chars_scan? {e : ExponentPart} (h : scan? cs = some (e, rest)) : e.chars ++ rest = cs := by
  cases cs with
  | nil => cases h
  | cons mark cs =>
      rw [scan?_cons] at h
      split at h
      · split at h
        · cases h
        · cases h
          simp [chars, splitSign_toList]
      · cases h

/-- Where no exponent stands, none stands when the end of the text is left out. -/
theorem scan?_left (h : scan? (cs ++ rest) = none) : scan? cs = none := by
  rw [Option.eq_none_iff_forall_ne_some]
  rintro ⟨e, behind⟩ hscan
  have hscanned := isScanned_of_scan? hscan
  have hchars : e.chars ++ behind = cs := chars_scan? hscan
  have hdigits : ((e.digits ++ (behind ++ rest)).takeWhile isDigit).isEmpty = false := by
    rw [List.takeWhile_append_of_pos (List.all_eq_true.1 hscanned.digits),
      List.isEmpty_eq_false_iff]
    exact List.append_ne_nil_of_left_ne_nil hscanned.digits_ne_nil _
  rw [← hchars, List.append_assoc, chars, List.cons_append, List.append_assoc, scan?_cons,
    if_pos hscanned.mark, splitSign_of_isScanned hscanned, hdigits] at h
  cases h

end ExponentPart

namespace Numeral

/-- The fraction behind the digits in front, if there is one, and what follows it. -/
def splitFraction : List Char → Option (List Char) × List Char
  | '.' :: more => (some (more.takeWhile isDigit), more.dropWhile isDigit)
  | cs => (none, cs)

theorem splitFraction_append (h : Ends rest) :
    splitFraction (cs ++ rest) = ((splitFraction cs).1, (splitFraction cs).2 ++ rest) := by
  have hstop : ∀ c ∈ rest.head?, isDigit c = false := fun c hc => (h c hc).1
  cases cs with
  | nil =>
      cases rest with
      | nil => rfl
      | cons c more =>
          have hpoint : c ∉ ['.', 'e', 'E', '+', '-'] := (h c rfl).2
          simp only [List.mem_cons, List.not_mem_nil, or_false, not_or] at hpoint
          simp [splitFraction, hpoint]
  | cons c cs =>
      rw [List.cons_append]
      by_cases hpoint : c = '.'
      · subst hpoint
        simp only [splitFraction, takeWhile_append_of_stop hstop, dropWhile_append_of_stop hstop]
      · simp [splitFraction, hpoint]

theorem splitFraction_toList (cs : List Char) :
    ((splitFraction cs).1.elim [] ('.' :: ·)) ++ (splitFraction cs).2 = cs := by
  rw [splitFraction.eq_def]
  split <;> simp

theorem scan_eq (cs : List Char) :
    scan cs =
      let front := splitFraction (cs.dropWhile isDigit)
      match ExponentPart.scan? front.2 with
      | some (exponent, rest) => (⟨cs.takeWhile isDigit, front.1, some exponent⟩, rest)
      | none => (⟨cs.takeWhile isDigit, front.1, none⟩, front.2) :=
  rfl

theorem scan_append (h : Ends rest) : scan (cs ++ rest) = ((scan cs).1, (scan cs).2 ++ rest) := by
  have hstop : ∀ c ∈ rest.head?, isDigit c = false := fun c hc => (h c hc).1
  simp only [scan_eq, takeWhile_append_of_stop hstop, dropWhile_append_of_stop hstop,
    splitFraction_append h, ExponentPart.scan?_append h]
  cases ExponentPart.scan? (splitFraction (cs.dropWhile isDigit)).2 <;> rfl

/-- No character gets lost in a scan. -/
theorem chars_scan (cs : List Char) : (scan cs).1.chars ++ (scan cs).2 = cs := by
  have hfraction := splitFraction_toList (cs.dropWhile isDigit)
  have hwhole : cs.takeWhile isDigit ++ cs.dropWhile isDigit = cs := List.takeWhile_append_dropWhile
  rw [scan_eq]
  cases hexponent : ExponentPart.scan? (splitFraction (cs.dropWhile isDigit)).2 with
  | none => simp [chars, hfraction, hwhole, hexponent]
  | some result =>
      obtain ⟨e, behind⟩ := result
      have hchars := ExponentPart.chars_scan? hexponent
      simp [chars, hchars, hfraction, hwhole, hexponent]

/-- The numerals that a scan gives. -/
structure IsScanned (n : Numeral) : Prop where
  whole : n.whole.all isDigit = true
  fraction : ∀ digits ∈ n.fraction, digits.all isDigit = true
  exponent : ∀ e ∈ n.exponent, e.IsScanned

theorem isScanned_scan (cs : List Char) : (scan cs).1.IsScanned := by
  have hfraction : ∀ digits ∈ (splitFraction (cs.dropWhile isDigit)).1,
      digits.all isDigit = true := by
    intro digits hdigits
    rw [splitFraction.eq_def] at hdigits
    split at hdigits
    · cases hdigits
      exact List.all_takeWhile
    · cases hdigits
  rw [scan_eq]
  cases hexponent : ExponentPart.scan? (splitFraction (cs.dropWhile isDigit)).2 with
  | none =>
      simp only [hexponent]
      exact ⟨List.all_takeWhile, hfraction, nofun⟩
  | some result =>
      simp only [hexponent]
      refine ⟨List.all_takeWhile, hfraction, ?_⟩
      intro e he
      cases he
      exact ExponentPart.isScanned_of_scan? hexponent

theorem head?_exponent {n : Numeral} (h : n.IsScanned) {c : Char}
    (hc : c ∈ (n.exponent.elim [] (·.chars) ++ rest).head?) :
    c = 'e' ∨ c = 'E' ∨ n.exponent = none ∧ c ∈ rest.head? := by
  cases hexponent : n.exponent with
  | none =>
      rw [hexponent] at hc
      exact Or.inr (Or.inr ⟨rfl, hc⟩)
  | some e =>
      rw [hexponent] at hc
      obtain rfl := Option.some.inj hc
      exact (h.exponent e hexponent).mark.imp_right Or.inl

/-- `n.Stops rest`: the numeral does not go on in the text `rest` behind it. -/
structure Stops (n : Numeral) (rest : List Char) : Prop where
  digit : ∀ c ∈ rest.head?, isDigit c = false
  exponent : n.exponent = none → ExponentPart.scan? rest = none
  point : n.exponent = none → n.fraction = none → '.' ∉ rest.head?

theorem stops_nil (n : Numeral) : n.Stops [] :=
  ⟨nofun, fun _ => rfl, fun _ _ => nofun⟩

theorem Stops.left {n : Numeral} (h : n.Stops (cs ++ rest)) : n.Stops cs := by
  have hhead : ∀ c ∈ cs.head?, c ∈ (cs ++ rest).head? := by
    intro c hc
    rw [List.head?_append, Option.mem_def.1 hc]
    rfl
  exact ⟨fun c hc => h.digit c (hhead c hc), fun hn => ExponentPart.scan?_left (h.exponent hn),
    fun hn hf hc => h.point hn hf (hhead _ hc)⟩

/-- A scan goes on as long as it can. -/
theorem stops_scan (cs : List Char) : (scan cs).1.Stops (scan cs).2 := by
  have hbehind := not_isDigit_of_head?_dropWhile cs
  have hfraction : ∀ c ∈ (splitFraction (cs.dropWhile isDigit)).2.head?, isDigit c = false := by
    rw [splitFraction.eq_def]
    split
    · exact not_isDigit_of_head?_dropWhile _
    · exact hbehind
  have hpoint : (splitFraction (cs.dropWhile isDigit)).1 = none →
      '.' ∉ (splitFraction (cs.dropWhile isDigit)).2.head? := by
    rw [splitFraction.eq_def]
    split
    · exact nofun
    · next hother =>
        rintro - hmem
        obtain ⟨more, hmore⟩ := List.head?_eq_some_iff.1 (Option.mem_def.1 hmem)
        exact hother more hmore
  rw [scan_eq]
  cases hexponent : ExponentPart.scan? (splitFraction (cs.dropWhile isDigit)).2 with
  | none =>
      simp only [hexponent]
      exact ⟨hfraction, fun _ => hexponent, fun _ => hpoint⟩
  | some result =>
      obtain ⟨e, rest⟩ := result
      simp only [hexponent]
      exact ⟨ExponentPart.not_isDigit_behind hexponent, nofun, nofun⟩

theorem splitFraction_of_isScanned {n : Numeral} (h : n.IsScanned) (hstops : n.Stops rest) :
    splitFraction ((n.fraction.elim [] ('.' :: ·)) ++ (n.exponent.elim [] (·.chars) ++ rest)) =
      (n.fraction, n.exponent.elim [] (·.chars) ++ rest) := by
  have hstop : ∀ c ∈ (n.exponent.elim [] (·.chars) ++ rest).head?, isDigit c = false := by
    intro c hc
    rcases head?_exponent h hc with rfl | rfl | ⟨-, hrest⟩
    · decide
    · decide
    · exact hstops.digit c hrest
  have hpoint : n.fraction = none → '.' ∉ (n.exponent.elim [] (·.chars) ++ rest).head? := by
    intro hfraction hmem
    rcases head?_exponent h hmem with heq | heq | ⟨hexponent, hrest⟩
    · exact absurd heq (by decide)
    · exact absurd heq (by decide)
    · exact hstops.point hexponent hfraction hrest
  generalize n.exponent.elim [] (·.chars) ++ rest = behind at *
  cases hfraction : n.fraction with
  | some digits =>
      have hall := h.fraction digits hfraction
      simp only [Option.elim, List.cons_append, splitFraction, takeWhile_append_stop hall hstop,
        dropWhile_append_stop hall hstop]
  | none =>
      cases behind with
      | nil => rfl
      | cons c more =>
          have hc : c ≠ '.' := by
            rintro rfl
            exact hpoint hfraction rfl
          simp [splitFraction, hc]

/-- A numeral that was scanned is scanned again, up to a text in which it does not go on. -/
theorem scan_chars_append {n : Numeral} (h : n.IsScanned) (hstops : n.Stops rest) :
    scan (n.chars ++ rest) = (n, rest) := by
  have hstop : ∀ c ∈ ((n.fraction.elim [] ('.' :: ·)) ++
      (n.exponent.elim [] (·.chars) ++ rest)).head?, isDigit c = false := by
    intro c hc
    cases hfraction : n.fraction with
    | none =>
        rw [hfraction] at hc
        rcases head?_exponent h hc with rfl | rfl | ⟨-, hrest⟩
        · decide
        · decide
        · exact hstops.digit c hrest
    | some digits =>
        rw [hfraction] at hc
        obtain rfl := Option.some.inj hc
        decide
  rw [chars, List.append_assoc, List.append_assoc, scan_eq, takeWhile_append_stop h.whole hstop,
    dropWhile_append_stop h.whole hstop, splitFraction_of_isScanned h hstops]
  obtain ⟨whole, fraction, exponent⟩ := n
  cases exponent with
  | none =>
      have hnone : ExponentPart.scan? rest = none := hstops.exponent rfl
      simp [hnone]
  | some e =>
      have hsome := ExponentPart.scan?_chars_append (h.exponent e rfl) hstops.digit
      simp [hsome]

theorem scan_chars {n : Numeral} (h : n.IsScanned) : scan n.chars = (n, []) := by
  have hscan := scan_chars_append h n.stops_nil
  rwa [List.append_nil] at hscan

theorem whole_scan (cs : List Char) : (scan cs).1.whole = cs.takeWhile isDigit := by
  rw [scan_eq]
  dsimp only
  cases ExponentPart.scan? (splitFraction (cs.dropWhile isDigit)).2 <;> rfl

/-- A numeral begins with a digit or with the point. -/
theorem exists_chars_scan (h : (scan cs).1.hasDigits = true) :
    ∃ c more, (scan cs).1.chars = c :: more ∧ (isDigit c || c == '.') = true := by
  have hwhole := whole_scan cs
  generalize (scan cs).1 = n at *
  cases hdigits : n.whole with
  | cons first others =>
      have hall : (cs.takeWhile isDigit).all isDigit = true := List.all_takeWhile
      rw [← hwhole, hdigits] at hall
      have hfirst : isDigit first = true :=
        List.all_eq_true.1 hall first (List.mem_cons_self ..)
      exact ⟨first, _, by rw [chars, hdigits]; rfl, by rw [hfirst]; rfl⟩
  | nil =>
      cases hfraction : n.fraction with
      | none => simp [hasDigits, hdigits, hfraction] at h
      | some digits => exact ⟨'.', _, by rw [chars, hdigits, hfraction]; rfl, rfl⟩

end Numeral

end Abacus
