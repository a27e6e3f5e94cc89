import Mathlib.Data.List.Forall2
import Abacus.Json.Printer
import Abacus.Proofs.Json.Reading

/-!
# Reading printed values back

A printed value is read back wherever it stands: behind blanks, and in front of what the layout puts
behind a value.
-/

namespace Abacus.Json

open Text (Yields)

variable {rest : List Char} {j : Json}

/-- What the layout puts behind a value. -/
def Ends (rest : List Char) : Prop := ∀ c ∈ rest.head?, c ∈ [',', '\n', ']', '\x7d']

theorem Ends.numeral (h : Ends rest) : Numeral.Ends rest := by
  intro c hc
  have hmem := h c hc
  simp only [List.mem_cons, List.not_mem_nil, or_false] at hmem
  rcases hmem with rfl | rfl | rfl | rfl <;> decide

theorem ends_nil : Ends [] := by
  intro c hc
  cases hc

theorem ends_cons {c : Char} (rest : List Char) (h : c ∈ [',', '\n', ']', '\x7d']) :
    Ends (c :: rest) := by
  intro d hd
  rw [List.head?_cons, Option.mem_some_iff] at hd
  exact hd ▸ h

/-- A text is read as a value wherever it stands. -/
structure Reads (text : List Char) (j : Json) : Prop where
  start : ∃ c more, text = c :: more ∧ isSpace c = false ∧ c ≠ ']'
  yields : ∀ blanks rest, blanks.all isSpace = true → Ends rest →
    Yields (readValue (blanks ++ text ++ rest)) j rest

theorem skipSpace_append {blanks : List Char} {c : Char} {more : List Char}
    (hblanks : blanks.all isSpace = true) (hc : isSpace c = false) :
    skipSpace (blanks ++ c :: more) = c :: more := by
  rw [skipSpace, List.dropWhile_append_of_pos (List.all_eq_true.1 hblanks)]
  simp [hc]

theorem skipSpace_cons {c : Char} {more : List Char} (hc : isSpace c = false) :
    skipSpace (c :: more) = c :: more := by
  simp [skipSpace, hc]

theorem all_isSpace_lineBreak (depth : Nat) : (lineBreak depth).all isSpace = true := by
  simp [lineBreak, isSpace]

theorem reads_string (s : String) : Reads (stringChars (some s)) (.text s) where
  start := ⟨'"', s.toList.flatMap escape ++ ['"'], rfl, by decide, by decide⟩
  yields := by
    intro blanks rest hblanks _
    have htext : blanks ++ stringChars (some s) ++ rest =
        blanks ++ '"' :: (s.toList.flatMap escape ++ '"' :: rest) := by
      simp [stringChars, quoted]
    rw [htext]
    apply yields_readValue_string
    · exact skipSpace_append hblanks (by decide)
    · exact yields_readString_quoted s rest

section Numbers

theorem isSpace_of_isDigit {c : Char} (h : isDigit c = true) : isSpace c = false := by
  rw [Bool.eq_false_iff]
  intro hspace
  have hc : c = ' ' ∨ c = '\n' ∨ c = '\t' ∨ c = '\r' := by
    simpa [isSpace, or_assoc] using hspace
  rcases hc with rfl | rfl | rfl | rfl <;> exact absurd h (by decide)

theorem exists_digit_of_isNumeral {n : Numeral} (hscanned : n.IsScanned)
    (hnumeral : isNumeral n = true) : ∃ c more, n.chars = c :: more ∧ isDigit c = true := by
  have hdigits := hscanned.whole
  cases hwhole : n.whole with
  | nil => simp [isNumeral, hwhole] at hnumeral
  | cons c more =>
      rw [hwhole] at hdigits
      have hchars : ∃ others, n.chars = c :: others := by simp [Numeral.chars, hwhole]
      obtain ⟨others, hchars⟩ := hchars
      exact ⟨c, others, hchars, List.all_eq_true.1 hdigits c (List.mem_cons_self ..)⟩

/-- A number is read wherever it stands, with or without a sign. -/
theorem reads_number {n : Numeral} (negative : Bool) (hscanned : n.IsScanned)
    (hnumeral : isNumeral n = true) :
    Reads (scalarChars (.number negative n)) (.number negative n) := by
  have hread : ∀ rest, Ends rest → Yields (readNumeral (n.chars ++ rest)) n rest := by
    intro rest hrest
    have hall : Numeral.scan (n.chars ++ rest) = (n, rest) := by
      rw [Numeral.scan_append hrest.numeral, Numeral.scan_chars hscanned, List.nil_append]
    exact yields_readNumeral hall rfl hnumeral
  cases negative with
  | true =>
      refine ⟨⟨'-', n.chars, rfl, by decide, by decide⟩, ?_⟩
      intro blanks rest hblanks hrest
      have hskip : skipSpace (blanks ++ scalarChars (.number true n) ++ rest) =
          '-' :: (n.chars ++ rest) := by
        rw [List.append_assoc]
        exact skipSpace_append hblanks (by decide)
      exact yields_readValue_negative hskip (hread rest hrest)
  | false =>
      have htext : scalarChars (.number false n) = n.chars := rfl
      obtain ⟨c, more, hchars, hdigit⟩ := exists_digit_of_isNumeral hscanned hnumeral
      have hspace := isSpace_of_isDigit hdigit
      have hbracket : c ≠ ']' := by
        rintro rfl
        exact absurd hdigit (by decide)
      rw [htext, hchars]
      refine ⟨⟨c, more, rfl, hspace, hbracket⟩, ?_⟩
      intro blanks rest hblanks hrest
      have hskip : skipSpace (blanks ++ c :: more ++ rest) = c :: (more ++ rest) := by
        rw [List.append_assoc]
        exact skipSpace_append hblanks hspace
      have hmore := hread rest hrest
      rw [hchars] at hmore
      exact yields_readValue_positive hskip hdigit hmore

end Numbers

section Blocks

theorem separated_cons (separator text : List Char) (texts : List (List Char)) :
    separated separator (text :: texts) = text ++ texts.flatMap (separator ++ ·) := by
  induction texts generalizing text with
  | nil => simp [separated]
  | cons next more ih => simp [separated, ih]

/-- What stands behind the first item of a block. -/
def tail (depth : Nat) (closing : Char) (texts : List (List Char)) (rest : List Char) : List Char :=
  texts.flatMap (',' :: lineBreak (depth + 1) ++ ·) ++ lineBreak depth ++ closing :: rest

theorem block_cons (depth : Nat) (opening closing : Char) (text : List Char)
    (texts : List (List Char)) (rest : List Char) :
    block depth opening closing (text :: texts) ++ rest =
      opening :: (lineBreak (depth + 1) ++ text ++ tail depth closing texts rest) := by
  simp [block, separated_cons, tail]

theorem tail_cons (depth : Nat) (closing : Char) (text : List Char) (texts : List (List Char))
    (rest : List Char) :
    tail depth closing (text :: texts) rest =
      ',' :: (lineBreak (depth + 1) ++ text ++ tail depth closing texts rest) := by
  simp [tail]

theorem ends_tail (depth : Nat) (closing : Char) (texts : List (List Char)) (rest : List Char) :
    Ends (tail depth closing texts rest) := by
  cases texts with
  | nil => exact ends_cons _ (by decide)
  | cons text texts =>
      rw [tail_cons]
      exact ends_cons _ (by decide)

theorem yields_readItems {depth : Nat} {texts : List (List Char)} {items : List Json}
    (h : List.Forall₂ Reads texts items) (rest : List Char) :
    Yields (readItems (tail depth ']' texts rest)) items rest := by
  induction h with
  | nil =>
      apply yields_readItems_nil
      exact skipSpace_append (all_isSpace_lineBreak depth) (by decide)
  | @cons text j texts items hfirst _ ih =>
      rw [tail_cons]
      apply yields_readItems_cons
      · exact skipSpace_cons (by decide)
      · exact hfirst.yields _ _ (all_isSpace_lineBreak _) (ends_tail _ _ _ _)
      · exact ih

theorem reads_array {texts : List (List Char)} {items : List Json}
    (h : List.Forall₂ Reads texts items) (depth : Nat) :
    Reads (block depth '[' ']' texts) (.array items) where
  start := by
    refine ⟨'[', (block depth '[' ']' texts).tail, ?_, by decide, by decide⟩
    cases texts <;> rfl
  yields := by
    intro blanks rest hblanks _
    cases h with
    | nil =>
        rw [List.append_assoc]
        apply yields_readValue_array_nil
        · exact skipSpace_append hblanks (by decide)
        · exact skipSpace_cons (by decide)
    | @cons text j texts items hfirst hmore =>
        rw [List.append_assoc, block_cons]
        apply yields_readValue_array_cons
        · exact skipSpace_append hblanks (by decide)
        · obtain ⟨c, more, rfl, hspace, hopen⟩ := hfirst.start
          intro others heq
          rw [List.append_assoc, List.cons_append,
            skipSpace_append (all_isSpace_lineBreak _) hspace] at heq
          cases heq
          exact hopen rfl
        · exact hfirst.yields _ _ (all_isSpace_lineBreak _) (ends_tail _ _ _ _)
        · exact yields_readItems hmore rest

/-- The text of a member with the name and the text of its value. -/
def memberText (member : String × List Char) : List Char :=
  stringChars (some member.1) ++ ':' :: ' ' :: member.2

/-- A name with the text of a value is read as that name with the value. -/
def ReadsMember (text : String × List Char) (member : String × Json) : Prop :=
  text.1 = member.1 ∧ Reads text.2 member.2

theorem yields_readMember_memberText {text : String × List Char} {member : String × Json}
    {blanks : List Char} (h : ReadsMember text member) (hblanks : blanks.all isSpace = true)
    (hrest : Ends rest) :
    Yields (readMember (blanks ++ memberText text ++ rest)) (some member.1, member.2) rest := by
  obtain ⟨name, value⟩ := text
  obtain ⟨hname, hvalue⟩ := h
  have htext : blanks ++ memberText (name, value) ++ rest =
      blanks ++ '"' :: (name.toList.flatMap escape ++
        '"' :: (':' :: ([' '] ++ value ++ rest))) := by
    simp [memberText, stringChars, quoted]
  rw [htext, ← hname]
  apply yields_readMember
  · exact skipSpace_append hblanks (by decide)
  · exact yields_readString_quoted name _
  · exact skipSpace_cons (by decide)
  · exact hvalue.yields [' '] rest (by decide) hrest

theorem yields_readMembers {depth : Nat} {texts : List (String × List Char)}
    {members : List (String × Json)} (h : List.Forall₂ ReadsMember texts members)
    (rest : List Char) :
    Yields (readMembers (tail depth '\x7d' (texts.map memberText) rest))
      (members.map fun member => (some member.1, member.2)) rest := by
  induction h with
  | nil =>
      apply yields_readMembers_nil
      exact skipSpace_append (all_isSpace_lineBreak depth) (by decide)
  | @cons text member texts members hfirst _ ih =>
      rw [List.map_cons, List.map_cons, tail_cons]
      apply yields_readMembers_cons
      · exact skipSpace_cons (by decide)
      · exact yields_readMember_memberText hfirst (all_isSpace_lineBreak _) (ends_tail _ _ _ _)
      · exact ih

theorem reads_record {texts : List (String × List Char)} {members : List (String × Json)}
    (h : List.Forall₂ ReadsMember texts members) (depth : Nat) :
    Reads (block depth '\x7b' '\x7d' (texts.map memberText)) (.record members) where
  start := by
    refine ⟨'\x7b', (block depth '\x7b' '\x7d' (texts.map memberText)).tail, ?_, by decide,
      by decide⟩
    cases texts <;> rfl
  yields := by
    intro blanks rest hblanks _
    cases h with
    | nil =>
        rw [List.append_assoc]
        apply yields_readValue_object_nil
        · exact skipSpace_append hblanks (by decide)
        · exact skipSpace_cons (by decide)
    | @cons text member texts members hfirst hmore =>
        rw [List.append_assoc, List.map_cons, block_cons]
        apply yields_readValue_object_cons
        · exact skipSpace_append hblanks (by decide)
        · intro others heq
          have hquote : ∃ more, memberText text = '"' :: more := ⟨_, rfl⟩
          obtain ⟨more, hmember⟩ := hquote
          rw [hmember, List.append_assoc, List.cons_append,
            skipSpace_append (all_isSpace_lineBreak _) (by decide)] at heq
          cases heq
        · exact yields_readMember_memberText hfirst (all_isSpace_lineBreak _) (ends_tail _ _ _ _)
        · exact yields_readMembers hmore rest

end Blocks

/-- A text that is read wherever it stands is read on its own. -/
theorem Reads.read?_eq {s : String} (h : Reads s.toList j) : read? s = some j := by
  have hyields := h.yields [] [] rfl ends_nil
  rw [List.nil_append, List.append_nil] at hyields
  obtain ⟨shorter, hread⟩ := hyields
  rw [read?, hread]
  rfl

end Abacus.Json
