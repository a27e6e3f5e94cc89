import Mathlib.Data.List.DropRight
import Abacus.Text.Blank

/-!
# Trimmed texts

A text without blanks at its ends stays what it is when it is trimmed.
-/

namespace Abacus.Text

theorem trimFront_eq_self {cs : List Char} (h : ∀ c ∈ cs.head?, isBlank c = false) :
    trimFront cs = cs := by
  cases cs with
  | nil => rfl
  | cons c rest =>
      have hc : isBlank c = false := h c rfl
      simp [trimFront, hc]

theorem not_isBlank_of_mem_head?_trimFront {cs : List Char} {c : Char}
    (h : c ∈ (trimFront cs).head?) : isBlank c = false := by
  have hfront := List.head?_dropWhile_not isBlank cs
  rw [trimFront, Option.mem_def] at h
  rw [h] at hfront
  exact hfront

/-- Trimming the back is taking characters off there. -/
theorem trimBack_eq_rdropWhile (cs : List Char) : trimBack cs = cs.rdropWhile isBlank :=
  rfl

theorem head?_trimBack {cs : List Char} {c : Char} (h : c ∈ (trimBack cs).head?) :
    c ∈ cs.head? := by
  have hprefix : trimBack cs <+: cs := by
    rw [trimBack_eq_rdropWhile]
    exact List.rdropWhile_prefix isBlank cs
  obtain ⟨behind, hbehind⟩ := hprefix
  rw [← hbehind]
  cases htrimmed : trimBack cs with
  | nil =>
      rw [htrimmed] at h
      cases h
  | cons first rest =>
      rw [htrimmed] at h
      exact h

theorem trimFront_append_blanks {cs : List Char} (h : cs.all isBlank = true) (rest : List Char) :
    trimFront (cs ++ rest) = trimFront rest := by
  rw [trimFront, List.dropWhile_append_of_pos (List.all_eq_true.1 h)]
  rfl

theorem trimBack_append_blanks {ds : List Char} (h : ds.all isBlank = true) (cs : List Char) :
    trimBack (cs ++ ds) = trimBack cs := by
  rw [trimBack, List.reverse_append, trimFront_append_blanks (by rwa [List.all_reverse])]
  rfl

theorem trimBack_concat {c : Char} (h : isBlank c = false) (cs : List Char) :
    trimBack (cs ++ [c]) = cs ++ [c] := by
  rw [trimBack_eq_rdropWhile, List.rdropWhile_concat_neg _ _ _ (by simp [h])]

/-- Nothing is taken off in front of a character that is no blank. -/
theorem trimBack_append {ds : List Char} {c : Char} (hc : c ∈ ds) (h : isBlank c = false)
    (cs : List Char) : trimBack (cs ++ ds) = cs ++ trimBack ds := by
  have hne : ds.reverse.dropWhile isBlank ≠ [] := by
    rw [ne_eq, List.dropWhile_eq_nil_iff]
    intro hall
    rw [hall c (List.mem_reverse.2 hc)] at h
    cases h
  rw [trimBack, List.reverse_append, trimFront, List.dropWhile_append,
    if_neg (by simpa using hne), List.reverse_append, List.reverse_reverse]
  rfl

/-- Only blanks are taken off the back. -/
theorem exists_trimBack (cs : List Char) :
    ∃ back, cs = trimBack cs ++ back ∧ back.all isBlank = true := by
  refine ⟨(cs.reverse.takeWhile isBlank).reverse, ?_, ?_⟩
  · rw [trimBack, trimFront, ← List.reverse_append, List.takeWhile_append_dropWhile,
      List.reverse_reverse]
  · rw [List.all_reverse]
    exact List.all_takeWhile

/-- Only blanks are taken off. -/
theorem exists_trimChars (cs : List Char) :
    ∃ front back, cs = front ++ trimChars cs ++ back ∧ front.all isBlank = true ∧
      back.all isBlank = true := by
  obtain ⟨back, hback, hblank⟩ := exists_trimBack (trimFront cs)
  refine ⟨cs.takeWhile isBlank, back, ?_, List.all_takeWhile, hblank⟩
  have hfront : cs.takeWhile isBlank ++ trimFront cs = cs := List.takeWhile_append_dropWhile
  rw [trimChars, List.append_assoc, ← hback, hfront]

/-- A line that is a text with blanks around it. -/
structure IsPadded (line front text back : String) : Prop where
  line_eq : line = front ++ text ++ back
  blank_front : isBlankText front = true
  blank_back : isBlankText back = true

theorem exists_isPadded_trim (line : String) :
    ∃ front back, IsPadded line front (trim line) back := by
  obtain ⟨front, back, hline, hfront, hback⟩ := exists_trimChars line.toList
  refine ⟨String.ofList front, String.ofList back, ?_, ?_, ?_⟩
  · rw [← String.toList_inj]
    simpa [trim] using hline
  · rwa [isBlankText, String.toList_ofList]
  · rwa [isBlankText, String.toList_ofList]

@[simp] theorem trimChars_trimChars (cs : List Char) :
    trimChars (trimChars cs) = trimChars cs := by
  have hfront : trimFront (trimChars cs) = trimChars cs := by
    apply trimFront_eq_self
    intro c hc
    exact not_isBlank_of_mem_head?_trimFront (head?_trimBack hc)
  have hback : trimBack (trimChars cs) = trimChars cs := by
    simp only [trimChars, trimBack_eq_rdropWhile]
    exact List.rdropWhile_idempotent isBlank (trimFront cs)
  calc
    trimChars (trimChars cs) = trimBack (trimFront (trimChars cs)) := rfl
    _ = trimBack (trimChars cs) := by rw [hfront]
    _ = trimChars cs := hback

@[simp] theorem trim_trim (s : String) : trim (trim s) = trim s := by
  simp [trim]

end Abacus.Text
