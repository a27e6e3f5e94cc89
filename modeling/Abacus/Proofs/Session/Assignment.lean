import Abacus.Proofs.Session.Invariant

/-!
# Lines that assign to a name

How a line of the form `name = text` is taken apart: where it is at all, into that name and the text
without the blanks at its front.
-/

namespace Abacus.Assignment

/-- The line that assigns the value of a text to a name. -/
def lineFor (name text : String) : String := name ++ " = " ++ text

variable {name text : String}

theorem toList_lineFor :
    (lineFor name text).toList = name.toList ++ ' ' :: '=' :: ' ' :: text.toList := by
  simp [lineFor]

theorem equals_mem_lineFor : '=' ∈ (lineFor name text).toList := by
  rw [toList_lineFor]
  simp

theorem trimFront_space (cs : List Char) : Text.trimFront (' ' :: cs) = Text.trimFront cs := by
  have hspace : Text.isBlank ' ' = true := by decide
  simp [Text.trimFront, hspace]

/-- The form of an assignment that a line `name = text` has, if it has one. -/
theorem Form.eq_of_lineFor {form : Form} (hname : Token.IsName name)
    (h : form.chars = (lineFor name text).toList) :
    form.name = name.toList ∧ form.expression = Text.trimFront text.toList := by
  have hspace : ∀ c ∈ ([' '] ++ '=' :: ' ' :: text.toList).head?, Token.isNameChar c = false := by
    intro c hc
    exact Token.not_nameChar_of_ends (Or.inl (Option.some.inj hc).symm)
  rw [toList_lineFor] at h
  obtain ⟨-, h⟩ := append_inj_of_stop form.blank_front List.all_nil (form.not_isBlank_name _)
    (hname.not_isBlank _) h
  obtain ⟨hsame, h⟩ := append_inj_of_stop form.isName_name.all hname.all
    (form.not_isNameChar_before _) hspace h
  obtain ⟨-, h⟩ := append_inj_of_stop form.blank_before (by decide) not_isBlank_equals
    not_isBlank_equals h
  refine ⟨hsame, ?_⟩
  rw [← form.trimFront_behind, (List.cons.inj h).2, trimFront_space]

/-- A line `name = text` is an assignment if the name is an ASCII one and no line ends in the text
behind its first blanks. -/
theorem split?_lineFor (hname : Token.IsName name) {parts : String × String} :
    split? (lineFor name text) = some parts ↔
      IsName name.toList ∧ '\n' ∉ Text.trimFront text.toList ∧
        parts = (name, String.ofList (Text.trimFront text.toList)) := by
  constructor
  · intro h
    obtain ⟨form, hchars, hfirst, hsecond⟩ := split?_eq_some.1 h
    obtain ⟨hform, hexpression⟩ := Form.eq_of_lineFor hname hchars
    have hascii := form.isName_name
    have hfeed := form.one_line_expression
    rw [hform] at hascii hfirst
    rw [hexpression] at hfeed hsecond
    rw [String.ofList_toList] at hfirst
    exact ⟨hascii, hfeed, Prod.ext hfirst.symm hsecond.symm⟩
  · rintro ⟨hascii, hfeed, rfl⟩
    have hspaces : (' ' :: text.toList.takeWhile Text.isBlank).all Text.isBlank = true := by
      rw [List.all_cons, List.all_takeWhile]
      decide
    refine split?_eq_some.2 ⟨{
      front := []
      name := name.toList
      before := [' ']
      behind := ' ' :: text.toList.takeWhile Text.isBlank
      expression := Text.trimFront text.toList
      blank_front := List.all_nil
      isName_name := hascii
      blank_before := by decide
      blank_behind := hspaces
      not_blank_expression := fun _ => Text.not_isBlank_of_mem_head?_trimFront
      one_line_expression := hfeed }, ?_, String.ofList_toList, rfl⟩
    change name.toList ++ ' ' :: '=' :: ' ' ::
      (text.toList.takeWhile Text.isBlank ++ Text.trimFront text.toList) = _
    rw [toList_lineFor, Text.trimFront, List.takeWhile_append_dropWhile]

end Abacus.Assignment
