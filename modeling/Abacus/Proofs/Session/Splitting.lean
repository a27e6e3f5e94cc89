import Abacus.Proofs.Text.Trim
import Abacus.Proofs.Token.Lexeme
import Abacus.Session.Assignment

/-!
# The form of an assignment

A text is an assignment exactly if it consists of a name, an equals sign and an expression that goes
to the end of its line, with blanks in front of each. Every one of these parts ends where a character
stands that it cannot go on with, so a text has the form in one way at most, and it is split into
the name and the expression of that one.
-/

namespace Abacus

section Names

variable {c : Char} {name : String} {cs : List Char}

theorem Token.isNameChar_of_isNameStart (h : Token.isNameStart c = true) :
    Token.isNameChar c = true :=
  Bool.or_eq_true_iff.2
    ((Bool.or_eq_true_iff.1 h).imp_left Text.isLetterOrNumeral_of_isLetter)

theorem Token.IsName.all (h : Token.IsName name) : name.toList.all Token.isNameChar = true := by
  obtain ⟨c, more, hchars, hstart, hmore⟩ := h
  rw [hchars, List.all_cons, isNameChar_of_isNameStart hstart, hmore]
  rfl

/-- No blank stands in front of a name. -/
theorem Token.not_isBlank_of_all (hall : cs.all Token.isNameChar = true) (hcs : cs ≠ [])
    (rest : List Char) : ∀ d ∈ (cs ++ rest).head?, Text.isBlank d = false := by
  obtain ⟨first, more, rfl⟩ := List.exists_cons_of_ne_nil hcs
  intro d hd
  obtain rfl := Option.some.inj hd
  exact isBlank_of_isNameChar (List.all_eq_true.1 hall _ (List.mem_cons_self ..))

theorem Token.IsName.not_isBlank (h : Token.IsName name) (rest : List Char) :
    ∀ d ∈ (name.toList ++ rest).head?, Text.isBlank d = false := by
  refine not_isBlank_of_all h.all ?_ rest
  obtain ⟨c, more, hchars, -⟩ := h
  simp [hchars]

namespace Assignment

theorem isNameStart_of_ascii (h : isNameStart c = true) : Token.isNameStart c = true := by
  rw [isNameStart, Bool.or_eq_true, Bool.or_eq_true] at h
  rw [Token.isNameStart, Bool.or_eq_true]
  refine h.imp_left fun hletter => Text.isLetter_of_ascii ?_
  simpa using hletter

theorem isNameChar_of_ascii (h : isNameChar c = true) : Token.isNameChar c = true := by
  rcases Bool.or_eq_true_iff.1 h with hstart | hdigit
  · exact Token.isNameChar_of_isNameStart (isNameStart_of_ascii hstart)
  · rw [Token.isNameChar, Text.isLetterOrNumeral, Text.isNumeral_of_isDigit hdigit, Bool.or_true]
    rfl

theorem not_isNameChar_of_ascii (h : Token.isNameChar c = false) : isNameChar c = false := by
  rw [Bool.eq_false_iff] at h ⊢
  exact mt isNameChar_of_ascii h

/-- The names of variables are read as single tokens. -/
theorem IsName.token (h : IsName name.toList) : Token.IsName name := by
  obtain ⟨c, more, hchars, hstart, hmore⟩ := h
  refine ⟨c, more, hchars, isNameStart_of_ascii hstart, ?_⟩
  rw [List.all_eq_true] at hmore ⊢
  intro d hd
  exact isNameChar_of_ascii (hmore d hd)

theorem IsName.all (h : IsName cs) : cs.all Token.isNameChar = true := by
  obtain ⟨c, more, rfl, hstart, hmore⟩ := h
  rw [List.all_eq_true] at hmore ⊢
  intro d hd
  rcases List.mem_cons.1 hd with rfl | hd
  · exact Token.isNameChar_of_isNameStart (isNameStart_of_ascii hstart)
  · exact isNameChar_of_ascii (hmore d hd)

end Assignment

end Names

namespace Assignment

/-- The parts of an assignment in the order in which they stand in the text. -/
@[ext] structure Form where
  front : List Char
  name : List Char
  before : List Char
  behind : List Char
  expression : List Char
  blank_front : front.all Text.isBlank = true
  isName_name : IsName name
  blank_before : before.all Text.isBlank = true
  blank_behind : behind.all Text.isBlank = true
  not_blank_expression : ∀ c ∈ expression.head?, Text.isBlank c = false
  one_line_expression : '\n' ∉ expression

/-- Where two texts are cut behind all characters of one kind, they are cut at the same place. -/
theorem append_inj_of_stop {p : Char → Bool} {cs cs' rest rest' : List Char}
    (hall : cs.all p = true) (hall' : cs'.all p = true) (hstop : ∀ c ∈ rest.head?, p c = false)
    (hstop' : ∀ c ∈ rest'.head?, p c = false) (h : cs ++ rest = cs' ++ rest') :
    cs = cs' ∧ rest = rest' := by
  constructor
  · rw [← takeWhile_append_stop hall hstop, h, takeWhile_append_stop hall' hstop']
  · rw [← dropWhile_append_stop hall hstop, h, dropWhile_append_stop hall' hstop']

theorem not_isBlank_equals {rest : List Char} :
    ∀ c ∈ ('=' :: rest).head?, Text.isBlank c = false := by
  intro c hc
  obtain rfl := Option.some.inj hc
  decide

namespace Form

/-- All parts of an assignment, with the equals sign between them. -/
def chars (f : Form) : List Char :=
  f.front ++ (f.name ++ (f.before ++ '=' :: (f.behind ++ f.expression)))

def text (f : Form) : String := String.ofList f.chars

variable {f g : Form}

theorem not_isBlank_name (f : Form) (rest : List Char) :
    ∀ c ∈ (f.name ++ rest).head?, Text.isBlank c = false := by
  refine Token.not_isBlank_of_all f.isName_name.all ?_ rest
  obtain ⟨c, more, hname, -⟩ := f.isName_name
  simp [hname]

theorem not_isNameChar_before (f : Form) (rest : List Char) :
    ∀ c ∈ (f.before ++ '=' :: rest).head?, Token.isNameChar c = false := by
  intro c hc
  have hblank := f.blank_before
  cases hbefore : f.before with
  | nil =>
      rw [hbefore] at hc
      obtain rfl := Option.some.inj hc
      decide
  | cons first more =>
      rw [hbefore] at hc hblank
      obtain rfl := Option.some.inj hc
      have hfirst := List.all_eq_true.1 hblank _ (List.mem_cons_self ..)
      rw [Bool.eq_false_iff]
      intro hname
      rw [Token.isBlank_of_isNameChar hname] at hfirst
      cases hfirst

/-- A text has the form of an assignment in one way at most. -/
theorem eq_of_chars (h : f.chars = g.chars) : f = g := by
  obtain ⟨hfront, h⟩ := append_inj_of_stop f.blank_front g.blank_front
    (f.not_isBlank_name _) (g.not_isBlank_name _) h
  obtain ⟨hname, h⟩ := append_inj_of_stop f.isName_name.all g.isName_name.all
    (f.not_isNameChar_before _) (g.not_isNameChar_before _) h
  obtain ⟨hbefore, h⟩ := append_inj_of_stop f.blank_before g.blank_before
    not_isBlank_equals not_isBlank_equals h
  obtain ⟨hbehind, hexpression⟩ := append_inj_of_stop f.blank_behind g.blank_behind
    f.not_blank_expression g.not_blank_expression (List.cons.inj h).2
  exact Form.ext hfront hname hbefore hbehind hexpression

theorem trimFront_chars (f : Form) :
    Text.trimFront f.chars = f.name ++ (f.before ++ '=' :: (f.behind ++ f.expression)) :=
  dropWhile_append_stop f.blank_front (f.not_isBlank_name _)

theorem trimFront_behind (f : Form) : Text.trimFront (f.behind ++ f.expression) = f.expression :=
  dropWhile_append_stop f.blank_behind f.not_blank_expression

theorem splitChars?_chars (f : Form) : splitChars? f.chars = some (f.name, f.expression) := by
  have hfront := f.trimFront_chars
  have hbefore : Text.trimFront (f.before ++ '=' :: (f.behind ++ f.expression)) = '=' :: _ :=
    dropWhile_append_stop f.blank_before not_isBlank_equals
  have hstop : ∀ c ∈ (f.before ++ '=' :: (f.behind ++ f.expression)).head?,
      isNameChar c = false :=
    fun c hc => not_isNameChar_of_ascii (f.not_isNameChar_before _ c hc)
  obtain ⟨c, more, hname, hstart, hmore⟩ := f.isName_name
  have hone : f.expression.contains '\n' = false := by
    simpa using f.one_line_expression
  rw [hname, List.cons_append] at hfront
  rw [splitChars?, hfront, hname]
  simp only [hstart, if_true, dropWhile_append_stop hmore hstop,
    takeWhile_append_stop hmore hstop, hbefore, f.trimFront_behind, hone, Bool.false_eq_true, if_false]

/-- Whatever is split has the form of an assignment. -/
theorem exists_of_splitChars? {cs name expression : List Char}
    (h : splitChars? cs = some (name, expression)) :
    ∃ f : Form, f.chars = cs ∧ f.name = name ∧ f.expression = expression := by
  have hsplit : ∀ cs : List Char, cs.takeWhile Text.isBlank ++ Text.trimFront cs = cs :=
    fun cs => List.takeWhile_append_dropWhile
  unfold splitChars? at h
  cases htrimmed : Text.trimFront cs with
  | nil =>
      rw [htrimmed] at h
      cases h
  | cons c rest =>
      simp only [htrimmed] at h
      split_ifs at h with hstart
      split at h
      · next behind hbehind =>
          split_ifs at h with hone
          cases h
          refine ⟨{
            front := cs.takeWhile Text.isBlank
            name := c :: rest.takeWhile isNameChar
            before := (rest.dropWhile isNameChar).takeWhile Text.isBlank
            behind := behind.takeWhile Text.isBlank
            expression := Text.trimFront behind
            blank_front := List.all_takeWhile
            isName_name := ⟨c, _, rfl, hstart, List.all_takeWhile⟩
            blank_before := List.all_takeWhile
            blank_behind := List.all_takeWhile
            not_blank_expression := fun _ => Text.not_isBlank_of_mem_head?_trimFront
            one_line_expression := by simpa using hone }, ?_, rfl, rfl⟩
          rw [chars, hsplit, ← hbehind, hsplit, List.cons_append,
            List.takeWhile_append_dropWhile, ← htrimmed, hsplit]
      · cases h

end Form

section Texts

variable {text name expression : String}

theorem splitChars?_eq_some {cs name expression : List Char} :
    splitChars? cs = some (name, expression) ↔
      ∃ f : Form, f.chars = cs ∧ f.name = name ∧ f.expression = expression := by
  constructor
  · exact Form.exists_of_splitChars?
  · rintro ⟨f, rfl, rfl, rfl⟩
    exact f.splitChars?_chars

theorem split?_eq_some :
    split? text = some (name, expression) ↔
      ∃ f : Form, f.chars = text.toList ∧ String.ofList f.name = name ∧
        String.ofList f.expression = expression := by
  simp only [split?, Option.map_eq_some_iff, Prod.exists, splitChars?_eq_some]
  constructor
  · rintro ⟨_, _, ⟨f, hchars, rfl, rfl⟩, hparts⟩
    cases hparts
    exact ⟨f, hchars, rfl, rfl⟩
  · rintro ⟨f, hchars, rfl, rfl⟩
    exact ⟨_, _, ⟨f, hchars, rfl, rfl⟩, rfl⟩

theorem isName_of_split? (h : split? text = some (name, expression)) : IsName name.toList := by
  obtain ⟨f, -, rfl, -⟩ := split?_eq_some.1 h
  rw [String.toList_ofList]
  exact f.isName_name

/-- There is an equals sign in every assignment. -/
theorem equals_mem_of_split? (h : split? text = some (name, expression)) : '=' ∈ text.toList := by
  obtain ⟨f, hchars, -⟩ := split?_eq_some.1 h
  rw [← hchars]
  simp [Form.chars]

end Texts

/-- A text is split exactly if it has the form of an assignment, into the name and the expression of
the only such form it has. -/
theorem split?_iff_form (text : String) :
    (∀ name expression, split? text = some (name, expression) ↔
        ∃ form : Form, form.text = text ∧ String.ofList form.name = name ∧
          String.ofList form.expression = expression) ∧
      (∀ form other : Form, form.text = text → other.text = text → form = other) ∧
      (split? text = none ↔ ∀ form : Form, form.text ≠ text) := by
  have htext : ∀ form : Form, form.text = text ↔ form.chars = text.toList := by
    intro form
    rw [Form.text, ← String.toList_inj, String.toList_ofList]
  simp only [htext, ne_eq]
  refine ⟨fun name expression => split?_eq_some, ?_, ?_⟩
  · intro form other hform hother
    exact Form.eq_of_chars (hform.trans hother.symm)
  · rw [Option.eq_none_iff_forall_not_mem]
    constructor
    · intro hnone form hform
      exact hnone _ (split?_eq_some.2 ⟨form, hform, rfl, rfl⟩)
    · rintro hno ⟨name, expression⟩ hparts
      obtain ⟨form, hform, -⟩ := split?_eq_some.1 hparts
      exact hno form hform

/-- The expression may hold further equals signs, and the blanks in front of it line feeds. -/
example : split? " x\n=\n y = 1" = some ("x", "y = 1") := by decide

end Assignment

end Abacus
