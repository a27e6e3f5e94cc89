import Abacus.Proofs.Decimal.Digits
import Abacus.Proofs.Number.Word
import Abacus.Proofs.Text.Classes
import Abacus.Proofs.Token.Cutting

/-!
# Reading single tokens

How names, whole numbers and symbols in front of a text are read, and how reading goes on behind
them. A name or a number ends where a blank or a parenthesis stands.
-/

namespace Abacus.Token

/-- A text in front of which every name and number ends. -/
def Ends (rest : List Char) : Prop :=
  ∀ c ∈ rest.head?, c = ' ' ∨ c = '(' ∨ c = ')'

theorem ends_nil : Ends [] := by
  intro c hc
  cases hc

theorem ends_cons {c : Char} (rest : List Char) (h : c = ' ' ∨ c = '(' ∨ c = ')') :
    Ends (c :: rest) := by
  intro d hd
  obtain rfl := Option.some.inj hd
  exact h

theorem ends_rightParen (rest : List Char) : Ends (')' :: rest) :=
  ends_cons rest (Or.inr (Or.inr rfl))

/-- `Lexes cs kinds rest`: tokens of the given kinds are read in front of `cs`, and reading goes on
with `rest`. -/
def Lexes (cs : List Char) (kinds : List Kind) (rest : List Char) : Prop :=
  ∀ position, ∃ tokens behind, tokens.map (·.kind) = kinds ∧
    tokenizeFrom position cs = (tokenizeFrom behind rest).map (tokens ++ ·)

section Lexes

variable {cs between rest lexeme : List Char} {kinds more : List Kind} {kind : Kind} {c : Char}

theorem Lexes.trans (h : Lexes cs kinds between) (hmore : Lexes between more rest) :
    Lexes cs (kinds ++ more) rest := by
  intro position
  obtain ⟨front, middle, hfront, heq⟩ := h position
  obtain ⟨tail, behind, htail, hrest⟩ := hmore middle
  refine ⟨front ++ tail, behind, by rw [List.map_append, hfront, htail], ?_⟩
  rw [heq, hrest]
  cases tokenizeFrom behind rest with
  | error err => rfl
  | ok tokens => simp [Except.map]

theorem lexes_blank (rest : List Char) (h : Text.isBlank c = true) : Lexes (c :: rest) [] rest := by
  intro position
  refine ⟨[], position + c.utf8Size, rfl, ?_⟩
  rw [tokenizeFrom, if_pos h]
  cases tokenizeFrom (position + c.utf8Size) rest <;> rfl

theorem lexes_space (rest : List Char) : Lexes (' ' :: rest) [] rest :=
  lexes_blank rest (by decide)

theorem lexes_blanks {blanks : List Char} (h : blanks.all Text.isBlank = true)
    (rest : List Char) : Lexes (blanks ++ rest) [] rest := by
  induction blanks with
  | nil =>
      intro position
      refine ⟨[], position, rfl, ?_⟩
      rw [List.nil_append]
      cases tokenizeFrom position rest <;> rfl
  | cons c more ih =>
      rw [List.all_cons, Bool.and_eq_true] at h
      exact (lexes_blank (more ++ rest) h.1).trans (ih h.2)

theorem lexes_front (hblank : Text.isBlank c = false)
    (hfront : ∀ position, front position c (lexeme ++ rest) = .ok (kind, c :: lexeme)) :
    Lexes (c :: (lexeme ++ rest)) [kind] rest := by
  intro position
  refine ⟨[⟨kind, position⟩], position + byteWidth (c :: lexeme), rfl, ?_⟩
  rw [tokenizeFrom, if_neg (by rw [hblank]; decide), hfront]
  have hdrop : (lexeme ++ rest).drop ((c :: lexeme).length - 1) = rest := by
    simp
  simp only [bind, Except.bind, hdrop]
  cases tokenizeFrom (position + byteWidth (c :: lexeme)) rest <;> rfl

/-- The characters of expressions that stand for themselves. -/
theorem lexes_symbol (rest : List Char) (h : Kind.ofSymbol? c = some kind)
    (hblank : Text.isBlank c = false) (hdigit : (isDigit c || c == '.') = false)
    (hname : isNameStart c = false) : Lexes (c :: rest) [kind] rest := by
  have hfront : ∀ position, front position c ([] ++ rest) = .ok (kind, [c]) := by
    intro position
    rw [front_of_symbol hdigit hname, h]
  exact lexes_front hblank hfront

theorem lexes_leftParen (rest : List Char) : Lexes ('(' :: rest) [.leftParen] rest :=
  lexes_symbol rest rfl (by decide) (by decide) (by decide)

theorem lexes_rightParen (rest : List Char) : Lexes (')' :: rest) [.rightParen] rest :=
  lexes_symbol rest rfl (by decide) (by decide) (by decide)

theorem Lexes.parens (h : Lexes cs kinds (')' :: rest)) :
    Lexes ('(' :: cs) (.leftParen :: (kinds ++ [.rightParen])) rest :=
  (lexes_leftParen cs).trans (h.trans (lexes_rightParen rest))

theorem lexes_operator (op : Operation) (rest : List Char) :
    Lexes (op.symbol :: rest) [.operator op] rest := by
  cases op <;> exact lexes_symbol rest rfl (by decide) (by decide) (by decide)

end Lexes

section Names

/-- The names that are read as a single token. -/
def IsName (name : String) : Prop :=
  ∃ c rest, name.toList = c :: rest ∧ isNameStart c = true ∧ rest.all isNameChar = true

theorem isBlank_of_isNameStart {c : Char} (h : isNameStart c = true) : Text.isBlank c = false := by
  rw [Bool.eq_false_iff]
  intro hblank
  rcases Bool.or_eq_true_iff.1 h with hletter | hunderscore
  · rw [Text.isLetter_of_isBlank hblank] at hletter
    cases hletter
  · rw [beq_iff_eq.1 hunderscore] at hblank
    revert hblank
    decide

theorem isBlank_of_isNameChar {c : Char} (h : isNameChar c = true) :
    Text.isBlank c = false := by
  have hblanks : ∀ n ∈ Text.codePoints Text.whiteSpace.ranges,
      Text.covers Text.numeric.ranges n = false := by
    decide +kernel
  rw [Bool.eq_false_iff]
  intro hblank
  have hletter : Text.alphabetic.contains c = false := Text.isLetter_of_isBlank hblank
  have hnumeral : Text.numeric.contains c = false := hblanks c.toNat (Text.mem_codePoints hblank)
  rcases Bool.or_eq_true_iff.1 h with hletters | hunderscore
  · rw [Text.isLetterOrNumeral, hletter, hnumeral] at hletters
    cases hletters
  · rw [beq_iff_eq.1 hunderscore] at hblank
    revert hblank
    decide

theorem not_digit_of_isNameStart {c : Char} (h : isNameStart c = true) :
    (isDigit c || c == '.') = false := by
  rcases Bool.or_eq_true_iff.1 h with hletter | hunderscore
  · have hlarge := Text.le_toNat_of_isLetter hletter
    have hdigit : isDigit c = false := by
      rw [Bool.eq_false_iff]
      intro hdigit
      have hnine : c ≤ '9' := decide_eq_true_iff.1 (Bool.and_eq_true_iff.1 hdigit).2
      have hsmall : c.toNat ≤ 0x39 := UInt32.le_iff_toNat_le.1 hnine
      omega
    have hpoint : c ≠ '.' := by
      rintro rfl
      revert hlarge
      decide
    simp [hdigit, hpoint]
  · rw [beq_iff_eq.1 hunderscore]
    decide

theorem not_nameChar_of_ends {c : Char} (h : c = ' ' ∨ c = '(' ∨ c = ')') :
    isNameChar c = false := by
  rcases h with rfl | rfl | rfl <;> decide

/-- A name ends where a character stands that does not go on with it. -/
theorem front_name {c : Char} {more rest : List Char} (hstart : isNameStart c = true)
    (hmore : more.all isNameChar = true) (hrest : ∀ d ∈ rest.head?, isNameChar d = false)
    (position : Nat) :
    front position c (more ++ rest) = .ok (.name (String.ofList (c :: more)), c :: more) := by
  have htake : (more ++ rest).takeWhile isNameChar = more := takeWhile_append_stop hmore hrest
  rw [front_of_name (not_digit_of_isNameStart hstart) hstart, htake]

theorem lexes_name {name : String} {rest : List Char} (hname : IsName name) (hrest : Ends rest) :
    Lexes (name.toList ++ rest) [.name name] rest := by
  obtain ⟨c, more, hchars, hstart, hmore⟩ := hname
  have hback : String.ofList (c :: more) = name := by
    rw [← hchars, String.ofList_toList]
  rw [hchars, List.cons_append]
  refine lexes_front (isBlank_of_isNameStart hstart) ?_
  intro position
  rw [front_name hstart hmore fun d hd => not_nameChar_of_ends (hrest d hd), hback]

end Names

section Numbers

/-- The digits of a natural number. -/
def digits (n : Nat) : List Char := Nat.toDigits 10 n

theorem all_isDigit_digits (n : Nat) : (digits n).all isDigit = true :=
  List.all_eq_true.2 fun _ => isDigit_of_mem_toDigits

theorem isBlank_of_isDigit {c : Char} (h : isDigit c = true) : Text.isBlank c = false := by
  have hblanks : ∀ n ∈ Text.codePoints Text.whiteSpace.ranges, n < 0x30 ∨ 0x39 < n := by
    decide +kernel
  obtain ⟨hlow, hhigh⟩ := Bool.and_eq_true_iff.1 h
  have hlow : 0x30 ≤ c.toNat := UInt32.le_iff_toNat_le.1 (decide_eq_true_iff.1 hlow)
  have hhigh : c.toNat ≤ 0x39 := UInt32.le_iff_toNat_le.1 (decide_eq_true_iff.1 hhigh)
  rw [Bool.eq_false_iff]
  intro hblank
  have houtside := hblanks c.toNat (Text.mem_codePoints hblank)
  omega

theorem ends_of_isBlank {c : Char} (h : Text.isBlank c = true) (rest : List Char) :
    Numeral.Ends (c :: rest) := by
  intro d hd
  obtain rfl := Option.some.inj hd
  constructor
  · rw [Bool.eq_false_iff]
    intro hdigit
    rw [isBlank_of_isDigit hdigit] at h
    cases h
  · intro hmem
    simp only [List.mem_cons, List.not_mem_nil, or_false] at hmem
    rcases hmem with rfl | rfl | rfl | rfl | rfl <;> revert h <;> decide

theorem isBlank_of_isDigit_or_point {c : Char} (h : (isDigit c || c == '.') = true) :
    Text.isBlank c = false := by
  rcases Bool.or_eq_true_iff.1 h with hdigit | hpoint
  · exact isBlank_of_isDigit hdigit
  · rw [beq_iff_eq.1 hpoint]
    decide

/-- A numeral is read up to a text that does not go on with it. -/
theorem lexes_numeral {cs rest : List Char} {numeral : Numeral} {v : Value}
    (hscan : Numeral.scan cs = (numeral, [])) (hvalue : Value.ofNumeral? false numeral = some v)
    (hrest : Numeral.Ends rest) : Lexes (cs ++ rest) [.number v] rest := by
  have hdigits : (Numeral.scan cs).1.hasDigits = true := by
    rw [hscan]
    exact hasDigits_of_ofNumeral? hvalue
  obtain ⟨c, more, hchars, hfirst⟩ := Numeral.exists_chars_scan hdigits
  have hall := Numeral.chars_scan cs
  rw [hscan] at hchars hall
  obtain rfl : c :: more = cs := by rwa [List.append_nil, hchars] at hall
  refine lexes_front (isBlank_of_isDigit_or_point hfirst) ?_
  intro position
  have hwhole : (Numeral.scan (c :: (more ++ rest))).1 = numeral := by
    rw [← List.cons_append, Numeral.scan_append hrest, hscan]
  rw [front_of_number hfirst, hwhole, hvalue, hchars]

theorem Ends.numeral {rest : List Char} (h : Ends rest) : Numeral.Ends rest := by
  intro c hc
  rcases h c hc with rfl | rfl | rfl <;> decide

theorem scan_digits (n : Nat) : Numeral.scan (digits n) = (⟨digits n, none, none⟩, []) := by
  have htake : (digits n ++ []).takeWhile isDigit = digits n :=
    takeWhile_append_stop (all_isDigit_digits n) (by simp)
  have hdrop : (digits n ++ []).dropWhile isDigit = [] :=
    dropWhile_append_stop (all_isDigit_digits n) (by simp)
  rw [List.append_nil] at htake hdrop
  rw [Numeral.scan, htake, hdrop]
  rfl

theorem hasDigits_digits (k : Nat) : (⟨digits k, none, none⟩ : Numeral).hasDigits = true := by
  simp [Numeral.hasDigits, digits, Nat.toDigits_ne_nil]

theorem significand_digits (k : Nat) :
    (⟨digits k, none, none⟩ : Numeral).significand = k := by
  simp [Numeral.significand, digits]

theorem ofNumeral?_digits {n : Integer} (h : 0 ≤ n.val) :
    Value.ofNumeral? false ⟨digits n.val.toNat, none, none⟩ = some (.integer n) := by
  simp [Value.ofNumeral?, hasDigits_digits, significand_digits, Numeral.isWhole, max_eq_left h,
    Word.ofInt?_val]

theorem text_integer {n : Integer} (h : 0 ≤ n.val) :
    (Value.integer n).text.toList = digits n.val.toNat := by
  have htext : (Value.integer n).text = toString n.val := rfl
  obtain ⟨k, hk⟩ := Int.eq_ofNat_of_zero_le h
  rw [htext, hk]
  exact Nat.toList_repr

theorem lexes_integer {n : Integer} {rest : List Char} (h : 0 ≤ n.val) (hrest : Ends rest) :
    Lexes ((Value.integer n).text.toList ++ rest) [.number (.integer n)] rest := by
  rw [text_integer h]
  exact lexes_numeral (scan_digits n.val.toNat) (ofNumeral?_digits h) hrest.numeral

end Numbers

end Abacus.Token
