import Abacus.Proofs.Number.Overflow
import Abacus.Proofs.Token.Lexeme

/-!
# The tokens of a text make up the text

A text that is cut into tokens is their characters one behind the other, with blanks in between.
Where cutting stops, what has been cut so far is a text of its own that is cut into tokens.
-/

namespace Abacus.Token

variable {c : Char} {more between behind rest cs : List Char} {kind : Kind} {position : Nat}

/-! ## A token does not depend on what follows it -/

section Front

/-- Only the number or the name at the front of a text decides on the token there. -/
theorem front_congr
    (hnumber : (isDigit c || c == '.') = true →
      (Numeral.scan (c :: cs)).1 = (Numeral.scan (c :: rest)).1)
    (hname : isNameStart c = true → cs.takeWhile isNameChar = rest.takeWhile isNameChar) :
    front position c cs = front position c rest := by
  unfold front
  split_ifs with hdigit hstart
  · rw [hnumber hdigit]
  · rw [hname hstart]
  · rfl

theorem chars_of_front (h : front position c rest = .ok (kind, cs))
    (hdigit : (isDigit c || c == '.') = true) : (Numeral.scan (c :: rest)).1.chars = cs := by
  rw [front_of_number hdigit] at h
  split at h
  · cases h
    rfl
  · cases h

theorem takeWhile_of_front (h : front position c rest = .ok (kind, c :: more))
    (hstart : isNameStart c = true) : rest.takeWhile isNameChar = more := by
  rw [front_of_name (not_digit_of_isNameStart hstart) hstart] at h
  cases h
  rfl

theorem takeWhile_left {p : Char → Bool} (h : (more ++ between ++ rest).takeWhile p = more) :
    (more ++ between).takeWhile p = more := by
  have hall : ∀ c ∈ more, p c = true := List.all_eq_true.1 (h ▸ List.all_takeWhile)
  rw [List.append_assoc, List.takeWhile_append_of_pos hall, List.append_right_eq_self] at h
  rw [List.takeWhile_append_of_pos hall, List.append_right_eq_self]
  cases between with
  | nil => rfl
  | cons d others =>
      rw [List.cons_append, List.takeWhile_cons] at h
      rw [List.takeWhile_cons]
      split_ifs at h ⊢
      rfl

/-- What stands at the end of a text, behind a token, can be left out. -/
theorem front_left (h : front position c (more ++ between ++ rest) = .ok (kind, c :: more)) :
    front position c (more ++ between) = .ok (kind, c :: more) := by
  rw [← h]
  refine front_congr ?_ ?_
  · intro hdigit
    have hchars := chars_of_front h hdigit
    have hscanned := Numeral.isScanned_scan (c :: (more ++ between ++ rest))
    have hstops := Numeral.stops_scan (c :: (more ++ between ++ rest))
    have hall := Numeral.chars_scan (c :: (more ++ between ++ rest))
    generalize Numeral.scan (c :: (more ++ between ++ rest)) = result at *
    rw [hchars, List.append_assoc, List.cons_append, List.cons.injEq,
      List.append_cancel_left_eq] at hall
    rw [hall.2] at hstops
    rw [← List.cons_append, ← hchars, Numeral.scan_chars_append hscanned hstops.left]
  · intro hstart
    have hlexeme := takeWhile_of_front h hstart
    rw [hlexeme]
    exact takeWhile_left hlexeme

theorem tokenize_alone (hblank : Text.isBlank c = false)
    (h : front position c (more ++ behind) = .ok (kind, c :: more)) :
    tokenize (String.ofList (c :: more)) = .ok [⟨kind, 0⟩] := by
  have halone : front position c (more ++ [] ++ behind) = .ok (kind, c :: more) := by
    rwa [List.append_nil]
  have hfront := front_eq_ok_of_position (front_left halone) 0
  have hcut := (Cut.token hblank hfront (.nil _)).tokenize_ofList
  rwa [List.append_nil] at hcut

end Front

/-! ## The pieces of a text -/

section Pieces

theorem byteWidth_eq (cs : List Char) : byteWidth cs = (String.ofList cs).utf8ByteSize := by
  induction cs with
  | nil => rfl
  | cons c rest ih =>
      rw [byteWidth, ih, String.ofList_cons, String.utf8ByteSize_append,
        String.utf8ByteSize_singleton]

/-- The characters of a token and the blanks in front of it. -/
structure Piece where
  blanks : List Char
  lexeme : List Char
  kind : Kind

namespace Piece

def chars (p : Piece) : List Char := p.blanks ++ p.lexeme

structure IsToken (p : Piece) : Prop where
  blanks : p.blanks.all Text.isBlank = true
  lexeme_ne_nil : p.lexeme ≠ []
  alone : tokenize (String.ofList p.lexeme) = .ok [⟨p.kind, 0⟩]

/-- The tokens of pieces that stand one behind the other. -/
def tokens (position : Nat) : List Piece → List Token
  | [] => []
  | p :: pieces =>
    ⟨p.kind, position + byteWidth p.blanks⟩ :: tokens (position + byteWidth p.chars) pieces

@[simp] theorem length_tokens (position : Nat) (pieces : List Piece) :
    (tokens position pieces).length = pieces.length := by
  induction pieces generalizing position with
  | nil => rfl
  | cons p pieces ih => rw [tokens, List.length_cons, ih, List.length_cons]

theorem tokens_place (position : Nat) (before after : List Piece) (p : Piece) :
    (tokens position (before ++ p :: after))[before.length]? =
      some ⟨p.kind, position + byteWidth (before.flatMap chars ++ p.blanks)⟩ := by
  induction before generalizing position with
  | nil => simp [tokens]
  | cons first before ih =>
      rw [List.cons_append, tokens, List.length_cons, List.getElem?_cons_succ, ih]
      simp [Nat.add_assoc]

end Piece

/-- A text that is cut into tokens is made up of pieces, with blanks at its end. -/
theorem Cut.exists_pieces {tokens : List Token} (h : Cut position cs tokens) :
    ∃ pieces last, cs = pieces.flatMap Piece.chars ++ last ∧ last.all Text.isBlank = true ∧
      (∀ p ∈ pieces, p.IsToken) ∧ tokens = Piece.tokens position pieces := by
  induction h with
  | nil position => exact ⟨[], [], rfl, rfl, by simp, rfl⟩
  | @blank position c rest tokens hblank _ ih =>
      obtain ⟨pieces, last, rfl, hlast, hpieces, rfl⟩ := ih
      -- the blank belongs to the first token, or to the end where there is none
      cases pieces with
      | nil => exact ⟨[], c :: last, rfl, by simp [hblank, hlast], hpieces, rfl⟩
      | cons p pieces =>
          obtain ⟨hp, hpieces⟩ := List.forall_mem_cons.1 hpieces
          refine ⟨⟨c :: p.blanks, p.lexeme, p.kind⟩ :: pieces, last, rfl, hlast, ?_, ?_⟩
          · refine List.forall_mem_cons.2 ⟨⟨?_, hp.lexeme_ne_nil, hp.alone⟩, hpieces⟩
            simp [hblank, hp.blanks]
          · simp [Piece.tokens, Piece.chars, byteWidth, Nat.add_assoc]
  | @token position c more behind kind tokens hblank hfront _ ih =>
      obtain ⟨pieces, last, rfl, hlast, hpieces, rfl⟩ := ih
      refine ⟨⟨[], c :: more, kind⟩ :: pieces, last, ?_, hlast, ?_, rfl⟩
      · simp [Piece.chars]
      · exact List.forall_mem_cons.2
          ⟨⟨rfl, List.cons_ne_nil _ _, tokenize_alone hblank hfront⟩, hpieces⟩

end Pieces

/-! ## Where cutting stops -/

section Faults

variable {err : SyntaxError}

/-- What cannot be cut stands at a character that is no blank, and the text in front of it is cut
into tokens. -/
theorem exists_fault (h : tokenizeFrom position cs = .error err) :
    ∃ before c rest tokens, cs = before ++ c :: rest ∧ Text.isBlank c = false ∧
      front (position + byteWidth before) c rest = .error err ∧ Cut position before tokens := by
  induction position, cs using tokenizeFrom.induct with
  | case1 position =>
      rw [tokenizeFrom] at h
      cases h
  | case2 position d rest hblank ih =>
      rw [tokenizeFrom, if_pos hblank] at h
      obtain ⟨before, c, behind, tokens, rfl, hc, hfront, hcut⟩ := ih h
      rw [Nat.add_assoc] at hfront
      exact ⟨d :: before, c, behind, tokens, rfl, hc, hfront, .blank hblank hcut⟩
  | case3 position d rest hblank ih =>
      rw [tokenizeFrom, if_neg hblank] at h
      rw [Bool.not_eq_true] at hblank
      rcases bind_eq_error.1 h with hfirst | ⟨⟨kind, lexeme⟩, hfirst, h⟩
      · exact ⟨[], d, rest, [], rfl, hblank, hfirst, .nil _⟩
      · obtain ⟨more, others, rfl, rfl⟩ := exists_lexeme hfirst
        rcases bind_eq_error.1 h with htail | ⟨tokens, -, h⟩
        · have hdrop := ih (d :: more)
          simp only [List.length_cons, Nat.add_sub_cancel, List.drop_left] at hdrop htail
          obtain ⟨before, c, behind, tokens, rfl, hc, hfront, hcut⟩ := hdrop htail
          rw [Nat.add_assoc, ← byteWidth_append] at hfront
          rw [← List.append_assoc] at hfirst
          exact ⟨d :: more ++ before, c, behind, _, by simp, hc, hfront,
            .token hblank (front_left hfirst) hcut⟩
        · cases h

/-- The characters that are tokens by themselves. -/
def symbols : List Char := ['+', '-', '*', '/', '%', '^', '(', ')', '=']

theorem notMem_symbols (h : Kind.ofSymbol? c = none) : c ∉ symbols := by
  have hsome : (symbols.all fun d => (Kind.ofSymbol? d).isSome) = true := rfl
  intro hmem
  have hc := List.all_eq_true.1 hsome c hmem
  rw [h] at hc
  cases hc

/-- A numeral that has no value has no digits, or it denotes a number that is too great for a
finite double. -/
theorem unreadable_cases {n : Numeral} (h : Value.ofNumeral? false n = none) :
    n.hasDigits = false ∨ n.toFloat.isFinite = false ∧
      Binary64.overflowBound ≤ (⟨n.significand, n.lastExponent⟩ : Decimal).toRat := by
  cases hdigits : n.hasDigits with
  | false => exact Or.inl rfl
  | true =>
      have hinfinite : n.toFloat.isFinite = false := by
        rw [Bool.eq_false_iff]
        intro hfinite
        unfold Value.ofNumeral? at h
        rw [if_pos hdigits] at h
        dsimp only at h
        rw [if_pos hfinite] at h
        split at h <;> cases h
      refine Or.inr ⟨hinfinite, ?_⟩
      by_contra hlt
      have hfinite : n.toFloat.isFinite = true := Binary64.isFinite_ofDecimal (not_le.1 hlt)
      rw [hinfinite] at hfinite
      cases hfinite

end Faults

/-! ## Every text -/

section Texts

/-- A text that is cut into tokens: pieces one behind the other, with blanks at the end. -/
structure IsPartition (text : String) (tokens : List Token) (pieces : List Piece)
    (last : List Char) : Prop where
  chars : text.toList = pieces.flatMap Piece.chars ++ last
  isToken : ∀ p ∈ pieces, p.IsToken
  last : last.all Text.isBlank = true
  length : tokens.length = pieces.length
  place : ∀ before p after, pieces = before ++ p :: after →
    tokens[before.length]? =
      some ⟨p.kind, (String.ofList (before.flatMap Piece.chars ++ p.blanks)).utf8ByteSize⟩
  increasing : tokens.Pairwise (fun first second => first.position < second.position)
  boundary : ∀ token ∈ tokens, (String.Pos.Raw.mk token.position).IsValid text

/-- A character with which no token begins, behind a text that is cut into tokens. -/
structure IsStray (text : String) (c : Char) (position : Nat) (before after : List Char) :
    Prop where
  chars : text.toList = before ++ c :: after
  position : position = (String.ofList before).utf8ByteSize
  not_blank : Text.isBlank c = false
  not_number : isDigit c = false ∧ c ≠ '.'
  not_name : Text.isLetter c = false ∧ c ≠ '_'
  not_symbol : c ∉ symbols
  before : ∃ tokens, tokenize (String.ofList before) = .ok tokens

/-- A numeral inside a text that has no digits in front of its exponent, or that denotes a number
too great for a finite double. -/
structure IsUnreadable (text literal : String) (numeral : Numeral) (before after : List Char) :
    Prop where
  chars : text.toList = before ++ literal.toList ++ after
  scanned : Numeral.scan literal.toList = (numeral, [])
  cause : numeral.hasDigits = false ∨ numeral.toFloat.isFinite = false ∧
    Binary64.overflowBound ≤ (⟨numeral.significand, numeral.lastExponent⟩ : Decimal).toRat

variable {text : String}

theorem exists_isPartition {tokens : List Token} (h : tokenize text = .ok tokens) :
    ∃ pieces last, IsPartition text tokens pieces last := by
  have hcut := cut_of_tokenize h
  obtain ⟨pieces, last, hchars, hlast, hpieces, htokens⟩ := hcut.exists_pieces
  refine ⟨pieces, last, hchars, hpieces, hlast, ?_, ?_, hcut.positions.1, ?_⟩
  · rw [htokens, Piece.length_tokens]
  · rintro before p after rfl
    rw [htokens, Piece.tokens_place, Nat.zero_add, byteWidth_eq]
  · intro token htoken
    obtain ⟨skipped, c, more, behind, hplace, hposition, -⟩ := hcut.exists_place htoken
    rw [Nat.zero_add, byteWidth_eq] at hposition
    refine String.Pos.Raw.isValid_iff_exists_append.2
      ⟨String.ofList skipped, String.ofList (c :: (more ++ behind)), ?_, ?_⟩
    · rw [← String.ofList_append, ← hplace, String.ofList_toList]
    · rw [hposition]
      rfl

/-- A text that is cut into tokens is made up of them and of blanks. Otherwise a character is
reported with which no token begins, or a numeral that has no value. -/
theorem tokenize_partitions (text : String) :
    match tokenize text with
    | .ok tokens => ∃ pieces last, IsPartition text tokens pieces last
    | .error (.unexpectedChar c position) => ∃ before after, IsStray text c position before after
    | .error (.invalidNumber literal) =>
      ∃ numeral before after, IsUnreadable text literal numeral before after
    | .error _ => False := by
  cases h : tokenize text with
  | ok tokens => exact exists_isPartition h
  | error err =>
      obtain ⟨before, c, rest, tokens, hchars, hblank, hfront, hcut⟩ := exists_fault h
      rcases front_fault_cases hfront with ⟨-, hnone, rfl⟩ | ⟨hdigit, hname, hsymbol, rfl⟩
      · have hscanned := Numeral.isScanned_scan (c :: rest)
        have hall := Numeral.chars_scan (c :: rest)
        refine ⟨(Numeral.scan (c :: rest)).1, before, (Numeral.scan (c :: rest)).2, ?_, ?_,
          unreadable_cases hnone⟩
        · rw [String.toList_ofList, List.append_assoc, hall, hchars]
        · rw [String.toList_ofList, Numeral.scan_chars hscanned]
      · rw [Bool.or_eq_false_iff] at hdigit
        rw [isNameStart, Bool.or_eq_false_iff] at hname
        exact ⟨before, rest, hchars, by rw [Nat.zero_add, byteWidth_eq], hblank,
          ⟨hdigit.1, by simpa using hdigit.2⟩, ⟨hname.1, by simpa using hname.2⟩,
          notMem_symbols hsymbol, tokens, hcut.tokenize_ofList⟩

end Texts

end Abacus.Token
