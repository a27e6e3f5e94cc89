import Mathlib.Tactic.SplitIfs
import Abacus.Proofs.Except
import Abacus.Proofs.Decimal.Numeral
import Abacus.Proofs.Text.Classes
import Abacus.Token.Lexer

/-!
# How a text is cut into tokens

Cutting a text as a relation: blanks are skipped, and each token takes a front of the text that is
not empty. An equals sign is always a token of its own, tokens start one behind the other, and where
a text starts does not matter to the kinds of its tokens.
-/

namespace Abacus.Token

variable {c : Char} {rest lexeme : List Char} {kind : Kind} {position : Nat}

/-! ## The token at the front -/

theorem front_of_number (hnumber : (isDigit c || c == '.') = true) :
    front position c rest =
      match Value.ofNumeral? false (Numeral.scan (c :: rest)).1 with
      | some v => .ok (.number v, (Numeral.scan (c :: rest)).1.chars)
      | none => .error (.invalidNumber (String.ofList (Numeral.scan (c :: rest)).1.chars)) :=
  if_pos hnumber

theorem front_of_name (hnumber : (isDigit c || c == '.') = false) (hname : isNameStart c = true) :
    front position c rest =
      .ok (.name (String.ofList (c :: rest.takeWhile isNameChar)),
        c :: rest.takeWhile isNameChar) :=
  (if_neg (Bool.eq_false_iff.1 hnumber)).trans (if_pos hname)

theorem front_of_symbol (hnumber : (isDigit c || c == '.') = false) (hname : isNameStart c = false) :
    front position c rest =
      match Kind.ofSymbol? c with
      | some kind => .ok (kind, [c])
      | none => .error (.unexpectedChar c position) :=
  (if_neg (Bool.eq_false_iff.1 hnumber)).trans (if_neg (Bool.eq_false_iff.1 hname))

/-- The token at the front of a text is a number, a name or a symbol. -/
theorem front_cases (h : front position c rest = .ok (kind, lexeme)) :
    ((isDigit c || c == '.') = true ∧ lexeme = (Numeral.scan (c :: rest)).1.chars ∧
        ∃ v, Value.ofNumeral? false (Numeral.scan (c :: rest)).1 = some v ∧ kind = .number v) ∨
      ((isDigit c || c == '.') = false ∧ isNameStart c = true ∧
        lexeme = c :: rest.takeWhile isNameChar ∧ kind = .name (String.ofList lexeme)) ∨
      ((isDigit c || c == '.') = false ∧ isNameStart c = false ∧ lexeme = [c] ∧
        Kind.ofSymbol? c = some kind) := by
  cases hnumber : isDigit c || c == '.' with
  | true =>
      rw [front_of_number hnumber] at h
      split at h
      · next v hvalue =>
          cases h
          exact Or.inl ⟨rfl, rfl, v, hvalue, rfl⟩
      · cases h
  | false =>
      cases hname : isNameStart c with
      | true =>
          rw [front_of_name hnumber hname] at h
          cases h
          exact Or.inr (Or.inl ⟨rfl, rfl, rfl, rfl⟩)
      | false =>
          rw [front_of_symbol hnumber hname] at h
          split at h
          · next found hsymbol =>
              cases h
              exact Or.inr (Or.inr ⟨rfl, rfl, rfl, hsymbol⟩)
          · cases h

/-- No token stands at the front of a text where a number has no value, or where no token begins. -/
theorem front_fault_cases {err : SyntaxError} (h : front position c rest = .error err) :
    ((isDigit c || c == '.') = true ∧ Value.ofNumeral? false (Numeral.scan (c :: rest)).1 = none ∧
        err = .invalidNumber (String.ofList (Numeral.scan (c :: rest)).1.chars)) ∨
      ((isDigit c || c == '.') = false ∧ isNameStart c = false ∧ Kind.ofSymbol? c = none ∧
        err = .unexpectedChar c position) := by
  cases hnumber : isDigit c || c == '.' with
  | true =>
      rw [front_of_number hnumber] at h
      split at h
      · cases h
      · next hvalue =>
          cases h
          exact Or.inl ⟨rfl, hvalue, rfl⟩
  | false =>
      cases hname : isNameStart c with
      | true =>
          rw [front_of_name hnumber hname] at h
          cases h
      | false =>
          rw [front_of_symbol hnumber hname] at h
          split at h
          · cases h
          · next hsymbol =>
              cases h
              exact Or.inr ⟨rfl, rfl, hsymbol, rfl⟩

theorem hasDigits_of_ofNumeral? {negative : Bool} {n : Numeral} {v : Value}
    (h : Value.ofNumeral? negative n = some v) : n.hasDigits = true := by
  cases hdigits : n.hasDigits with
  | true => rfl
  | false =>
      unfold Value.ofNumeral? at h
      rw [hdigits] at h
      cases h

/-- A token takes its first character and a front of what follows. -/
theorem exists_lexeme (h : front position c rest = .ok (kind, lexeme)) :
    ∃ more behind, lexeme = c :: more ∧ rest = more ++ behind := by
  rcases front_cases h with ⟨-, hlexeme, v, hvalue, -⟩ | ⟨-, -, hlexeme, -⟩ | ⟨-, -, hlexeme, -⟩
  · obtain ⟨d, more, hchars, -⟩ := Numeral.exists_chars_scan (hasDigits_of_ofNumeral? hvalue)
    have hall := Numeral.chars_scan (c :: rest)
    rw [hchars, List.cons_append, List.cons.injEq] at hall
    obtain ⟨rfl, hmore⟩ := hall
    exact ⟨more, _, hlexeme.trans hchars, hmore.symm⟩
  · exact ⟨_, _, hlexeme, List.takeWhile_append_dropWhile.symm⟩
  · exact ⟨[], rest, hlexeme, rfl⟩

/-- The position of a token is only looked at where there is none. -/
theorem front_eq_ok_of_position (h : front position c rest = .ok (kind, lexeme)) (other : Nat) :
    front other c rest = .ok (kind, lexeme) := by
  rcases front_cases h with
    ⟨hnumber, rfl, v, hvalue, rfl⟩ | ⟨hnumber, hname, rfl, rfl⟩ | ⟨hnumber, hname, rfl, hsymbol⟩
  · rw [front_of_number hnumber, hvalue]
  · rw [front_of_name hnumber hname]
  · rw [front_of_symbol hnumber hname, hsymbol]

theorem equals_notMem_of_all {p : Char → Bool} {cs : List Char} (hp : p '=' = false)
    (h : cs.all p = true) : '=' ∉ cs := by
  intro hmem
  have hequals := List.all_eq_true.1 h '=' hmem
  rw [hp] at hequals
  cases hequals

theorem equals_notMem_takeWhile {p : Char → Bool} (hp : p '=' = false) (cs : List Char) :
    '=' ∉ cs.takeWhile p :=
  equals_notMem_of_all hp List.all_takeWhile

theorem equals_notMem_scan? {cs : List Char} {e : ExponentPart}
    (h : ExponentPart.scan? cs = some (e, rest)) : '=' ∉ e.chars := by
  cases cs with
  | nil => cases h
  | cons mark cs =>
      rw [ExponentPart.scan?_cons] at h
      split_ifs at h with hmark hdigits
      cases h
      have hsign : '=' ∉ (ExponentPart.splitSign cs).1.toList := by
        rw [ExponentPart.splitSign.eq_def]
        split <;> simp
      have hdigits := equals_notMem_takeWhile (p := isDigit) rfl (ExponentPart.splitSign cs).2
      rcases hmark with rfl | rfl <;> simp [ExponentPart.chars, hsign, hdigits]

theorem equals_notMem_scan (cs : List Char) : '=' ∉ (Numeral.scan cs).1.chars := by
  have hwhole := equals_notMem_takeWhile (p := isDigit) rfl cs
  have hfraction : '=' ∉ ((Numeral.splitFraction (cs.dropWhile isDigit)).1.elim [] ('.' :: ·)) := by
    rw [Numeral.splitFraction.eq_def]
    split
    · next more _ => simp [equals_notMem_takeWhile (p := isDigit) rfl more]
    · simp
  rw [Numeral.scan_eq]
  cases hexponent :
      ExponentPart.scan? (Numeral.splitFraction (cs.dropWhile isDigit)).2 with
  | none => simp [Numeral.chars, hwhole, hfraction, hexponent]
  | some result =>
      obtain ⟨e, behind⟩ := result
      simp [Numeral.chars, hwhole, hfraction, hexponent, equals_notMem_scan? hexponent]

theorem kind_eq_equals (h : front position c rest = .ok (kind, lexeme)) (hmem : '=' ∈ lexeme) :
    kind = .equals := by
  rcases front_cases h with ⟨-, rfl, -⟩ | ⟨-, hname, rfl, -⟩ | ⟨-, -, rfl, hsymbol⟩
  · exact absurd hmem (equals_notMem_scan _)
  · rcases List.mem_cons.1 hmem with rfl | hmem
    · exact absurd hname (by decide)
    · exact absurd hmem (equals_notMem_takeWhile (by decide) rest)
  · obtain rfl := List.mem_singleton.1 hmem
    cases hsymbol
    rfl

/-! ## The whole text -/

/-- `Cut position cs tokens`: the text `cs`, which starts at `position`, is cut into `tokens`. -/
inductive Cut : Nat → List Char → List Token → Prop where
  | nil (position : Nat) : Cut position [] []
  | blank {position : Nat} {c : Char} {rest : List Char} {tokens : List Token} :
      Text.isBlank c = true → Cut (position + c.utf8Size) rest tokens →
      Cut position (c :: rest) tokens
  | token {position : Nat} {c : Char} {more behind : List Char} {kind : Kind}
      {tokens : List Token} :
      Text.isBlank c = false → front position c (more ++ behind) = .ok (kind, c :: more) →
      Cut (position + byteWidth (c :: more)) behind tokens →
      Cut position (c :: (more ++ behind)) (⟨kind, position⟩ :: tokens)

theorem cut_of_tokenizeFrom {cs : List Char} {tokens : List Token}
    (h : tokenizeFrom position cs = .ok tokens) : Cut position cs tokens := by
  induction position, cs using tokenizeFrom.induct generalizing tokens with
  | case1 position =>
      rw [tokenizeFrom] at h
      cases h
      exact .nil position
  | case2 position c rest hblank ih =>
      rw [tokenizeFrom, if_pos hblank] at h
      exact .blank hblank (ih h)
  | case3 position c rest hblank ih =>
      rw [tokenizeFrom, if_neg hblank] at h
      obtain ⟨⟨kind, lexeme⟩, hfront, h⟩ := bind_eq_ok.1 h
      obtain ⟨tail, htail, h⟩ := bind_eq_ok.1 h
      cases h
      obtain ⟨more, behind, rfl, rfl⟩ := exists_lexeme hfront
      have hcut := ih (c :: more) htail
      simp only [List.length_cons, Nat.add_sub_cancel, List.drop_left] at hcut
      exact .token (Bool.eq_false_iff.2 hblank) hfront hcut

namespace Cut

variable {cs : List Char} {tokens : List Token}

theorem tokenizeFrom_eq (h : Cut position cs tokens) : tokenizeFrom position cs = .ok tokens := by
  induction h with
  | nil position => rw [tokenizeFrom]
  | blank hblank _ ih =>
      rw [tokenizeFrom, if_pos hblank]
      exact ih
  | token hblank hfront _ ih =>
      rw [tokenizeFrom, if_neg (by rw [hblank]; decide), hfront]
      simp only [bind, Except.bind, List.length_cons, Nat.add_sub_cancel, List.drop_left, ih]

/-- The same text at another position is cut into tokens of the same kinds. -/
theorem exists_at (h : Cut position cs tokens) (other : Nat) :
    ∃ moved, Cut other cs moved ∧ moved.map (·.kind) = tokens.map (·.kind) := by
  induction h generalizing other with
  | nil position => exact ⟨[], .nil other, rfl⟩
  | blank hblank _ ih =>
      obtain ⟨moved, hcut, hkinds⟩ := ih (other + _)
      exact ⟨moved, .blank hblank hcut, hkinds⟩
  | @token position c more behind kind tokens hblank hfront _ ih =>
      obtain ⟨moved, hcut, hkinds⟩ := ih (other + byteWidth (c :: more))
      refine ⟨⟨kind, other⟩ :: moved, .token hblank (front_eq_ok_of_position hfront other) hcut, ?_⟩
      rw [List.map_cons, List.map_cons, hkinds]

/-- Blanks at the front of a text are no part of its tokens. -/
theorem exists_trimFront (h : Cut position cs tokens) (other : Nat) :
    ∃ moved, Cut other (Text.trimFront cs) moved ∧
      moved.map (·.kind) = tokens.map (·.kind) := by
  induction h with
  | nil position => exact ⟨[], .nil other, rfl⟩
  | @blank position c rest tokens hblank _ ih =>
      have htrim : Text.trimFront (c :: rest) = Text.trimFront rest := by
        simp [Text.trimFront, hblank]
      rw [htrim]
      exact ih
  | @token position c more behind kind tokens hblank hfront hcut _ =>
      have htrim : Text.trimFront (c :: (more ++ behind)) = c :: (more ++ behind) := by
        simp [Text.trimFront, hblank]
      rw [htrim]
      exact (Cut.token hblank hfront hcut).exists_at other

theorem equals_mem (h : Cut position cs tokens) (hmem : '=' ∈ cs) :
    .equals ∈ tokens.map (·.kind) := by
  induction h with
  | nil position => cases hmem
  | blank hblank _ ih =>
      rcases List.mem_cons.1 hmem with rfl | hmem
      · exact absurd hblank (by decide)
      · exact ih hmem
  | @token position c more behind kind tokens hblank hfront _ ih =>
      rw [← List.cons_append] at hmem
      rcases List.mem_append.1 hmem with hmem | hmem
      · rw [kind_eq_equals hfront hmem]
        exact List.mem_cons_self ..
      · exact List.mem_cons_of_mem _ (ih hmem)

end Cut

theorem byteWidth_pos (c : Char) (more : List Char) : 0 < byteWidth (c :: more) := by
  have hwidth := c.utf8Size_pos
  rw [byteWidth]
  omega

/-- Each token starts behind the one before it, and none in front of the text. -/
theorem Cut.positions {cs : List Char} {tokens : List Token} (h : Cut position cs tokens) :
    tokens.Pairwise (fun first second => first.position < second.position) ∧
      ∀ token ∈ tokens, position ≤ token.position := by
  induction h with
  | nil position => exact ⟨List.Pairwise.nil, by simp⟩
  | blank _ _ ih =>
      refine ⟨ih.1, ?_⟩
      intro token htoken
      exact Nat.le_of_add_right_le (ih.2 token htoken)
  | @token position c more behind kind tokens _ _ _ ih =>
      have hwidth := byteWidth_pos c more
      have hbehind : ∀ token ∈ tokens, position < token.position := by
        intro token htoken
        have hle := ih.2 token htoken
        omega
      refine ⟨List.pairwise_cons.2 ⟨hbehind, ih.1⟩, ?_⟩
      intro token htoken
      rcases List.mem_cons.1 htoken with rfl | htoken
      · exact Nat.le_refl _
      · exact Nat.le_of_lt (hbehind token htoken)

@[simp] theorem byteWidth_append (cs more : List Char) :
    byteWidth (cs ++ more) = byteWidth cs + byteWidth more := by
  induction cs with
  | nil => simp [byteWidth]
  | cons c rest ih => simp [byteWidth, ih, Nat.add_assoc]

/-- The position of a token is the number of bytes in front of it, and what stands there is cut off
as that token. -/
theorem Cut.exists_place {cs : List Char} {tokens : List Token} {token : Token}
    (h : Cut position cs tokens) (hmem : token ∈ tokens) :
    ∃ skipped c more behind, cs = skipped ++ c :: (more ++ behind) ∧
      token.position = position + byteWidth skipped ∧
      front token.position c (more ++ behind) = .ok (token.kind, c :: more) := by
  induction h with
  | nil position => cases hmem
  | @blank position blank rest tokens _ _ ih =>
      obtain ⟨skipped, c, more, behind, rfl, hposition, hfront⟩ := ih hmem
      exact ⟨blank :: skipped, c, more, behind, rfl, by simp [byteWidth, hposition, Nat.add_assoc],
        hfront⟩
  | @token position first others remainder kind tokens _ hfront _ ih =>
      rcases List.mem_cons.1 hmem with rfl | hmem
      · exact ⟨[], first, others, remainder, rfl, rfl, hfront⟩
      · obtain ⟨skipped, c, more, behind, rfl, hposition, hplace⟩ := ih hmem
        exact ⟨first :: (others ++ skipped), c, more, behind, by simp,
          by simp [byteWidth, hposition, Nat.add_assoc], hplace⟩

/-- No two tokens start at the same place. -/
theorem Cut.filter_position {cs : List Char} {before after : List Token} {token : Token}
    (h : Cut position cs (before ++ token :: after)) :
    (before ++ token :: after).filter (·.position = token.position) = [token] := by
  obtain ⟨-, hafter, hbefore⟩ := List.pairwise_append.1 h.positions.1
  obtain ⟨hafter, -⟩ := List.pairwise_cons.1 hafter
  have hnone : before.filter (·.position = token.position) = [] := by
    rw [List.filter_eq_nil_iff]
    intro other hother
    have hlt := hbefore other hother token (List.mem_cons_self ..)
    simp
    omega
  have hmore : after.filter (·.position = token.position) = [] := by
    rw [List.filter_eq_nil_iff]
    intro other hother
    have hlt := hafter other hother
    simp
    omega
  rw [List.filter_append, hnone, List.filter_cons_of_pos (by simp), hmore]
  rfl

theorem Cut.tokenize_ofList {cs : List Char} {tokens : List Token} (h : Cut 0 cs tokens) :
    tokenize (String.ofList cs) = .ok tokens := by
  rw [tokenize, String.toList_ofList]
  exact h.tokenizeFrom_eq

theorem cut_of_tokenize {text : String} {tokens : List Token} (h : tokenize text = .ok tokens) :
    Cut 0 text.toList tokens :=
  cut_of_tokenizeFrom h

end Abacus.Token
