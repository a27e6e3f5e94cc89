import Abacus.Proofs.Expr.Kinds
import Abacus.Proofs.Token.Partition

/-!
# Blanks between tokens

A text is cut at its blanks. Of two texts with a blank between them, the first is cut as if nothing
stood behind it, and the second as if nothing stood in front of it, at other positions. So blanks
around the tokens of an expression, and more of them between two tokens, do not change its tree.
-/

namespace Abacus

/-! ## Positions behind another text -/

/-- The token behind a text of `n` bytes. -/
def Token.moved (n : Nat) (token : Token) : Token := ⟨token.kind, n + token.position⟩

/-- The fault behind a text of `n` bytes. -/
def SyntaxError.moved (n : Nat) : SyntaxError → SyntaxError
  | .unexpectedChar c position => .unexpectedChar c (n + position)
  | .unexpectedToken token => .unexpectedToken (token.moved n)
  | fault => fault

namespace Token

variable {c w : Char} {cs ds rest more behind : List Char} {kind : Kind} {position : Nat}

/-- What cutting a text gives, behind a text of `n` bytes. -/
def allMoved (n : Nat) : Except SyntaxError (List Token) → Except SyntaxError (List Token)
  | .ok tokens => .ok (tokens.map (moved n))
  | .error fault => .error (fault.moved n)

theorem map_kind_moved (n : Nat) (tokens : List Token) :
    (tokens.map (moved n)).map (·.kind) = tokens.map (·.kind) := by
  rw [List.map_map]
  rfl

theorem front_moved {fault : SyntaxError} (h : front position c rest = .error fault) (n : Nat) :
    front (n + position) c rest = .error (fault.moved n) := by
  rcases front_fault_cases h with
    ⟨hnumber, hvalue, rfl⟩ | ⟨hnumber, hname, hsymbol, rfl⟩
  · rw [front_of_number hnumber, hvalue]
    rfl
  · rw [front_of_symbol hnumber hname, hsymbol]
    rfl

theorem tokenizeFrom_moved (n position : Nat) (cs : List Char) :
    tokenizeFrom (n + position) cs = allMoved n (tokenizeFrom position cs) := by
  induction position, cs using tokenizeFrom.induct with
  | case1 position =>
      rw [tokenizeFrom, tokenizeFrom]
      rfl
  | case2 position c rest hblank ih =>
      rw [tokenizeFrom, tokenizeFrom, if_pos hblank, if_pos hblank, Nat.add_assoc]
      exact ih
  | case3 position c rest hblank ih =>
      rw [tokenizeFrom, tokenizeFrom, if_neg hblank, if_neg hblank]
      cases hfront : front position c rest with
      | error fault =>
          rw [front_moved hfront]
          rfl
      | ok result =>
          obtain ⟨kind, lexeme⟩ := result
          rw [front_eq_ok_of_position hfront]
          simp only [bind, Except.bind, Nat.add_assoc, ih lexeme]
          cases tokenizeFrom (position + byteWidth lexeme) (rest.drop (lexeme.length - 1)) <;> rfl

/-! ## Two texts with a blank between them -/

/-- Behind a token that nothing goes on with, other characters do not change it. -/
theorem front_append (hnumber : Numeral.Ends rest)
    (hname : ∀ d ∈ rest.head?, isNameChar d = false) :
    front position c (cs ++ rest) = front position c cs := by
  apply front_congr
  · intro _
    rw [← List.cons_append, Numeral.scan_append hnumber]
  · intro _
    exact takeWhile_append_of_stop hname

theorem not_isNameChar_of_isBlank (h : Text.isBlank w = true) : isNameChar w = false := by
  rw [Bool.eq_false_iff]
  intro hname
  rw [isBlank_of_isNameChar hname] at h
  cases h

theorem front_blank (h : Text.isBlank w = true) :
    front position c (cs ++ w :: rest) = front position c cs := by
  refine front_append (ends_of_isBlank h rest) ?_
  intro d hd
  obtain rfl := Option.some.inj hd
  exact not_isNameChar_of_isBlank h

theorem tokenizeFrom_blank (h : Text.isBlank w = true) (position : Nat) (cs rest : List Char) :
    tokenizeFrom position (cs ++ w :: rest) =
      (tokenizeFrom position cs).bind fun tokens =>
        (tokenizeFrom (position + (byteWidth cs + w.utf8Size)) rest).map (tokens ++ ·) := by
  induction position, cs using tokenizeFrom.induct with
  | case1 position =>
      have hskip : tokenizeFrom position (w :: rest) =
          tokenizeFrom (position + w.utf8Size) rest := by
        rw [tokenizeFrom, if_pos h]
      rw [List.nil_append, hskip, tokenizeFrom, byteWidth, Nat.zero_add]
      cases tokenizeFrom (position + w.utf8Size) rest <;> rfl
  | case2 position c cs hblank ih =>
      rw [List.cons_append, tokenizeFrom, if_pos hblank, ih, tokenizeFrom, if_pos hblank, byteWidth]
      simp only [Nat.add_assoc]
  | case3 position c cs hblank ih =>
      rw [List.cons_append, tokenizeFrom, if_neg hblank, front_blank h, tokenizeFrom,
        if_neg hblank]
      cases hfront : front position c cs with
      | error fault => rfl
      | ok result =>
          obtain ⟨kind, lexeme⟩ := result
          obtain ⟨more, behind, rfl, rfl⟩ := exists_lexeme hfront
          have hbehind := ih (c :: more)
          simp only [List.length_cons, Nat.add_sub_cancel, List.drop_left] at hbehind
          simp only [bind, Except.bind, List.length_cons, Nat.add_sub_cancel, List.append_assoc,
            List.drop_left, hbehind, ← List.cons_append, byteWidth_append, Nat.add_assoc]
          cases tokenizeFrom (position + byteWidth (c :: more)) behind with
          | error fault => rfl
          | ok tokens =>
              cases tokenizeFrom (position + (byteWidth (c :: more) +
                (byteWidth behind + w.utf8Size))) rest <;> rfl

theorem tokenizeFrom_blanks (h : cs.all Text.isBlank = true) (position : Nat)
    (rest : List Char) :
    tokenizeFrom position (cs ++ rest) = tokenizeFrom (position + byteWidth cs) rest := by
  induction cs generalizing position with
  | nil => rfl
  | cons w cs ih =>
      rw [List.all_cons, Bool.and_eq_true] at h
      rw [List.cons_append, tokenizeFrom, if_pos h.1, ih h.2, byteWidth, Nat.add_assoc]

theorem tokenizeFrom_before_blanks (h : ds.all Text.isBlank = true) (position : Nat)
    (cs : List Char) : tokenizeFrom position (cs ++ ds) = tokenizeFrom position cs := by
  cases ds with
  | nil => rw [List.append_nil]
  | cons w rest =>
      rw [List.all_cons, Bool.and_eq_true] at h
      have hrest := fun other => tokenizeFrom_blanks h.2 other []
      simp only [List.append_nil] at hrest
      rw [tokenizeFrom_blank h.1, hrest, tokenizeFrom]
      cases tokenizeFrom position cs with
      | error fault => rfl
      | ok tokens => simp [Except.bind, Except.map]

/-- What cutting gives for two texts with a blank between them. -/
structure IsSeparated (first second : String) (w : Char) : Prop where
  fault_left : ∀ fault, tokenize first = .error fault →
    tokenize (first ++ w.toString ++ second) = .error fault
  tokens : ∀ front back, tokenize first = .ok front → tokenize second = .ok back →
    tokenize (first ++ w.toString ++ second) =
      .ok (front ++ back.map (moved (first ++ w.toString).utf8ByteSize))
  fault_right : ∀ front fault, tokenize first = .ok front → tokenize second = .error fault →
    tokenize (first ++ w.toString ++ second) =
      .error (fault.moved (first ++ w.toString).utf8ByteSize)

theorem tokenize_separated (h : Text.isBlank w = true) (first second : String) :
    tokenize (first ++ w.toString ++ second) =
      (tokenize first).bind fun front =>
        (allMoved (first ++ w.toString).utf8ByteSize (tokenize second)).map (front ++ ·) := by
  have hchars : (first ++ w.toString ++ second).toList =
      first.toList ++ w :: second.toList := by
    simp [Char.toString]
  have hwidth : (first ++ w.toString).utf8ByteSize = byteWidth first.toList + w.utf8Size := by
    rw [byteWidth_eq, String.ofList_toList, String.utf8ByteSize_append]
    simp [Char.toString]
  rw [tokenize, hchars, tokenizeFrom_blank h, hwidth, Nat.zero_add]
  have hmoved := tokenizeFrom_moved (byteWidth first.toList + w.utf8Size) 0 second.toList
  rw [Nat.add_zero] at hmoved
  rw [hmoved]
  rfl

theorem isSeparated (h : Text.isBlank w = true) (first second : String) :
    IsSeparated first second w := by
  have hall := tokenize_separated h first second
  constructor
  · intro fault hfirst
    rw [hall, hfirst]
    rfl
  · intro front back hfirst hsecond
    rw [hall, hfirst, hsecond]
    rfl
  · intro front fault hfirst hsecond
    rw [hall, hfirst, hsecond]
    rfl

theorem tokenize_around {front back : String} (hfront : Text.isBlankText front = true)
    (hback : Text.isBlankText back = true) (text : String) :
    tokenize (front ++ text ++ back) = allMoved (byteWidth front.toList) (tokenize text) := by
  have hmoved := tokenizeFrom_moved (byteWidth front.toList) 0 text.toList
  rw [tokenize, String.toList_append, String.toList_append, tokenizeFrom_before_blanks hback,
    tokenizeFrom_blanks hfront, Nat.zero_add, ← Nat.add_zero (byteWidth front.toList), hmoved]
  rfl

/-! ## More blanks -/

/-- `Widened cs ds`: the text `ds` is the text `cs` with further blanks in front of its tokens,
between them or behind them. -/
inductive Widened : List Char → List Char → Prop where
  | nil : Widened [] []
  | added {w : Char} {cs ds : List Char} :
      Text.isBlank w = true → Widened cs ds → Widened cs (w :: ds)
  | blank {w : Char} {cs ds : List Char} :
      Text.isBlank w = true → Widened cs ds → Widened (w :: cs) (w :: ds)
  | token {c : Char} {more behind ds : List Char} {kind : Kind} :
      Text.isBlank c = false → front 0 c (more ++ behind) = .ok (kind, c :: more) →
      Widened behind ds → Widened (c :: (more ++ behind)) (c :: (more ++ ds))

namespace Widened

/-- Both texts start with the same tokens, up to a blank of the wider one. -/
theorem exists_common (h : Widened cs ds) :
    ∃ common others rest, cs = common ++ others ∧ ds = common ++ rest ∧
      ∀ w ∈ rest.head?, Text.isBlank w = true := by
  induction h with
  | nil => exact ⟨[], [], [], rfl, rfl, nofun⟩
  | @added w cs ds hw _ _ =>
      refine ⟨[], cs, w :: ds, rfl, rfl, ?_⟩
      rintro _ ⟨⟩
      exact hw
  | @blank w cs ds hw _ _ =>
      refine ⟨[], w :: cs, w :: ds, rfl, rfl, ?_⟩
      rintro _ ⟨⟩
      exact hw
  | @token c more behind ds kind _ _ _ ih =>
      obtain ⟨common, others, rest, rfl, rfl, hrest⟩ := ih
      exact ⟨c :: (more ++ common), others, rest, by simp, by simp, hrest⟩

/-- A number looks ahead, but not beyond a blank, so each token of a text is one of the wider text
too. -/
theorem front_eq (h : Widened behind ds)
    (hfront : front position c (more ++ behind) = .ok (kind, c :: more)) :
    front position c (more ++ ds) = .ok (kind, c :: more) := by
  obtain ⟨common, others, rest, rfl, rfl, hrest⟩ := h.exists_common
  rw [← List.append_assoc] at hfront ⊢
  have hcommon := front_left hfront
  cases rest with
  | nil => rwa [List.append_nil]
  | cons w rest => rwa [front_blank (hrest w rfl)]

theorem exists_cuts (h : Widened cs ds) (position other : Nat) :
    ∃ tokens moved, Cut position cs tokens ∧ Cut other ds moved ∧
      moved.map (·.kind) = tokens.map (·.kind) := by
  induction h generalizing position other with
  | nil => exact ⟨[], [], .nil position, .nil other, rfl⟩
  | added hw _ ih =>
      obtain ⟨tokens, moved, hcut, hmoved, hkinds⟩ := ih position (other + _)
      exact ⟨tokens, moved, hcut, .blank hw hmoved, hkinds⟩
  | blank hw _ ih =>
      obtain ⟨tokens, moved, hcut, hmoved, hkinds⟩ := ih (position + _) (other + _)
      exact ⟨tokens, moved, .blank hw hcut, .blank hw hmoved, hkinds⟩
  | token hblank hfront hbehind ih =>
      obtain ⟨tokens, moved, hcut, hmoved, hkinds⟩ := ih (position + _) (other + _)
      refine ⟨_, _, .token hblank (front_eq_ok_of_position hfront position) hcut,
        .token hblank (front_eq_ok_of_position (hbehind.front_eq hfront) other) hmoved, ?_⟩
      rw [List.map_cons, List.map_cons, hkinds]

end Widened

end Token

namespace Expr

variable {text wide : String} {e : Expr}

/-- Texts with tokens of the same kinds are read as the same tree. -/
theorem parse_congr {other : String} {tokens others : List Token}
    (htokens : Token.tokenize text = .ok tokens) (hothers : Token.tokenize other = .ok others)
    (hkinds : others.map (·.kind) = tokens.map (·.kind)) :
    parse other = .ok e ↔ parse text = .ok e := by
  have hparse : parse text = ofTokens tokens := by
    rw [parse, htokens]
    rfl
  have hparse' : parse other = ofTokens others := by
    rw [parse, hothers]
    rfl
  rw [hparse, hparse']
  exact ⟨ofTokens_of_kinds hkinds.symm, ofTokens_of_kinds hkinds⟩

theorem parse_of_fault {fault : SyntaxError} (h : Token.tokenize text = .error fault) :
    parse text = .error fault := by
  rw [parse, h]
  rfl

theorem parse_around {front back : String} (hfront : Text.isBlankText front = true)
    (hback : Text.isBlankText back = true) :
    parse (front ++ text ++ back) = .ok e ↔ parse text = .ok e := by
  have hall := Token.tokenize_around hfront hback text
  cases htokens : Token.tokenize text with
  | error fault =>
      rw [htokens] at hall
      rw [parse_of_fault htokens, parse_of_fault hall]
      exact ⟨nofun, nofun⟩
  | ok tokens =>
      rw [htokens] at hall
      exact parse_congr htokens hall (Token.map_kind_moved _ tokens)

theorem parse_widened (h : Token.Widened text.toList wide.toList) :
    parse wide = .ok e ↔ parse text = .ok e := by
  obtain ⟨tokens, moved, hcut, hmoved, hkinds⟩ := h.exists_cuts 0 0
  exact parse_congr hcut.tokenizeFrom_eq hmoved.tokenizeFrom_eq hkinds

end Expr

/-- A blank between two texts separates their tokens: the tokens, or the fault, of the first are as
they are without the second, and those of the second as they are without the first, except that they
stand behind the first and the blank. So blanks around an expression make no difference to its tree,
and neither do further blanks between its tokens. -/
theorem Token.blanks_separate :
    (∀ (first second : String) (w : Char), Text.isBlank w = true → IsSeparated first second w) ∧
      (∀ (front text back : String) (e : Expr), Text.isBlankText front = true →
        Text.isBlankText back = true →
        (Expr.parse (front ++ text ++ back) = .ok e ↔ Expr.parse text = .ok e)) ∧
      ∀ (text wide : String) (e : Expr), Widened text.toList wide.toList →
        (Expr.parse wide = .ok e ↔ Expr.parse text = .ok e) :=
  ⟨fun first second _ hw => isSeparated hw first second,
    fun _ _ _ _ hfront hback => Expr.parse_around hfront hback,
    fun _ _ _ hwide => Expr.parse_widened hwide⟩

/-- Behind `2e` and an ideographic space, which takes three bytes, the `5` is a number of its own
and no exponent, and so it is with a space in front of the `e`. -/
theorem Token.blanks_separate_exponent :
    let two : Value := .integer ⟨2, by decide, by decide⟩
    let five : Value := .integer ⟨5, by decide, by decide⟩
    Text.isBlank '\u3000' = true ∧ Text.isBlankText " " = true ∧
      Widened "2e".toList "2 e".toList ∧
      tokenize "2e" = .ok [⟨.number two, 0⟩, ⟨.name "e", 1⟩] ∧
      tokenize "5" = .ok [⟨.number five, 0⟩] ∧
      tokenize ("2e" ++ '\u3000'.toString ++ "5") =
        .ok [⟨.number two, 0⟩, ⟨.name "e", 1⟩, ⟨.number five, 5⟩] ∧
      (∀ e, Expr.parse (" " ++ "2e" ++ " ") = .ok e ↔ Expr.parse "2e" = .ok e) ∧
      ∀ e, Expr.parse "2 e" = .ok e ↔ Expr.parse "2e" = .ok e := by
  intro two five
  obtain ⟨hseparated, haround, hwidened⟩ := blanks_separate
  have htwo : front 0 '2' ([] ++ ['e']) = .ok (.number two, ['2']) := by rfl
  have hname : front 0 'e' ([] ++ []) = .ok (.name "e", ['e']) := by rfl
  have hfive : front 0 '5' ([] ++ []) = .ok (.number five, ['5']) := by rfl
  have hwide : Widened "2e".toList "2 e".toList :=
    .token (by decide) htwo (.added (by decide) (.token (by decide) hname .nil))
  have hfirst : Cut 0 "2e".toList [⟨.number two, 0⟩, ⟨.name "e", 1⟩] :=
    .token (by decide) htwo
      (.token (by decide) (front_eq_ok_of_position hname _) (.nil _))
  have hsecond : Cut 0 "5".toList [⟨.number five, 0⟩] := .token (by decide) hfive (.nil _)
  have hblank : Text.isBlank '\u3000' = true := by decide
  have hspace : Text.isBlankText " " = true := by decide
  exact ⟨hblank, hspace, hwide, hfirst.tokenizeFrom_eq, hsecond.tokenizeFrom_eq,
    (hseparated "2e" "5" '\u3000' hblank).tokens _ _ hfirst.tokenizeFrom_eq hsecond.tokenizeFrom_eq,
    fun e => haround " " "2e" " " e hspace hspace, fun e => hwidened "2e" "2 e" e hwide⟩

end Abacus
