import Abacus.Json.Reader
import Abacus.Proofs.Decimal.Numeral
import Abacus.Proofs.Json.Quoted

/-!
# One step of a JSON reader

What the readers give for a text that begins with a certain character, once blanks are skipped.
-/

namespace Abacus

namespace Text

variable {α β : Type} {cs longer behind : List Char}

/-- A reader gives a value and leaves `behind`. -/
def Yields (r : Option (Front α cs)) (value : α) (behind : List Char) : Prop :=
  ∃ shorter, r = some ⟨value, behind, shorter⟩

theorem yields_map {r : Option (Front α cs)} {f : α → β} {a : α}
    (hle : cs.length ≤ longer.length) (h : Yields r a behind) :
    Yields (r.bind fun front => some ((front.map f).widen hle)) (f a) behind := by
  obtain ⟨hshorter, rfl⟩ := h
  exact ⟨Nat.lt_of_lt_of_le hshorter hle, rfl⟩

end Text

namespace Json

open Text

variable {cs rest middle behind : List Char} {j : Json} {items : List Json}
  {member : Option String × Json} {members : List (Option String × Json)}

theorem yields_readString {units : List Nat} (h : readUnits cs = some (units, behind)) :
    Yields (readString cs) ((joinUnits units).map String.ofList) behind := by
  unfold readString
  split
  · next hnone =>
      rw [h] at hnone
      cases hnone
  · next hsome =>
      rw [h] at hsome
      cases hsome
      exact ⟨_, rfl⟩

theorem yields_readString_quoted (s : String) (rest : List Char) :
    Yields (readString (s.toList.flatMap escape ++ '"' :: rest)) (some s) rest := by
  have hread := yields_readString (readUnits_flatMap_escape s.toList rest)
  rwa [joinUnits_map_toNat, Option.map_some, String.ofList_toList] at hread

theorem yields_readNumeral {n : Numeral} (hscan : Numeral.scan (cs ++ rest) = (n, rest))
    (hchars : n.chars = cs) (hnumeral : isNumeral n = true) :
    Yields (readNumeral (cs ++ rest)) n rest := by
  cases cs with
  | nil =>
      have hempty : n.whole = [] := by
        simp [Numeral.chars] at hchars
        exact hchars.1
      simp [isNumeral, hempty] at hnumeral
  | cons c more =>
      rw [List.cons_append] at hscan ⊢
      have hdrop : (more ++ rest).drop (n.chars.length - 1) = rest := by
        simp [hchars]
      have hlength : rest.length < (c :: (more ++ rest)).length := by
        simp only [List.length_cons, List.length_append]
        omega
      refine ⟨hlength, ?_⟩
      simp [readNumeral, hscan, hnumeral, hdrop]

section Values

theorem yields_readValue_string {text? : Option String} (hskip : skipSpace cs = '"' :: rest)
    (h : Yields (readString rest) text? behind) :
    Yields (readValue cs) (.string text?) behind := by
  unfold readValue
  split
  case h_2 t heq =>
    rw [hskip] at heq
    cases heq
    exact yields_map _ h
  all_goals simp_all

theorem yields_readValue_negative {n : Numeral} (hskip : skipSpace cs = '-' :: rest)
    (h : Yields (readNumeral rest) n behind) : Yields (readValue cs) (.number true n) behind := by
  unfold readValue
  split
  case h_5 t heq =>
    rw [hskip] at heq
    cases heq
    exact yields_map _ h
  all_goals simp_all

theorem yields_readValue_positive {n : Numeral} {c : Char} (hskip : skipSpace cs = c :: rest)
    (hc : isDigit c = true) (h : Yields (readNumeral (c :: rest)) n behind) :
    Yields (readValue cs) (.number false n) behind := by
  unfold readValue
  split
  case h_1 heq =>
    rw [hskip] at heq
    cases heq
  case h_9 heq =>
    rw [hskip] at heq
    cases heq
    exact yields_map _ h
  all_goals
    next heq =>
      rw [hskip, List.cons.injEq] at heq
      rw [heq.1] at hc
      exact absurd hc (by decide)

theorem yields_readValue_array_nil (hskip : skipSpace cs = '[' :: rest)
    (hclose : skipSpace rest = ']' :: behind) : Yields (readValue cs) (.array []) behind := by
  unfold readValue
  split
  case h_3 t heq =>
    rw [hskip] at heq
    cases heq
    dsimp only
    split
    case h_1 b hb =>
      rw [hclose] at hb
      cases hb
      exact ⟨_, rfl⟩
    case h_2 hno => exact absurd hclose (hno behind)
  all_goals simp_all

theorem yields_readValue_array_cons (hskip : skipSpace cs = '[' :: rest)
    (hopen : ∀ more, skipSpace rest ≠ ']' :: more) (hfirst : Yields (readValue rest) j middle)
    (hmore : Yields (readItems middle) items behind) :
    Yields (readValue cs) (.array (j :: items)) behind := by
  obtain ⟨hshort, hfirst⟩ := hfirst
  obtain ⟨hshorter, hmore⟩ := hmore
  have hlength := length_lt_of_skip hskip (length_skipSpace_le cs)
  unfold readValue
  split
  case h_3 t heq =>
    rw [hskip] at heq
    cases heq
    dsimp only
    split
    case h_1 b hb => exact absurd hb (hopen b)
    case h_2 =>
      refine ⟨Nat.lt_trans (Nat.lt_trans hshorter hshort) hlength, ?_⟩
      rw [hfirst]
      show (readItems middle).bind _ = _
      rw [hmore]
      rfl
  all_goals simp_all

theorem yields_readValue_object_nil (hskip : skipSpace cs = '\x7b' :: rest)
    (hclose : skipSpace rest = '\x7d' :: behind) : Yields (readValue cs) (.object []) behind := by
  unfold readValue
  split
  case h_4 t heq =>
    rw [hskip] at heq
    cases heq
    dsimp only
    split
    case h_1 b hb =>
      rw [hclose] at hb
      cases hb
      exact ⟨_, rfl⟩
    case h_2 hno => exact absurd hclose (hno behind)
  all_goals simp_all

theorem yields_readValue_object_cons (hskip : skipSpace cs = '\x7b' :: rest)
    (hopen : ∀ more, skipSpace rest ≠ '\x7d' :: more)
    (hfirst : Yields (readMember rest) member middle)
    (hmore : Yields (readMembers middle) members behind) :
    Yields (readValue cs) (.object (member :: members)) behind := by
  obtain ⟨hshort, hfirst⟩ := hfirst
  obtain ⟨hshorter, hmore⟩ := hmore
  have hlength := length_lt_of_skip hskip (length_skipSpace_le cs)
  unfold readValue
  split
  case h_4 t heq =>
    rw [hskip] at heq
    cases heq
    dsimp only
    split
    case h_1 b hb => exact absurd hb (hopen b)
    case h_2 =>
      refine ⟨Nat.lt_trans (Nat.lt_trans hshorter hshort) hlength, ?_⟩
      rw [hfirst]
      show (readMembers middle).bind _ = _
      rw [hmore]
      rfl
  all_goals simp_all

end Values

section Items

theorem yields_readItems_nil (hskip : skipSpace cs = ']' :: behind) :
    Yields (readItems cs) [] behind := by
  unfold readItems
  split
  case h_1 t heq =>
    rw [hskip] at heq
    cases heq
    exact ⟨_, rfl⟩
  all_goals simp_all

theorem yields_readItems_cons (hskip : skipSpace cs = ',' :: rest)
    (hfirst : Yields (readValue rest) j middle) (hmore : Yields (readItems middle) items behind) :
    Yields (readItems cs) (j :: items) behind := by
  obtain ⟨hshort, hfirst⟩ := hfirst
  obtain ⟨hshorter, hmore⟩ := hmore
  have hlength := length_lt_of_skip hskip (length_skipSpace_le cs)
  unfold readItems
  split
  case h_2 t heq =>
    rw [hskip] at heq
    cases heq
    refine ⟨Nat.lt_trans (Nat.lt_trans hshorter hshort) hlength, ?_⟩
    rw [hfirst]
    show (readItems middle).bind _ = _
    rw [hmore]
    rfl
  all_goals simp_all

theorem yields_readMembers_nil (hskip : skipSpace cs = '\x7d' :: behind) :
    Yields (readMembers cs) [] behind := by
  unfold readMembers
  split
  case h_1 t heq =>
    rw [hskip] at heq
    cases heq
    exact ⟨_, rfl⟩
  all_goals simp_all

theorem yields_readMembers_cons (hskip : skipSpace cs = ',' :: rest)
    (hfirst : Yields (readMember rest) member middle)
    (hmore : Yields (readMembers middle) members behind) :
    Yields (readMembers cs) (member :: members) behind := by
  obtain ⟨hshort, hfirst⟩ := hfirst
  obtain ⟨hshorter, hmore⟩ := hmore
  have hlength := length_lt_of_skip hskip (length_skipSpace_le cs)
  unfold readMembers
  split
  case h_2 t heq =>
    rw [hskip] at heq
    cases heq
    refine ⟨Nat.lt_trans (Nat.lt_trans hshorter hshort) hlength, ?_⟩
    rw [hfirst]
    show (readMembers middle).bind _ = _
    rw [hmore]
    rfl
  all_goals simp_all

theorem yields_readMember {name : Option String} {value : List Char}
    (hskip : skipSpace cs = '"' :: rest) (hname : Yields (readString rest) name middle)
    (hcolon : skipSpace middle = ':' :: value) (hvalue : Yields (readValue value) j behind) :
    Yields (readMember cs) (name, j) behind := by
  obtain ⟨hshort, hname⟩ := hname
  obtain ⟨hshorter, hvalue⟩ := hvalue
  have hlength := length_lt_of_skip hskip (length_skipSpace_le cs)
  have hinner := length_lt_of_skip hcolon (length_skipSpace_le middle)
  unfold readMember
  split
  case h_1 t heq =>
    rw [hskip] at heq
    cases heq
    have hall : behind.length < cs.length := by omega
    refine ⟨hall, ?_⟩
    rw [hname]
    simp only [Option.bind_eq_bind, Option.bind_some]
    split
    case h_1 b hb =>
      rw [hcolon] at hb
      cases hb
      rw [hvalue]
      rfl
    case h_2 hno => exact absurd hcolon (hno value)
  all_goals simp_all

end Items

end Json

end Abacus
