import Abacus.Json.Quoted

/-!
# Reading quoted texts back

Every text is read back from between its quotes: what is escaped stands for itself again, and no
character of a text is half of a surrogate pair.
-/

namespace Abacus.Json

open Text (hexDigit hexNumber?)

variable {c : Char} {rest : List Char}

theorem readUnits_plain (hquote : c ≠ '"') (hbackslash : c ≠ '\\')
    (hcontrol : isControl c = false) :
    readUnits (c :: rest) = (readUnits rest).map fun front => (c.toNat :: front.1, front.2) := by
  rw [readUnits]
  · simp only [hcontrol, Bool.false_eq_true, if_false]
    cases readUnits rest <;> rfl
  all_goals simp_all

theorem readUnits_letter {letter : Char} (h : (letter, c) ∈ shortEscapes) :
    readUnits ('\\' :: letter :: rest) =
      (readUnits rest).map fun front => (c.toNat :: front.1, front.2) := by
  simp only [shortEscapes, List.mem_cons, Prod.mk.injEq, List.not_mem_nil, or_false] at h
  rcases h with ⟨rfl, rfl⟩ | ⟨rfl, rfl⟩ | ⟨rfl, rfl⟩ | ⟨rfl, rfl⟩ | ⟨rfl, rfl⟩ | ⟨rfl, rfl⟩ |
    ⟨rfl, rfl⟩
  all_goals
    rw [readUnits]
    · cases readUnits rest <;> rfl
    · simp

theorem hexNumber?_control {n : Nat} (h : n < 0x20) :
    hexNumber? ['0', '0', hexDigit (n / 16), hexDigit n] = some n := by
  revert n
  decide

theorem readUnits_control (h : isControl c = true) :
    readUnits ('\\' :: 'u' :: '0' :: '0' :: hexDigit (c.toNat / 16) :: hexDigit c.toNat :: rest) =
      (readUnits rest).map fun front => (c.toNat :: front.1, front.2) := by
  have hsmall : c.toNat < 0x20 := by simpa [isControl] using h
  have hnumber := hexNumber?_control hsmall
  rw [readUnits]
  simp only [hnumber]
  cases readUnits rest <;> rfl

theorem readUnits_escape (c : Char) (rest : List Char) :
    readUnits (escape c ++ rest) =
      (readUnits rest).map fun front => (c.toNat :: front.1, front.2) := by
  unfold escape
  cases hfind : shortEscapes.find? (·.2 == c) with
  | some entry =>
      obtain ⟨letter, d⟩ := entry
      have hmem := List.mem_of_find?_eq_some hfind
      have hd : d = c := by simpa using List.find?_some hfind
      subst hd
      exact readUnits_letter hmem
  | none =>
      have hnone : ∀ entry ∈ shortEscapes, entry.2 ≠ c := by
        simpa using List.find?_eq_none.1 hfind
      have hquote : c ≠ '"' := (hnone ('"', '"') (by decide)).symm
      have hbackslash : c ≠ '\\' := (hnone ('\\', '\\') (by decide)).symm
      cases hcontrol : isControl c with
      | true => exact readUnits_control hcontrol
      | false => exact readUnits_plain hquote hbackslash hcontrol

theorem readUnits_flatMap_escape (cs rest : List Char) :
    readUnits (cs.flatMap escape ++ '"' :: rest) = some (cs.map Char.toNat, rest) := by
  induction cs with
  | nil => simp [readUnits]
  | cons c cs ih =>
      rw [List.flatMap_cons, List.append_assoc, readUnits_escape, ih]
      rfl

/-- A character has a place outside the surrogates. -/
theorem toNat_cases (c : Char) : c.toNat < 0xD800 ∨ 0xDFFF < c.toNat := by
  have hvalid : c.toNat.isValidChar := c.valid
  unfold Nat.isValidChar at hvalid
  omega

theorem not_isHighSurrogate (c : Char) : isHighSurrogate c.toNat = false := by
  have hcases := toNat_cases c
  simp only [isHighSurrogate, Bool.and_eq_false_iff, decide_eq_false_iff_not]
  omega

theorem not_isLowSurrogate (c : Char) : isLowSurrogate c.toNat = false := by
  have hcases := toNat_cases c
  simp only [isLowSurrogate, Bool.and_eq_false_iff, decide_eq_false_iff_not]
  omega

theorem joinUnits_toNat_cons (c : Char) (units : List Nat) :
    joinUnits (c.toNat :: units) = (joinUnits units).map (c :: ·) := by
  have hhigh := not_isHighSurrogate c
  have hlow := not_isLowSurrogate c
  cases units <;> simp [joinUnits, hhigh, hlow, Char.ofNat_toNat]

theorem joinUnits_map_toNat (cs : List Char) : joinUnits (cs.map Char.toNat) = some cs := by
  induction cs with
  | nil => rfl
  | cons c cs ih => rw [List.map_cons, joinUnits_toNat_cons, ih, Option.map_some]

end Abacus.Json
