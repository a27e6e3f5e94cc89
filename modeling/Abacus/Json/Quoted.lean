import Abacus.Text.Hexadecimal

/-!
# JSON strings

How a text is written between quotes, and how such a string is read. Writing escapes the quote, the
backslash and the control characters, and nothing else.
-/

namespace Abacus.Json

open Text (hexDigit hexNumber?)

def shortEscapes : List (Char × Char) :=
  [('"', '"'), ('\\', '\\'), ('b', '\x08'), ('f', '\x0c'), ('n', '\n'), ('r', '\r'), ('t', '\t')]

def isControl (c : Char) : Bool := c.toNat < 0x20

def escape (c : Char) : List Char :=
  match shortEscapes.find? (·.2 == c) with
  | some (letter, _) => ['\\', letter]
  | none =>
    if isControl c then ['\\', 'u', '0', '0', hexDigit (c.toNat / 16), hexDigit c.toNat] else [c]

def quoted (s : String) : List Char := '"' :: s.toList.flatMap escape ++ ['"']

/-- The character that a letter names behind a backslash. A slash may be escaped too. -/
def unescape? (letter : Char) : Option Char :=
  if letter = '/' then some '/' else (shortEscapes.find? (·.1 == letter)).map (·.2)

/-- Reads a string from behind its opening quote: the numbers of its characters, where escaped
halves of surrogate pairs are still apart, and what follows the closing quote. -/
def readUnits : List Char → Option (List Nat × List Char)
  | [] => none
  | '"' :: rest => some ([], rest)
  | '\\' :: 'u' :: a :: b :: c :: d :: rest => do
    let n ← hexNumber? [a, b, c, d]
    let (units, rest) ← readUnits rest
    some (n :: units, rest)
  | '\\' :: letter :: rest => do
    let c ← unescape? letter
    let (units, rest) ← readUnits rest
    some (c.toNat :: units, rest)
  | c :: rest =>
    if isControl c then none
    else do
      let (units, rest) ← readUnits rest
      some (c.toNat :: units, rest)

def isHighSurrogate (n : Nat) : Bool := 0xD800 ≤ n && n ≤ 0xDBFF

def isLowSurrogate (n : Nat) : Bool := 0xDC00 ≤ n && n ≤ 0xDFFF

/-- The characters of a string, with the halves of surrogate pairs joined; none if one half stands
alone. -/
def joinUnits : List Nat → Option (List Char)
  | [] => some []
  | [n] => if isHighSurrogate n || isLowSurrogate n then none else some [Char.ofNat n]
  | n :: m :: rest =>
    if isHighSurrogate n then
      if isLowSurrogate m then
        (joinUnits rest).map (Char.ofNat (0x10000 + (n - 0xD800) * 0x400 + (m - 0xDC00)) :: ·)
      else none
    else if isLowSurrogate n then none
    else (joinUnits (m :: rest)).map (Char.ofNat n :: ·)

theorem length_of_readUnits {cs rest : List Char} {units : List Nat}
    (h : readUnits cs = some (units, rest)) : rest.length < cs.length := by
  fun_induction readUnits cs generalizing units with
  | case1 => simp at h
  | case2 => simp at h; simp [h]
  | case3 a b c d rest ih =>
    simp only [Option.bind_eq_bind, Option.bind_eq_some_iff] at h
    obtain ⟨n, -, ⟨units, rest'⟩, hr, he⟩ := h
    simp at he
    have := ih (he.2 ▸ hr)
    simp only [List.length_cons]; omega
  | case4 letter rest _ ih =>
    simp only [Option.bind_eq_bind, Option.bind_eq_some_iff] at h
    obtain ⟨n, -, ⟨units, rest'⟩, hr, he⟩ := h
    simp at he
    have := ih (he.2 ▸ hr)
    simp only [List.length_cons]; omega
  | case5 => simp at h
  | case6 c rest _ _ _ _ ih =>
    simp only [Option.bind_eq_bind, Option.bind_eq_some_iff] at h
    obtain ⟨⟨units, rest'⟩, hr, he⟩ := h
    simp at he
    have := ih (he.2 ▸ hr)
    simp only [List.length_cons]; omega

end Abacus.Json
