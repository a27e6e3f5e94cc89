import Abacus.Text.Front
import Abacus.Text.Hexadecimal
import Abacus.Toml.Basic

/-!
# TOML strings

Basic strings stand between double quotes and know escapes; literal strings stand between single
quotes and hold what is written. Both come in a form for several lines, between three quotes, where
a line break at the start does not count and up to two quotes may stand before the closing ones.
-/

namespace Abacus.Toml

open Text (Front Reader hexNumber?)

def readCodePoint (count : Nat) : Reader Char := fun cs => do
  let digits := cs.take count
  let n ← hexNumber? digits
  if digits.length = count ∧ n.isValidChar then Front.of? cs (Char.ofNat n) (cs.drop count)
  else none

def readEscaped : Reader Char
  | 'b' :: rest => some ⟨'\x08', rest, Nat.lt_succ_self _⟩
  | 'f' :: rest => some ⟨'\x0c', rest, Nat.lt_succ_self _⟩
  | 'n' :: rest => some ⟨'\n', rest, Nat.lt_succ_self _⟩
  | 'r' :: rest => some ⟨'\r', rest, Nat.lt_succ_self _⟩
  | 't' :: rest => some ⟨'\t', rest, Nat.lt_succ_self _⟩
  | '"' :: rest => some ⟨'"', rest, Nat.lt_succ_self _⟩
  | '\\' :: rest => some ⟨'\\', rest, Nat.lt_succ_self _⟩
  | 'u' :: rest => (readCodePoint 4 rest).map (·.widen (Nat.le_succ _))
  | 'U' :: rest => (readCodePoint 8 rest).map (·.widen (Nat.le_succ _))
  | _ => none

def readBasic (cs : List Char) : Option (Front (List Char) cs) :=
  match cs with
  | [] => none
  | '"' :: rest => some ⟨[], rest, Nat.lt_succ_self _⟩
  | '\\' :: rest => do
    let c ← readEscaped rest
    let more ← readBasic c.rest
    some ⟨c.value :: more.value, more.rest,
      Nat.lt_succ_of_lt (Nat.lt_trans more.shorter c.shorter)⟩
  | c :: rest =>
    if isPrintable c then do
      let more ← readBasic rest
      some ⟨c :: more.value, more.rest, Nat.lt_succ_of_lt more.shorter⟩
    else none
termination_by cs.length
decreasing_by
  · exact Nat.lt_succ_of_lt c.shorter
  · exact Nat.lt_succ_self _

def readLiteral : Reader (List Char)
  | [] => none
  | '\x27' :: rest => some ⟨[], rest, Nat.lt_succ_self _⟩
  | c :: rest =>
    if isPrintable c then do
      let more ← readLiteral rest
      some ⟨c :: more.value, more.rest, Nat.lt_succ_of_lt more.shorter⟩
    else none

/-- What stands behind the blanks and line breaks that a backslash at the end of a line leaves out;
the text is the one behind the backslash. -/
def continueLine? (cs : List Char) : Option (List Char) :=
  (lineBreak? (skipBlanks cs)).map skipBlankLines

def readBasicLines (cs : List Char) : Option (Front (List Char) cs) :=
  match cs with
  | [] => none
  | '"' :: '"' :: '"' :: '"' :: '"' :: rest =>
    some ⟨['"', '"'], rest, Nat.lt_add_of_pos_right (by decide : 0 < 5)⟩
  | '"' :: '"' :: '"' :: '"' :: rest =>
    some ⟨['"'], rest, Nat.lt_add_of_pos_right (by decide : 0 < 4)⟩
  | '"' :: '"' :: '"' :: rest => some ⟨[], rest, Nat.lt_add_of_pos_right (by decide : 0 < 3)⟩
  | '\r' :: '\n' :: rest => do
    let more ← readBasicLines rest
    some ⟨'\n' :: more.value, more.rest, Nat.lt_succ_of_lt (Nat.lt_succ_of_lt more.shorter)⟩
  | '\\' :: rest =>
    match continueLine? rest with
    | some behind =>
      if h : behind.length < rest.length then do
        let more ← readBasicLines behind
        some ⟨more.value, more.rest, Nat.lt_succ_of_lt (Nat.lt_trans more.shorter h)⟩
      else none
    | none => do
      let c ← readEscaped rest
      let more ← readBasicLines c.rest
      some ⟨c.value :: more.value, more.rest,
        Nat.lt_succ_of_lt (Nat.lt_trans more.shorter c.shorter)⟩
  | c :: rest =>
    if isPrintable c || c == '\n' then do
      let more ← readBasicLines rest
      some ⟨c :: more.value, more.rest, Nat.lt_succ_of_lt more.shorter⟩
    else none
termination_by cs.length
decreasing_by
  · exact Nat.lt_succ_of_lt (Nat.lt_succ_self _)
  · exact Nat.lt_succ_of_lt h
  · exact Nat.lt_succ_of_lt c.shorter
  · exact Nat.lt_succ_self _

def readLiteralLines : Reader (List Char)
  | [] => none
  | '\x27' :: '\x27' :: '\x27' :: '\x27' :: '\x27' :: rest =>
    some ⟨['\x27', '\x27'], rest, Nat.lt_add_of_pos_right (by decide : 0 < 5)⟩
  | '\x27' :: '\x27' :: '\x27' :: '\x27' :: rest =>
    some ⟨['\x27'], rest, Nat.lt_add_of_pos_right (by decide : 0 < 4)⟩
  | '\x27' :: '\x27' :: '\x27' :: rest =>
    some ⟨[], rest, Nat.lt_add_of_pos_right (by decide : 0 < 3)⟩
  | '\r' :: '\n' :: rest => do
    let more ← readLiteralLines rest
    some ⟨'\n' :: more.value, more.rest, Nat.lt_succ_of_lt (Nat.lt_succ_of_lt more.shorter)⟩
  | c :: rest =>
    if isPrintable c || c == '\n' then do
      let more ← readLiteralLines rest
      some ⟨c :: more.value, more.rest, Nat.lt_succ_of_lt more.shorter⟩
    else none

def dropLineBreak (cs : List Char) : List Char := (lineBreak? cs).getD cs

def readString : Reader String := fun cs => do
  match cs with
  | '"' :: '"' :: '"' :: rest =>
    let s ← readBasicLines (dropLineBreak rest)
    Front.of? cs (String.ofList s.value) s.rest
  | '\x27' :: '\x27' :: '\x27' :: rest =>
    let s ← readLiteralLines (dropLineBreak rest)
    Front.of? cs (String.ofList s.value) s.rest
  | '"' :: rest =>
    let s ← readBasic rest
    Front.of? cs (String.ofList s.value) s.rest
  | '\x27' :: rest =>
    let s ← readLiteral rest
    Front.of? cs (String.ofList s.value) s.rest
  | _ => none

end Abacus.Toml
