import Abacus.Json.Basic
import Abacus.Json.Quoted
import Abacus.Text.Front

/-!
# Reading JSON

A text is one value with blanks around it. Whole numbers have no zeros in front, a point and an
exponent mark are followed by digits, and nothing stands behind the last item of a list.
-/

namespace Abacus.Json

open Text (Front Reader length_lt_of_skip length_drop_lt)

def isSpace (c : Char) : Bool := c == ' ' || c == '\n' || c == '\t' || c == '\r'

def skipSpace (cs : List Char) : List Char := cs.dropWhile isSpace

theorem length_skipSpace_le (cs : List Char) : (skipSpace cs).length ≤ cs.length :=
  (List.dropWhile_sublist _).length_le

def isNumeral (n : Numeral) : Bool :=
  !n.whole.isEmpty && (n.whole.length == 1 || n.whole.head? != some '0') && n.fraction != some []

def readNumeral : Reader Numeral
  | [] => none
  | c :: rest =>
    let numeral := (Numeral.scan (c :: rest)).1
    if isNumeral numeral then
      some ⟨numeral, rest.drop (numeral.chars.length - 1), length_drop_lt c rest _⟩
    else none

def readString (cs : List Char) : Option (Front (Option String) cs) :=
  match h : readUnits cs with
  | none => none
  | some (units, rest) =>
    some ⟨(joinUnits units).map String.ofList, rest, length_of_readUnits h⟩

def readWord (word : List Char) (j : Json) : Reader Json
  | [] => none
  | c :: rest =>
    if word.isPrefixOf (c :: rest) then
      some ⟨j, rest.drop (word.length - 1), length_drop_lt c rest _⟩
    else none

mutual

def readValue (cs : List Char) : Option (Front Json cs) :=
  have hs := length_skipSpace_le cs
  match h : skipSpace cs with
  | [] => none
  | '"' :: rest => do
    let s ← readString rest
    some ((s.map .string).widen (Nat.le_of_lt (length_lt_of_skip h hs)))
  | '[' :: rest =>
    have hr := length_skipSpace_le rest
    match h' : skipSpace rest with
    | ']' :: behind =>
      some ⟨.array [], behind, Nat.lt_trans (length_lt_of_skip h' hr) (length_lt_of_skip h hs)⟩
    | _ => do
      let first ← readValue rest
      let more ← readItems first.rest
      some ⟨.array (first.value :: more.value), more.rest,
        Nat.lt_trans (Nat.lt_trans more.shorter first.shorter) (length_lt_of_skip h hs)⟩
  | '\x7b' :: rest =>
    have hr := length_skipSpace_le rest
    match h' : skipSpace rest with
    | '\x7d' :: behind =>
      some ⟨.object [], behind, Nat.lt_trans (length_lt_of_skip h' hr) (length_lt_of_skip h hs)⟩
    | _ => do
      let first ← readMember rest
      let more ← readMembers first.rest
      some ⟨.object (first.value :: more.value), more.rest,
        Nat.lt_trans (Nat.lt_trans more.shorter first.shorter) (length_lt_of_skip h hs)⟩
  | '-' :: rest => do
    let numeral ← readNumeral rest
    some ((numeral.map (.number true)).widen (Nat.le_of_lt (length_lt_of_skip h hs)))
  | 'n' :: rest =>
    (readWord ['n', 'u', 'l', 'l'] .null ('n' :: rest)).map (·.widen (h ▸ hs))
  | 't' :: rest =>
    (readWord ['t', 'r', 'u', 'e'] (.bool true) ('t' :: rest)).map (·.widen (h ▸ hs))
  | 'f' :: rest =>
    (readWord ['f', 'a', 'l', 's', 'e'] (.bool false) ('f' :: rest)).map (·.widen (h ▸ hs))
  | c :: rest => do
    let numeral ← readNumeral (c :: rest)
    some ((numeral.map (.number false)).widen (h ▸ hs))
termination_by (cs.length, 1)
decreasing_by
  · exact Prod.Lex.left _ _ (length_lt_of_skip h hs)
  · exact Prod.Lex.left _ _ (Nat.lt_trans first.shorter (length_lt_of_skip h hs))
  · exact Prod.Lex.left _ _ (length_lt_of_skip h hs)
  · exact Prod.Lex.left _ _ (Nat.lt_trans first.shorter (length_lt_of_skip h hs))

def readItems (cs : List Char) : Option (Front (List Json) cs) :=
  have hs := length_skipSpace_le cs
  match h : skipSpace cs with
  | ']' :: rest => some ⟨[], rest, length_lt_of_skip h hs⟩
  | ',' :: rest => do
    let first ← readValue rest
    let more ← readItems first.rest
    some ⟨first.value :: more.value, more.rest,
      Nat.lt_trans (Nat.lt_trans more.shorter first.shorter) (length_lt_of_skip h hs)⟩
  | _ => none
termination_by (cs.length, 0)
decreasing_by
  · exact Prod.Lex.left _ _ (length_lt_of_skip h hs)
  · exact Prod.Lex.left _ _ (Nat.lt_trans first.shorter (length_lt_of_skip h hs))

def readMember (cs : List Char) : Option (Front (Option String × Json) cs) :=
  have hs := length_skipSpace_le cs
  match h : skipSpace cs with
  | '"' :: rest => do
    let name ← readString rest
    have hn := length_skipSpace_le name.rest
    match h' : skipSpace name.rest with
    | ':' :: behind => do
      let j ← readValue behind
      some ⟨(name.value, j.value), j.rest,
        Nat.lt_trans j.shorter (Nat.lt_trans (length_lt_of_skip h' hn)
          (Nat.lt_trans name.shorter (length_lt_of_skip h hs)))⟩
    | _ => none
  | _ => none
termination_by (cs.length, 0)
decreasing_by
  exact Prod.Lex.left _ _ (Nat.lt_trans (length_lt_of_skip h' hn)
    (Nat.lt_trans name.shorter (length_lt_of_skip h hs)))

def readMembers (cs : List Char) : Option (Front (List (Option String × Json)) cs) :=
  have hs := length_skipSpace_le cs
  match h : skipSpace cs with
  | '\x7d' :: rest => some ⟨[], rest, length_lt_of_skip h hs⟩
  | ',' :: rest => do
    let first ← readMember rest
    let more ← readMembers first.rest
    some ⟨first.value :: more.value, more.rest,
      Nat.lt_trans (Nat.lt_trans more.shorter first.shorter) (length_lt_of_skip h hs)⟩
  | _ => none
termination_by (cs.length, 0)
decreasing_by
  · exact Prod.Lex.left _ _ (length_lt_of_skip h hs)
  · exact Prod.Lex.left _ _ (Nat.lt_trans first.shorter (length_lt_of_skip h hs))

end

def read? (text : String) : Option Json := do
  let j ← readValue text.toList
  if (skipSpace j.rest).isEmpty then some j.value else none

end Abacus.Json
