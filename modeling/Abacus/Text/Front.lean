/-!
# The front of a text

Readers take something off the front of a text. What they leave is shorter, so that reading goes on
to an end.
-/

namespace Abacus.Text

structure Front (α : Type) (cs : List Char) where
  value : α
  rest : List Char
  shorter : rest.length < cs.length

namespace Front

variable {α β : Type} {cs longer : List Char}

def map (f : α → β) (front : Front α cs) : Front β cs :=
  ⟨f front.value, front.rest, front.shorter⟩

/-- The same at the front of a longer text. -/
def widen (h : cs.length ≤ longer.length) (front : Front α cs) : Front α longer :=
  ⟨front.value, front.rest, Nat.lt_of_lt_of_le front.shorter h⟩

def of? (cs : List Char) (value : α) (rest : List Char) : Option (Front α cs) :=
  if h : rest.length < cs.length then some ⟨value, rest, h⟩ else none

end Front

theorem length_lt_of_skip {cs skipped rest : List Char} {c : Char} (h : skipped = c :: rest)
    (hs : skipped.length ≤ cs.length) : rest.length < cs.length :=
  Nat.lt_of_lt_of_le (h ▸ Nat.lt_succ_self rest.length) hs

theorem length_drop_lt (c : Char) (rest : List Char) (n : Nat) :
    (rest.drop n).length < (c :: rest).length :=
  Nat.lt_succ_of_le (List.length_drop ▸ Nat.sub_le rest.length n)

abbrev Reader (α : Type) := (cs : List Char) → Option (Front α cs)

end Abacus.Text
