import Abacus.Text.CharRanges

/-!
# Blanks

White space in the sense of Unicode, and what is left of a text without it at its ends.
-/

namespace Abacus.Text

/-- The characters with the Unicode property White_Space. -/
def whiteSpace : CharRanges :=
  ⟨[(0x9, 0xD), (0x20, 0x20), (0x85, 0x85), (0xA0, 0xA0), (0x1680, 0x1680), (0x2000, 0x200A),
   (0x2028, 0x2029), (0x202F, 0x202F), (0x205F, 0x205F), (0x3000, 0x3000)]⟩

def isBlank (c : Char) : Bool :=
  whiteSpace.contains c

def trimFront (cs : List Char) : List Char :=
  cs.dropWhile isBlank

def trimBack (cs : List Char) : List Char :=
  (trimFront cs.reverse).reverse

def trimChars (cs : List Char) : List Char :=
  trimBack (trimFront cs)

def trim (s : String) : String :=
  String.ofList (trimChars s.toList)

def isBlankText (s : String) : Bool :=
  s.toList.all isBlank

end Abacus.Text
