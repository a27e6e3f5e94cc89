import Abacus.Text.Letter
import Abacus.Token.Basic

/-!
# Cutting a text into tokens

Blanks separate tokens and are skipped. Each token is the longest one at the front of the text.
-/

namespace Abacus.Token

def isNameStart (c : Char) : Bool := Text.isLetter c || c == '_'

def isNameChar (c : Char) : Bool := Text.isLetterOrNumeral c || c == '_'

def byteWidth : List Char → Nat
  | [] => 0
  | c :: rest => c.utf8Size + byteWidth rest

/-- The token at the front of the text `c :: rest`, which starts at the given position, and the
characters that make it up. -/
def front (position : Nat) (c : Char) (rest : List Char) :
    Except SyntaxError (Kind × List Char) :=
  if isDigit c || c == '.' then
    let numeral := (Numeral.scan (c :: rest)).1
    match Value.ofNumeral? false numeral with
    | some v => .ok (.number v, numeral.chars)
    | none => .error (.invalidNumber (String.ofList numeral.chars))
  else if isNameStart c then
    let name := c :: rest.takeWhile isNameChar
    .ok (.name (String.ofList name), name)
  else
    match Kind.ofSymbol? c with
    | some kind => .ok (kind, [c])
    | none => .error (.unexpectedChar c position)

def tokenizeFrom (position : Nat) : List Char → Except SyntaxError (List Token)
  | [] => .ok []
  | c :: rest =>
    if Text.isBlank c then tokenizeFrom (position + c.utf8Size) rest
    else do
      let (kind, lexeme) ← front position c rest
      let more ← tokenizeFrom (position + byteWidth lexeme) (rest.drop (lexeme.length - 1))
      .ok (⟨kind, position⟩ :: more)
termination_by cs => cs.length

def tokenize (text : String) : Except SyntaxError (List Token) :=
  tokenizeFrom 0 text.toList

end Abacus.Token
