/-!
# TOML

The values of TOML documents, and what separates their parts: blanks, comments and line breaks.
-/

namespace Abacus

/-- A value. A date or time is kept as it was written. -/
inductive Toml where
  | string (s : String)
  | integer (n : Int)
  | float (x : Float)
  | boolean (b : Bool)
  | moment (text : String)
  | array (items : List Toml)
  | table (entries : List (String × Toml))

namespace Toml

def isBlank (c : Char) : Bool := c == ' ' || c == '\t'

/-- The characters that may stand in comments and in strings: no control characters but the tab. -/
def isPrintable (c : Char) : Bool := c == '\t' || 0x20 ≤ c.toNat && c.toNat ≠ 0x7F

def skipBlanks (cs : List Char) : List Char := cs.dropWhile isBlank

def skipComment : List Char → List Char
  | '#' :: rest => rest.dropWhile isPrintable
  | cs => cs

def lineBreak? : List Char → Option (List Char)
  | '\n' :: rest => some rest
  | '\r' :: '\n' :: rest => some rest
  | _ => none

def endLine? (cs : List Char) : Option (List Char) :=
  match skipComment (skipBlanks cs) with
  | [] => some []
  | rest => lineBreak? rest

def skipBlankLines : List Char → List Char
  | ' ' :: rest => skipBlankLines rest
  | '\t' :: rest => skipBlankLines rest
  | '\n' :: rest => skipBlankLines rest
  | '\r' :: '\n' :: rest => skipBlankLines rest
  | cs => cs

def skipFiller (cs : List Char) : List Char :=
  match cs with
  | ' ' :: rest => skipFiller rest
  | '\t' :: rest => skipFiller rest
  | '\n' :: rest => skipFiller rest
  | '\r' :: '\n' :: rest => skipFiller rest
  | '#' :: rest => skipFiller (rest.dropWhile isPrintable)
  | cs => cs
termination_by cs.length
decreasing_by
  all_goals simp only [List.length_cons]
  · omega
  · omega
  · omega
  · omega
  · exact Nat.lt_succ_of_le (List.dropWhile_sublist isPrintable).length_le

theorem length_skipBlanks_le (cs : List Char) : (skipBlanks cs).length ≤ cs.length :=
  (List.dropWhile_sublist _).length_le

theorem length_skipFiller_le (cs : List Char) : (skipFiller cs).length ≤ cs.length := by
  fun_induction skipFiller cs with
  | case5 rest ih =>
    have := (List.dropWhile_sublist (l := rest) isPrintable).length_le
    simp only [List.length_cons]; omega
  | case6 => simp
  | _ => simp_all; try omega

end Toml

end Abacus
