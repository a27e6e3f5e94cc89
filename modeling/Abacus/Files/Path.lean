/-!
# Paths

Paths of files as texts. Slashes separate the parts; a doubled slash, a slash at the end and a part
`.` that is not the first one mean nothing.
-/

namespace Abacus

structure Path where
  text : String
deriving DecidableEq

namespace Path

def isAbsolute (p : Path) : Bool := p.text.toList.head? == some '/'

def join (base : Path) (p : Path) : Path :=
  if p.isAbsolute then p
  else
    match base.text.toList.getLast? with
    | none => p
    | some '/' => ⟨base.text ++ p.text⟩
    | some _ => ⟨base.text ++ "/" ++ p.text⟩

def dropVoid : List Char → List Char
  | '/' :: rest => if rest.isEmpty then ['/'] else dropVoid rest
  | '.' :: '/' :: rest => dropVoid ('/' :: rest)
  | cs => cs
termination_by cs => cs.length

def dropVoidFront : List Char → List Char
  | '/' :: rest => dropVoidFront rest
  | '.' :: '/' :: rest => dropVoidFront rest
  | cs => cs

/-- What leads from a directory to a place below it. -/
def below? (p directory : Path) : Option Path :=
  let start := directory.text.toList ++ ['/']
  if start.isPrefixOf p.text.toList then
    let inner := dropVoidFront (p.text.toList.drop start.length)
    some ⟨String.ofList (dropVoid inner.reverse).reverse⟩
  else none

def splitLast? (p : Path) : Option (List Char × List Char) :=
  match dropVoid p.text.toList.reverse with
  | [] => none
  | '/' :: _ => none
  | cs => some ((cs.dropWhile (· ≠ '/')).reverse, (cs.takeWhile (· ≠ '/')).reverse)

def parent? (p : Path) : Option Path :=
  p.splitLast?.map fun (front, _) => ⟨String.ofList (dropVoid front.reverse).reverse⟩

/-- A name without its extension. A dot in front begins no extension. -/
def stem (name : List Char) : List Char :=
  match (name.reverse.dropWhile (· ≠ '.')).drop 1 with
  | [] => name
  | before => before.reverse

/-- The file beside the one named, with the given extension in place of its own. A path without a
file name stays what it is. The old extension is taken off before the new one is put on; a name at
the end that has two dots and then its extension loses its place by that, as `..` is no file name. -/
def withExtension (extension : String) (p : Path) : Path :=
  match p.splitLast? with
  | none => p
  | some (front, name) =>
    if name = ['.'] ∨ name = ['.', '.'] then p
    else if stem name = ['.'] ∧ front ++ name = p.text.toList then
      ⟨String.ofList (front ++ ['.', '.'])⟩
    else ⟨String.ofList (front ++ stem name ++ '.' :: extension.toList)⟩

def cut : List Char → List (List Char)
  | [] => [[]]
  | c :: rest =>
    if c = '/' then [] :: cut rest
    else
      match cut rest with
      | [] => [[c]]
      | first :: more => (c :: first) :: more

/-- The parts of a path, those that mean nothing included. -/
def segments (p : Path) : List String := (cut p.text.toList).map String.ofList

end Path

end Abacus
