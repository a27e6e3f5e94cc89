import Abacus.Toml.Moment
import Abacus.Toml.Number
import Abacus.Toml.Quoted
import Abacus.Toml.Tree

/-!
# Reading TOML

A document is a sequence of lines: headers of tables, entries, comments and blank lines.
-/

namespace Abacus.Toml

open Text (Front Reader length_lt_of_skip)

/-- Fewer names than this make up a key, and fewer arrays and inline tables are nested. -/
def nestingLimit : Nat := 80

def isBareKeyChar (c : Char) : Bool := c.isAlphanum || c == '-' || c == '_'

def readName : Reader String := fun cs => do
  match cs with
  | '"' :: rest =>
    let s ← readBasic rest
    Front.of? cs (String.ofList s.value) s.rest
  | '\x27' :: rest =>
    let s ← readLiteral rest
    Front.of? cs (String.ofList s.value) s.rest
  | _ =>
    let name := cs.takeWhile isBareKeyChar
    if name.isEmpty then none else Front.of? cs (String.ofList name) (cs.drop name.length)

def readPath (cs : List Char) : Option (Front (List String) cs) := do
  let first ← readName (skipBlanks cs)
  have hf := Nat.lt_of_lt_of_le first.shorter (length_skipBlanks_le cs)
  have hr := length_skipBlanks_le first.rest
  match h : skipBlanks first.rest with
  | '.' :: behind =>
    let more ← readPath behind
    some ⟨first.value :: more.value, more.rest,
      Nat.lt_trans more.shorter (length_lt_of_skip h (Nat.le_trans hr (Nat.le_of_lt hf)))⟩
  | rest => some ⟨[first.value], rest, Nat.lt_of_le_of_lt (h ▸ hr) hf⟩
termination_by cs.length
decreasing_by exact length_lt_of_skip h (Nat.le_trans hr (Nat.le_of_lt hf))

/-- The names that lead to a table, and the name in it. -/
structure Key where
  path : List String
  name : String

def readKey : Reader Key := fun cs => do
  let names ← readPath cs
  let name ← names.value.getLast?
  if names.value.length < nestingLimit then some (names.map fun path => ⟨path.dropLast, name⟩)
  else none

def readItems (item : Reader Toml) (cs : List Char) : Option (Front (List Toml) cs) := do
  have hs := length_skipFiller_le cs
  match h : skipFiller cs with
  | ']' :: rest => some ⟨[], rest, length_lt_of_skip h hs⟩
  | start =>
    let v ← item start
    have hv := Nat.lt_of_lt_of_le v.shorter (h ▸ hs)
    have hr := Nat.le_trans (length_skipFiller_le v.rest) (Nat.le_of_lt hv)
    match h' : skipFiller v.rest with
    | ',' :: rest =>
      let more ← readItems item rest
      some ⟨v.value :: more.value, more.rest,
        Nat.lt_trans more.shorter (length_lt_of_skip h' hr)⟩
    | ']' :: rest => some ⟨[v.value], rest, length_lt_of_skip h' hr⟩
    | _ => none
termination_by cs.length
decreasing_by exact length_lt_of_skip h' hr

def readPair (item : Reader Toml) : Reader (Key × Toml) := fun cs => do
  let key ← readKey cs
  match key.rest with
  | '=' :: rest =>
    let v ← item (skipBlanks rest)
    Front.of? cs (key.value, v.value) v.rest
  | _ => none

def readPairs (item : Reader Toml) (cs : List Char) : Option (Front (List (Key × Toml)) cs) := do
  let pair ← readPair item cs
  have hr := Nat.le_trans (length_skipBlanks_le pair.rest) (Nat.le_of_lt pair.shorter)
  match h : skipBlanks pair.rest with
  | ',' :: rest =>
    let more ← readPairs item rest
    some ⟨pair.value :: more.value, more.rest,
      Nat.lt_trans more.shorter (length_lt_of_skip h hr)⟩
  | '\x7d' :: rest => some ⟨[pair.value], rest, length_lt_of_skip h hr⟩
  | _ => none
termination_by cs.length
decreasing_by exact length_lt_of_skip h hr

def tableOfPairs? (pairs : List (Key × Toml)) : Option Toml := do
  let add (entries : Entries) (pair : Key × Toml) : Option Entries :=
    entries.addEntry pair.1.path pair.1.name pair.2
  let entries ← pairs.foldlM add []
  some (.table (entriesToToml entries))

def readInlineTable (item : Reader Toml) : Reader Toml := fun cs => do
  match skipBlanks cs with
  | '\x7d' :: rest => Front.of? cs (.table []) rest
  | start =>
    let pairs ← readPairs item start
    Front.of? cs (← tableOfPairs? pairs.value) pairs.rest

def readWord (word : List Char) (v : Toml) : Reader Toml := fun cs =>
  if word.isPrefixOf cs then Front.of? cs v (cs.drop word.length) else none

def readScalar : Reader Toml
  | '"' :: rest => (readString ('"' :: rest)).map (·.map .string)
  | '\x27' :: rest => (readString ('\x27' :: rest)).map (·.map .string)
  | 't' :: rest => readWord ['t', 'r', 'u', 'e'] (.boolean true) ('t' :: rest)
  | 'f' :: rest => readWord ['f', 'a', 'l', 's', 'e'] (.boolean false) ('f' :: rest)
  | cs => (readMoment cs).or (readNumber cs)

/-- A value in which arrays and inline tables are nested to less than the given depth. -/
def readNested : Nat → Reader Toml
  | depth + 1, '[' :: rest =>
    (readItems (readNested depth) rest).map fun items =>
      (items.map .array).widen (Nat.le_succ _)
  | depth + 1, '\x7b' :: rest =>
    (readInlineTable (readNested depth) rest).map (·.widen (Nat.le_succ _))
  | _, cs => readScalar cs

def readValue : Reader Toml := readNested (nestingLimit - 1)

inductive Statement where
  | table (key : Key)
  | element (key : Key)
  | entry (key : Key) (v : Toml)

def readHeader (closing : List Char) : Reader Key := fun cs => do
  let key ← readKey cs
  if closing.isPrefixOf key.rest then Front.of? cs key.value (key.rest.drop closing.length)
  else none

def readStatement : Reader Statement := fun cs => do
  match cs with
  | '[' :: '[' :: rest =>
    let key ← readHeader [']', ']'] rest
    Front.of? cs (.element key.value) key.rest
  | '[' :: rest =>
    let key ← readHeader [']'] rest
    Front.of? cs (.table key.value) key.rest
  | _ =>
    let pair ← readPair readValue cs
    Front.of? cs (.entry pair.value.1 pair.value.2) pair.rest

def readLine : Reader Statement := fun cs => do
  let statement ← readStatement cs
  let behind ← endLine? statement.rest
  Front.of? cs statement.value behind

def readStatements (cs : List Char) : Option (List Statement) :=
  match h : skipFiller cs with
  | [] => some []
  | c :: rest => do
    let line : Front Statement cs ←
      (readLine (c :: rest)).map (·.widen (h ▸ length_skipFiller_le cs))
    let more ← readStatements line.rest
    some (line.value :: more)
termination_by cs.length
decreasing_by exact line.shorter

/-- A document while it is read: its entries, and the table to which further entries belong. -/
structure Draft where
  entries : Entries
  current : List String

def Draft.add? (draft : Draft) : Statement → Option Draft
  | .table key => do
    let entries ← draft.entries.addTable key.path key.name
    some ⟨entries, key.path ++ [key.name]⟩
  | .element key => do
    let entries ← draft.entries.addElement key.path key.name
    some ⟨entries, key.path ++ [key.name]⟩
  | .entry key v => do
    let add (_ : Bool) (inner : Entries) : Option Entries := inner.addEntry key.path key.name v
    let entries ← draft.entries.modifyAt false add false draft.current
    some { draft with entries }

def dropByteOrderMark : List Char → List Char
  | '\ufeff' :: rest => rest
  | cs => cs

def read? (text : String) : Option Toml := do
  let statements ← readStatements (dropByteOrderMark text.toList)
  let draft ← statements.foldlM Draft.add? ⟨[], []⟩
  some (.table (entriesToToml draft.entries))

end Abacus.Toml
