import Abacus.Toml.Basic

/-!
# Building TOML tables

A document names its tables and their entries one after the other. No entry is given twice, no table
has two headers, and what was given as a value is not extended later.
-/

namespace Abacus.Toml

/-- How a table came to be: by its own header, on the way to another one, or by a dotted key. -/
inductive Origin where
  | header
  | implied
  | dotted
deriving DecidableEq

inductive Node where
  | value (v : Toml)
  | table (origin : Origin) (entries : List (String × Node))
  | tables (elements : List (List (String × Node)))

abbrev Entries := List (String × Node)

namespace Entries

def find? (entries : Entries) (name : String) : Option Node :=
  (List.find? (·.1 == name) entries).map (·.2)

def set (entries : Entries) (name : String) (node : Node) : Entries :=
  if (entries.find? name).isSome then
    entries.map fun entry => if entry.1 == name then (name, node) else entry
  else entries ++ [(name, node)]

/-- Changes the table that a path leads to. The change is told whether a dotted key made that table.
A missing table is made, and of several tables under one name the last is meant. A dotted key does
not lead into a table with a header. -/
def modifyAt (dotted : Bool) (change : Bool → Entries → Option Entries) (isDotted : Bool) :
    List String → Entries → Option Entries
  | [], entries => change isDotted entries
  | name :: path, entries =>
    match entries.find? name with
    | none => do
      let inner ← modifyAt dotted change dotted path []
      some (entries.set name (.table (if dotted then .dotted else .implied) inner))
    | some (.value _) => none
    | some (.table origin inner) =>
      if dotted && origin == .header then none
      else do
        let inner ← modifyAt dotted change (origin == .dotted) path inner
        some (entries.set name (.table origin inner))
    | some (.tables elements) => do
      let last ← modifyAt dotted change false path (elements.getLast?.getD [])
      some (entries.set name (.tables (elements.dropLast ++ [last])))

/-- Adds an entry under a dotted key: the names in front lead to tables that dotted keys made. -/
def addEntry (path : List String) (name : String) (v : Toml) (entries : Entries) :
    Option Entries :=
  let add (isDotted : Bool) (inner : Entries) : Option Entries :=
    if (path.isEmpty || isDotted) && (inner.find? name).isNone then
      some (inner.set name (.value v))
    else none
  modifyAt true add false path entries

/-- Adds a table with a header, or gives the header to a table that was implied. -/
def addTable (path : List String) (name : String) (entries : Entries) : Option Entries :=
  let add (_ : Bool) (inner : Entries) : Option Entries :=
    match inner.find? name with
    | none => some (inner.set name (.table .header []))
    | some (.table .implied old) => some (inner.set name (.table .header old))
    | _ => none
  modifyAt false add false path entries

def addElement (path : List String) (name : String) (entries : Entries) : Option Entries :=
  let add (_ : Bool) (inner : Entries) : Option Entries :=
    match inner.find? name with
    | none => some (inner.set name (.tables [[]]))
    | some (.tables elements) => some (inner.set name (.tables (elements ++ [[]])))
    | _ => none
  modifyAt false add false path entries

end Entries

mutual

/-- The value that a node stands for. Several tables under one name are an array. -/
def Node.toToml : Node → Toml
  | .value v => v
  | .table _ entries => .table (entriesToToml entries)
  | .tables elements => .array (elementsToToml elements)

def entriesToToml : List (String × Node) → List (String × Toml)
  | [] => []
  | (name, node) :: rest => (name, node.toToml) :: entriesToToml rest

def elementsToToml : List (List (String × Node)) → List Toml
  | [] => []
  | entries :: rest => .table (entriesToToml entries) :: elementsToToml rest

end

end Abacus.Toml
