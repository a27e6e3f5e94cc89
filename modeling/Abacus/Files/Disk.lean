import Abacus.Files.Basic

/-!
# Disks

A file tree as a value, in which every operation of a store is a function.
-/

namespace Abacus

abbrev Location := List String

inductive Node where
  | directory
  | file (content : ByteArray)

/-- A tree of files. A write of more bytes than `sizeLimit` stores those that fit and fails. -/
structure Disk where
  nodes : List (Location × Node)
  sizeLimit : Option Nat

namespace Disk

def empty : Disk := ⟨[], none⟩

def node? (d : Disk) (l : Location) : Option Node :=
  if l = [] then some .directory else (d.nodes.find? (·.1 = l)).map (·.2)

def erase (d : Disk) (l : Location) : Disk := { d with nodes := d.nodes.filter (·.1 ≠ l) }

def put (d : Disk) (l : Location) (n : Node) : Disk :=
  { d with nodes := (d.erase l).nodes ++ [(l, n)] }

def maxName : Nat := 255

def maxPath : Nat := 4095

def segments (p : Path) : Except FileFault (List String) :=
  if p.text.isEmpty then .error .notFound
  else if p.text.toList.contains '\x00' then .error .nameWithNul
  else if maxPath < p.text.utf8ByteSize then .error .nameTooLong
  else .ok p.segments

def enter (d : Disk) (l : Location) (segment : String) : Except FileFault Location :=
  if segment = "" ∨ segment = "." then .ok l
  else if segment = ".." then .ok l.dropLast
  else if maxName < segment.utf8ByteSize then .error .nameTooLong
  else
    match d.node? (l ++ [segment]) with
    | some .directory => .ok (l ++ [segment])
    | some (.file _) => .error .notDirectory
    | none => .error .notFound

/-- The directory in which a path ends, and the name in it; there is no name if the path ends in a
part that can only be a directory. Paths start at the root. -/
def locate (d : Disk) (p : Path) : Except FileFault (Location × Option String) := do
  let parts ← segments p
  let directory ← parts.dropLast.foldlM d.enter []
  match parts.getLast? with
  | none => .ok (directory, none)
  | some last =>
    if last = "" ∨ last = "." then .ok (directory, none)
    else if last = ".." then .ok (directory.dropLast, none)
    else if maxName < last.utf8ByteSize then .error .nameTooLong
    else .ok (directory, some last)

def present (d : Disk) (p : Path) : Bool :=
  match d.locate p with
  | .ok (_, none) => true
  | .ok (l, some name) => (d.node? (l ++ [name])).isSome
  | .error _ => false

def fileAt (d : Disk) (p : Path) : Except FileFault (Location × ByteArray) := do
  match ← d.locate p with
  | (_, none) => .error .isDirectory
  | (l, some name) =>
    match d.node? (l ++ [name]) with
    | some (.file content) => .ok (l ++ [name], content)
    | some .directory => .error .isDirectory
    | none => .error .notFound

def read (d : Disk) (p : Path) : Except FileFault ByteArray := (d.fileAt p).map (·.2)

def enterMaking (d : Disk) (l : Location) (segment : String) : Except FileFault Location × Disk :=
  match d.enter l segment with
  | .error .notFound => (.ok (l ++ [segment]), d.put (l ++ [segment]) .directory)
  | result => (result, d)

def makeAlong (d : Disk) (l : Location) : List String → Except FileFault Unit × Disk
  | [] => (.ok (), d)
  | segment :: rest =>
    match d.enterMaking l segment with
    | (.ok next, made) => makeAlong made next rest
    | (.error e, made) => (.error e, made)

def makeDirectories (d : Disk) (p : Path) : Except FileFault Unit × Disk :=
  match segments p with
  | .ok parts => d.makeAlong [] parts
  | .error e => (.error e, d)

def store (d : Disk) (l : Location) (content : ByteArray) : Except FileFault Unit × Disk :=
  match d.sizeLimit with
  | none => (.ok (), d.put l (.file content))
  | some limit =>
    if content.size ≤ limit then (.ok (), d.put l (.file content))
    else (.error .noSpace, d.put l (.file (content.extract 0 limit)))

def write (d : Disk) (p : Path) (content : ByteArray) : Except FileFault Unit × Disk :=
  match d.locate p with
  | .ok (_, none) => (.error .isDirectory, d)
  | .ok (l, some name) =>
    match d.node? (l ++ [name]) with
    | some .directory => (.error .isDirectory, d)
    | _ => d.store (l ++ [name]) content
  | .error e => (.error e, d)

def moveTarget (d : Disk) (p : Path) : Except FileFault Location := do
  match ← d.locate p with
  | (_, none) => .error .notDirectory
  | (l, some name) =>
    match d.node? (l ++ [name]) with
    | some .directory => .error .isDirectory
    | _ => .ok (l ++ [name])

def rename (d : Disk) (source target : Path) : Except FileFault Unit × Disk :=
  match d.fileAt source, d.moveTarget target with
  | .error e, _ => (.error e, d)
  | _, .error e => (.error e, d)
  | .ok (old, content), .ok new => (.ok (), (d.erase old).put new (.file content))

end Disk

abbrev OnDisk := StateM Disk

namespace OnDisk

/-- An operation that may change the disk. -/
def change {α : Type} (f : Disk → α × Disk) : OnDisk α := f

end OnDisk

instance : FileStore OnDisk where
  present p := do return (← get).present p
  read p := do return (← get).read p
  makeDirectories p := OnDisk.change (·.makeDirectories p)
  write p content := OnDisk.change (·.write p content)
  rename source target := OnDisk.change (·.rename source target)

end Abacus
