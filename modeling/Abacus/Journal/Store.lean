import Abacus.Files.Basic
import Abacus.Journal.Basic

/-!
# Journals in files

The file of a journal holds the list of its entries in JSON. It is written beside its place and then
moved there, so that a write that fails leaves the old file as it was.
-/

namespace Abacus

inductive JournalError where
  | unreadable (file : Path) (fault : FileFault)
  | unwritable (file : Path) (fault : FileFault)
  | malformed (file : Path)

def JournalError.message : JournalError → String
  | .unreadable file fault => "Failed to read history file " ++ file.text ++ ": " ++ fault.message
  | .unwritable file fault => "Failed to write history file " ++ file.text ++ ": " ++ fault.message
  | .malformed file => "Failed to parse history file " ++ file.text ++ ": not a list of entries"

namespace Journal

def render (entries : List Entry) : String := (Json.array (entries.map Entry.toJson)).indented

/-- The entries in the content of a journal file, which may be blank. -/
def parse? (text : String) : Option (List Entry) :=
  if Text.isBlankText text then some []
  else
    match Json.read? text with
    | some (.array items) => items.mapM Entry.ofJson?
    | _ => none

def temporary (file : Path) : Path := file.withExtension "json.tmp"

variable {m : Type → Type} [Monad m] [FileStore m]

/-- The journal of a file. A file that is missing holds no entries. -/
def load (file : Path) (limit : Nat) : m (Except JournalError Journal) := do
  if ← FileStore.present file then
    match ← FileStore.read file with
    | .error fault => return .error (.unreadable file fault)
    | .ok content =>
      match String.fromUTF8? content with
      | none => return .error (.unreadable file .notText)
      | some text =>
        match parse? text with
        | none => return .error (.malformed file)
        | some entries => return .ok (ofEntries (some file) limit entries)
  else return .ok (empty (some file) limit)

def ensureDirectory (file : Path) : m (Except JournalError Unit) := do
  match file.parent? with
  | none => return .ok ()
  | some directory =>
    if directory.text.isEmpty then return .ok ()
    else if ← FileStore.present directory then return .ok ()
    else
      match ← FileStore.makeDirectories directory with
      | .error fault => return .error (.unwritable directory fault)
      | .ok () => return .ok ()

/-- Writes a content beside a file and moves it there. -/
def replaceContent (file : Path) (content : ByteArray) : m (Except JournalError Unit) := do
  match ← FileStore.write (temporary file) content with
  | .error fault => return .error (.unwritable (temporary file) fault)
  | .ok () =>
    match ← FileStore.rename (temporary file) file with
    | .error fault => return .error (.unwritable file fault)
    | .ok () => return .ok ()

def save (j : Journal) : m (Except JournalError Unit) := do
  match j.file with
  | none => return .ok ()
  | some file =>
    match ← ensureDirectory file with
    | .error e => return .error e
    | .ok () => replaceContent file (render j.entries).toUTF8

end Journal

end Abacus
