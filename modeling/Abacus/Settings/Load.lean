import Abacus.Journal.Store
import Abacus.Settings.Toml

/-!
# Loading settings

The settings of a directory stand in one of its files; without that file the defaults apply.
-/

namespace Abacus.Settings

def fileName : Path := ⟨"arith.toml"⟩

variable {m : Type → Type} [Monad m] [FileStore m]

def loadFile (file : Path) : m (Except SettingsError Settings) := do
  match ← FileStore.read file with
  | .error fault => return .error (.unreadable file fault)
  | .ok content =>
    match String.fromUTF8? content with
    | none => return .error (.unreadable file .notText)
    | some text =>
      match parse? text with
      | none => return .error (.malformed file)
      | some s => return s.validate

def loadDirectory (directory : Path) : m (Except SettingsError Settings) := do
  if ← FileStore.present (directory.join fileName) then loadFile (directory.join fileName)
  else return .ok default

def load (directory : Path) (overrides : Overrides) : m (Except SettingsError Settings) := do
  return (← loadDirectory directory).bind (·.override overrides)

def openJournal (s : Settings) (directory : Path) : m (Except JournalError Journal) := do
  match s.historyPath directory with
  | some file => Journal.load file s.historyLimit
  | none => return .ok (.inMemory s.historyLimit)

end Abacus.Settings
