import Abacus.Files.Basic
import Abacus.NumberMode
import Abacus.Value.Format

/-!
# Settings

What the user sets: the precision and the number mode, the prompt, and the journal with its limit
and its file. A precision beyond the greatest one is refused.
-/

namespace Abacus

structure Settings where
  precision : Nat
  mode : NumberMode
  prompt : String
  historyLimit : Nat
  historyFile : Option Path
deriving DecidableEq

inductive SettingsError where
  | unreadable (file : Path) (fault : FileFault)
  | malformed (file : Path)
  | invalidPrecision (precision : Nat)

def SettingsError.message : SettingsError → String
  | .unreadable file fault => "Failed to read config file " ++ file.text ++ ": " ++ fault.message
  | .malformed file => "Failed to parse config file " ++ file.text ++ ": not a valid configuration"
  | .invalidPrecision precision =>
    "Precision " ++ toString precision ++ " is out of range (at most " ++
      toString Value.maxPrecision ++ ")"

structure Overrides where
  precision : Option Nat
  mode : Option NumberMode
deriving DecidableEq

namespace Settings

def default : Settings := ⟨Value.defaultPrecision, .exact, "arith", 100, none⟩

def validate (s : Settings) : Except SettingsError Settings :=
  if s.precision ≤ Value.maxPrecision then .ok s else .error (.invalidPrecision s.precision)

def override (s : Settings) (o : Overrides) : Except SettingsError Settings :=
  validate { s with precision := o.precision.getD s.precision, mode := o.mode.getD s.mode }

/-- The file of the journal. A relative path starts at the directory of the settings. -/
def historyPath (s : Settings) (directory : Path) : Option Path :=
  s.historyFile.map directory.join

end Settings

end Abacus
