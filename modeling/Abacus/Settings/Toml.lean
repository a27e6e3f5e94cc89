import Abacus.Settings.Basic
import Abacus.Toml.Reader

/-!
# Settings in TOML

The settings stand in three sections. What is missing has its default, and what is not known is
ignored. A section may also be an array of its fields in order.
-/

namespace Abacus

namespace Toml

def lookup? (entries : List (String × Toml)) (name : String) : Option Toml :=
  (entries.find? (·.1 == name)).map (·.2)

def readField {α : Type} (read : Toml → Option α) (fallback : α) : Option Toml → Option α
  | none => some fallback
  | some v => read v

/-- The fields of a section with the given names, in their order. A date has none of them. -/
def fields? (names : List String) : Option Toml → Option (List (Option Toml))
  | none => some (names.map fun _ => none)
  | some (.table entries) => some (names.map (lookup? entries))
  | some (.array items) => some ((List.range names.length).map fun i => items[i]?)
  | some (.moment _) => some (names.map fun _ => none)
  | some _ => none

def getNat? : Toml → Option Nat
  | .integer n => if 0 ≤ n then some n.toNat else none
  | _ => none

def getText? : Toml → Option String
  | .string s => some s
  | _ => none

def isEmptyGroup : Toml → Bool
  | .table [] => true
  | .array [] => true
  | _ => false

/-- The name of an alternative: a string, or a table with that name and nothing in it. -/
def getAlternative? : Toml → Option String
  | .string s => some s
  | .table [(name, v)] => if v.isEmptyGroup then some name else none
  | _ => none

end Toml

namespace Settings

open Toml (readField fields? lookup?)

def readMode (v : Toml) : Option NumberMode := v.getAlternative?.bind NumberMode.ofName?

def ofToml? : Toml → Option Settings
  | .table entries => do
    match ← fields? ["precision"] (lookup? entries "display"),
      ← fields? ["mode"] (lookup? entries "numbers"),
      ← fields? ["prompt", "history_limit", "history_file"] (lookup? entries "repl") with
    | [precision], [mode], [prompt, limit, file] =>
      let precision ← readField Toml.getNat? default.precision precision
      let mode ← readField readMode default.mode mode
      let prompt ← readField Toml.getText? default.prompt prompt
      let limit ← readField Toml.getNat? default.historyLimit limit
      let file ← readField (fun v => v.getText?.map fun s => some ⟨s⟩) default.historyFile file
      some ⟨precision, mode, prompt, limit, file⟩
    | _, _, _ => none
  | _ => none

def parse? (text : String) : Option Settings := (Toml.read? text).bind ofToml?

def template (mode : NumberMode) : String :=
  "# arith configuration\n\n" ++
  "[display]\n" ++
  "# Maximum fractional digits shown for decimal results\n" ++
  "precision = 10\n\n" ++
  "[numbers]\n" ++
  "# \"exact\": integers stay integers while results are exact, overflow is an error\n" ++
  "# \"float\": everything is evaluated as a 64-bit float\n" ++
  "mode = \"" ++ mode.name ++ "\"\n\n" ++
  "[repl]\n" ++
  "prompt = \"arith\"\n" ++
  "history_limit = 100\n" ++
  "# Uncomment to keep history between sessions\n" ++
  "# history_file = \".arith_history.json\"\n"

end Settings

end Abacus
