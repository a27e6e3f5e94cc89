import Abacus.Notebook.Prompt
import Abacus.Program.Request
import Abacus.Session.Operand
import Abacus.Settings.Load

/-!
# Running requests

A request is carried out in a directory, on a store of files. What it prints and whether it fails
make up its report; an interactive session is handed on to whoever owns the terminal.
-/

namespace Abacus

inductive Failure where
  | evaluation (e : EvalError)
  | settings (e : SettingsError)
  | journal (e : JournalError)
  | settingsExist (file : Path)
  | refused (fault : FileFault)
  | noTerminal

def Failure.message : Failure → String
  | .evaluation e => e.message
  | .settings e => "Configuration error: " ++ e.message
  | .journal e => "History error: " ++ e.message
  | .settingsExist file => "Config file already exists: " ++ file.text
  | .refused fault => "IO error: " ++ fault.message
  | .noTerminal => "Prompt error: not a terminal"

/-- A remark beside the output. Details are for those who ask for them. -/
inductive Note where
  | warning (text : String)
  | detail (text : String)
deriving DecidableEq

structure Report where
  output : List String
  notes : List Note
  failure : Option Failure

namespace Report

def success (output : List String) : Report := ⟨output, [], none⟩

def failed (failure : Failure) : Report := ⟨[], [], some failure⟩

def outputText (r : Report) : String := String.join (r.output.map (· ++ "\n"))

def errorText (r : Report) : Option String := r.failure.map fun f => "Error: " ++ f.message

def exitCode (r : Report) : Nat := if r.failure.isSome then 1 else 0

end Report

structure Conversation where
  greeting : String
  notes : List Note
  prompt : String
  precision : Nat
  notebook : Notebook

inductive Outcome where
  | report (r : Report)
  | conversation (c : Conversation)

/-- What is left of an outcome where there is no terminal. -/
def Outcome.withoutTerminal : Outcome → Report
  | .report r => r
  | .conversation c => ⟨[c.greeting], c.notes, some .noTerminal⟩

def Outcome.noting (note : Note) : Outcome → Outcome
  | .report r => .report { r with notes := note :: r.notes }
  | .conversation c => .conversation { c with notes := note :: c.notes }

namespace Request

variable {m : Type → Type} [Monad m] [FileStore m]

def greeting : String := "arith: type an expression, 'help' for commands, 'exit' to quit"

/-- Evaluates expressions in a new session. The journal is saved also when one of them fails, and a
journal that cannot be saved is no failure. -/
def evaluate (clock : Clock) (settings : Settings) (directory : Path) (expressions : List String)
    (json : Bool) : m Report := do
  match ← settings.openJournal directory with
  | .error e => return .failed (.journal e)
  | .ok journal =>
    let (result, notebook) :=
      (Notebook.fresh settings.mode journal).evalAll clock settings.precision expressions
    let notes : List Note :=
      match ← notebook.journal.save with
      | .ok () => []
      | .error e => [.warning ("Could not save history: " ++ e.message)]
    match result with
    | .error e => return ⟨[], notes, some (.evaluation e)⟩
    | .ok answers =>
      return ⟨answers.map fun a => if json then a.toJson.compact else a.formatted, notes, none⟩

def listing (precision : Nat) (entries : List Entry) : List String :=
  let failures := entries.countP fun e => !e.isSuccess
  let summary : String :=
    toString failures ++ " of " ++ toString entries.length ++ " entries failed"
  ["=== arith history ===", ""] ++
    entries.map (fun e => e.time.shortText ++ "  " ++ e.displayLine precision) ++
    (if failures = 0 then [] else ["", summary])

def showHistory (settings : Settings) (directory : Path) (clear : Bool) : m Report := do
  match ← settings.openJournal directory with
  | .error e => return .failed (.journal e)
  | .ok journal =>
    if journal.file.isNone then
      return .success
        ["History is not persisted. Set repl.history_file in arith.toml to keep it."]
    else if clear then
      match ← journal.clear.save with
      | .error e => return .failed (.journal e)
      | .ok () =>
        return .success ["Cleared " ++ toString journal.entries.length ++ " history entries"]
    else if journal.entries.isEmpty then return .success ["History is empty."]
    else return .success (listing settings.precision journal.entries)

/-- Writes a file of settings, over an old one only by force. The number mode has to be given where
it cannot be asked for. -/
def writeSettings (directory : Path) (mode? : Option NumberMode) (force : Bool) : m Report := do
  let file := directory.join Settings.fileName
  if (← FileStore.present file) && !force then return .failed (.settingsExist file)
  else
    match mode? with
    | none => return .failed .noTerminal
    | some mode =>
      match ← FileStore.write file (Settings.template mode).toUTF8 with
      | .error fault => return .failed (.refused fault)
      | .ok () => return .success ["Created " ++ file.text]

def converse (settings : Settings) (directory : Path) : m Outcome := do
  match ← settings.openJournal directory with
  | .error e => return .report (.failed (.journal e))
  | .ok journal =>
    return .conversation
      ⟨greeting, [], settings.prompt, settings.precision, .fresh settings.mode journal⟩

def calculation (settings : Settings) (op : Operation) (lhs rhs : String) : Report :=
  match calculate settings.mode settings.precision op lhs rhs with
  | .ok text => .success [text]
  | .error e => .failed (.evaluation e)

def settingsNote (settings : Settings) : Note :=
  .detail ("Configuration loaded: mode=" ++ settings.mode.name ++ ", precision=" ++
    toString settings.precision)

def withSettings (directory : Path) (overrides : Overrides) (next : Settings → m Outcome) :
    m Outcome := do
  match ← Settings.load directory overrides with
  | .error e => return .report (.failed (.settings e))
  | .ok settings => return (← next settings).noting (settingsNote settings)

/-- Carries out a request in a directory. New settings are written without reading the old ones. -/
def run (clock : Clock) (directory : Path) (r : Request) : m Outcome :=
  match r.action with
  | .writeSettings force => do
    return .report (← writeSettings directory r.overrides.mode force)
  | .calculate op lhs rhs =>
    withSettings directory r.overrides fun settings =>
      return .report (calculation settings op lhs rhs)
  | .evaluate expressions json =>
    withSettings directory r.overrides fun settings =>
      return .report (← evaluate clock settings directory expressions json)
  | .showHistory clear =>
    withSettings directory r.overrides fun settings =>
      return .report (← showHistory settings directory clear)
  | .prompt => withSettings directory r.overrides fun settings => converse settings directory

end Request

end Abacus
