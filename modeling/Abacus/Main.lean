import Abacus.Program.Run
import Std.Time.DateTime.Timestamp

/-!
# The command line

The program on the real files and the real terminal.
-/

namespace Abacus

def attempt {α : Type} (action : IO α) : IO (Except FileFault α) := do
  try
    return .ok (← action)
  catch e =>
    return .error (.other (toString e))

instance : FileStore IO where
  present p := do
    try
      let _ ← IO.FS.Handle.mk p.text .read
      return true
    catch e =>
      match e with
      | .permissionDenied .. => return true
      | _ => return false
  read p := attempt (IO.FS.readBinFile p.text)
  makeDirectories p := attempt (IO.FS.createDirAll p.text)
  write p content := attempt (IO.FS.writeBinFile p.text content)
  rename source target := attempt (IO.FS.rename source.text target.text)

def currentInstant : IO Instant := do
  return .ofNanoseconds (← Std.Time.Timestamp.now).toNanosecondsSinceUnixEpoch.val

/-- Reads the clock once for each of some lines. -/
def readClock (lines : Nat) : IO Clock := do
  let times ← (List.range lines).mapM fun _ => currentInstant
  let last ← currentInstant
  return ⟨fun i => times.getD i last⟩

def printNotes (verbose : Bool) (notes : List Note) : IO Unit := do
  for note in notes do
    match note with
    | .warning text => IO.eprintln (" WARN " ++ text)
    | .detail text => if verbose then IO.eprintln (" INFO " ++ text)

def fail (failure : Failure) : IO UInt32 := do
  IO.eprintln ("Error: " ++ failure.message)
  return 1

/-- Reads lines from the terminal until one of them ends the session or there are no more. The
journal is saved after each line that has an answer. -/
partial def converse (prompt : String) (precision : Nat) (n : Notebook) : IO UInt32 := do
  let stdout ← IO.getStdout
  stdout.putStr (prompt ++ "> ")
  stdout.flush
  let line ← (← IO.getStdin).getLine
  let now ← currentInstant
  let (reaction, next) := if line.isEmpty then (.leave, n) else n.handleLine now precision line
  match reaction with
  | .silent => converse prompt precision next
  | .leave =>
    match ← next.journal.save with
    | .ok () => return 0
    | .error e => fail (.journal e)
  | .output text =>
    stdout.putStrLn text
    match ← next.journal.save with
    | .ok () => converse prompt precision next
    | .error e => fail (.journal e)

def finish (verbose : Bool) (r : Report) : IO UInt32 := do
  printNotes verbose r.notes
  IO.print r.outputText
  match r.failure with
  | none => return 0
  | some failure => fail failure

def runArguments (arguments : List String) : IO UInt32 := do
  match Request.parse arguments with
  | .error .help =>
    IO.println helpPage
    return 0
  | .error .version =>
    IO.println versionText
    return 0
  | .error .misuse =>
    IO.eprintln helpPage
    return 2
  | .ok request =>
    let directory : Path := ⟨toString (← IO.currentDir)⟩
    let outcome ← request.run (← readClock arguments.length) directory
    match outcome, ← (← IO.getStdin).isTty with
    | .conversation c, true =>
      printNotes request.verbose c.notes
      IO.println c.greeting
      converse c.prompt c.precision c.notebook
    | _, _ => finish request.verbose outcome.withoutTerminal

end Abacus

def main (arguments : List String) : IO UInt32 := Abacus.runArguments arguments
