import Abacus.Notebook.Basic

/-!
# The prompt

The lines of an interactive session: a few commands, and everything else is evaluated. Commands are
not entered into the journal.
-/

namespace Abacus

inductive Reaction where
  | output (text : String)
  | silent
  | leave
deriving DecidableEq

inductive Command where
  | exit
  | help
  | clear
  | reset
  | bindings
  | history
deriving DecidableEq

def Command.ofText? : String → Option Command
  | "exit" => some .exit
  | "quit" => some .exit
  | "help" => some .help
  | "clear" => some .clear
  | "reset" => some .reset
  | "vars" => some .bindings
  | "history" => some .history
  | _ => none

def alignRight (width : Nat) (text : String) : String :=
  String.ofList (List.replicate (width - text.length) ' ') ++ text

def lines (texts : List String) : String := String.intercalate "\n" texts

def commaSeparated (texts : List String) : String := String.intercalate ", " texts

def helpText : String :=
  lines
    ["Operators: " ++
        commaSeparated (Operation.all.map fun op => op.symbol.toString ++ " (" ++ op.name ++ ")"),
      "Functions: " ++ commaSeparated (Function.all.map Function.name),
      "Constants: " ++ commaSeparated (constants.map (·.1) ++ [answerName]),
      "Assign with: name = expression",
      "Commands: clear, reset, vars, history, help, exit"]

namespace Notebook

def variablesText (precision : Nat) (n : Notebook) : String :=
  match n.session.bindings.entries with
  | [] => "No variables defined"
  | entries => lines (entries.map fun (name, v) => name ++ " = " ++ v.format precision)

def historyText (precision : Nat) (n : Notebook) : String :=
  match n.journal.entries with
  | [] => "History is empty"
  | entries =>
    lines (entries.zipIdx.map fun (e, i) =>
      alignRight 3 (toString (i + 1)) ++ "  " ++ e.displayLine precision)

def obey (precision : Nat) (n : Notebook) : Command → Reaction × Notebook
  | .exit => (.leave, n)
  | .help => (.output helpText, n)
  | .clear => (.output "ans cleared", { n with session := n.session.clear })
  | .reset => (.output "Session reset", { n with session := n.session.reset })
  | .bindings => (.output (n.variablesText precision), n)
  | .history => (.output (n.historyText precision), n)

def outcomeText (precision : Nat) : Except EvalError Value → String
  | .ok v => v.format precision
  | .error e => "Error: " ++ e.message

def handleLine (time : Instant) (precision : Nat) (n : Notebook) (line : String) :
    Reaction × Notebook :=
  let input := Text.trim line
  if input.isEmpty then (.silent, n)
  else
    match Command.ofText? input with
    | some command => n.obey precision command
    | none =>
      let (outcome, next) := n.eval time input
      (.output (outcomeText precision outcome), next)

end Notebook

end Abacus
