import Abacus.Operation
import Abacus.Settings.Basic

/-!
# Requests

What a command line asks for. Its arguments are read one after the other; options may stand before
the command and behind it, and the value nearer to the command line's end counts when both places
have one. Operands may begin with a hyphen unless they are options, and once an expression has been
given, all that follows are expressions.
-/

namespace Abacus

inductive Action where
  | calculate (op : Operation) (lhs rhs : String)
  | evaluate (expressions : List String) (json : Bool)
  | prompt
  | showHistory (clear : Bool)
  | writeSettings (force : Bool)

structure Request where
  action : Action
  overrides : Overrides
  verbose : Bool

inductive Refusal where
  | help
  | version
  | misuse
deriving DecidableEq

namespace Request

inductive Verb where
  | calc
  | eval
  | repl
  | history
  | init
  | help
deriving DecidableEq

namespace Verb

def all : List Verb := [.calc, .eval, .repl, .history, .init, .help]

def name : Verb → String
  | .calc => "calc"
  | .eval => "eval"
  | .repl => "repl"
  | .history => "history"
  | .init => "init"
  | .help => "help"

def ofName? (text : String) : Option Verb := all.find? (·.name == text)

/-- The option that only this command has. -/
def ownOption : Verb → Option String
  | .eval => some "json"
  | .history => some "clear"
  | .init => some "force"
  | _ => none

end Verb

inductive ValueOption where
  | precision
  | mode
deriving DecidableEq

def ValueOption.ofName? : String → Option ValueOption
  | "precision" => some .precision
  | "mode" => some .mode
  | _ => none

/-- The options that were given at one place. -/
structure Given where
  overrides : Overrides
  verbose : Bool

def Given.none : Given := ⟨⟨Option.none, Option.none⟩, false⟩

structure Scan where
  outer : Given
  inner : Given
  verb : Option Verb
  own : Bool
  operands : List String
  pending : Option ValueOption
  literal : Bool

def Scan.start : Scan := ⟨.none, .none, none, false, [], none, false⟩

namespace Scan

def given (s : Scan) : Given := if s.verb.isSome then s.inner else s.outer

def setGiven (s : Scan) (g : Given) : Scan :=
  if s.verb.isSome then { s with inner := g } else { s with outer := g }

/-- A natural number of a 64-bit word, perhaps with a plus sign. -/
def readWord64 (text : String) : Option Nat :=
  let digits :=
    match text.toList with
    | '+' :: rest => rest
    | cs => cs
  if !digits.isEmpty && digits.all isDigit then
    (Word.ofInt? Width.word64 (Nat.ofDigitChars 10 digits 0)).map (·.val.toNat)
  else none

/-- Takes the value of an option, which may be given once at each place. -/
def setValue (s : Scan) (o : ValueOption) (text : String) : Except Refusal Scan :=
  let g := s.given
  match o with
  | .precision =>
    match readWord64 text, g.overrides.precision with
    | some n, none =>
      .ok { s.setGiven { g with overrides := { g.overrides with precision := some n } } with
        pending := none }
    | _, _ => .error .misuse
  | .mode =>
    match NumberMode.ofName? text, g.overrides.mode with
    | some mode, none =>
      .ok { s.setGiven { g with overrides := { g.overrides with mode := some mode } } with
        pending := none }
    | _, _ => .error .misuse

def setVerbose (s : Scan) : Except Refusal Scan :=
  if s.given.verbose then .error .misuse else .ok (s.setGiven { s.given with verbose := true })

def hasRoom (s : Scan) : Bool :=
  match s.verb with
  | some .calc => s.operands.length < 3
  | some .eval => true
  | some .help => true
  | _ => false

/-- Adds an operand. The first one of a calculation names the operation. -/
def addOperand (s : Scan) (text : String) : Except Refusal Scan :=
  let isNamed : Bool :=
    s.verb != some .calc || !s.operands.isEmpty || (Operation.read text).toOption.isSome
  if s.hasRoom && isNamed then .ok { s with operands := s.operands ++ [text] } else .error .misuse

def addUnknown (s : Scan) (text : String) : Except Refusal Scan :=
  if s.hasRoom then s.addOperand text else .error .misuse

def addLong (s : Scan) (text : String) (name : String) (value? : Option String) :
    Except Refusal Scan :=
  match ValueOption.ofName? name, value? with
  | some o, some value => s.setValue o value
  | some o, none => .ok { s with pending := some o }
  | none, value? =>
    let isFlag : Bool :=
      name == "verbose" || name == "help" || (name == "version" && s.verb.isNone) ||
        s.verb.any fun verb => verb.ownOption == some name
    if !isFlag then s.addUnknown text
    else if value?.isSome then .error .misuse
    else if name = "verbose" then s.setVerbose
    else if name = "help" then .error .help
    else if name = "version" then .error .version
    else if s.own then .error .misuse
    else .ok { s with own := true }

def addShort (s : Scan) : List Char → Except Refusal Scan
  | [] => .ok s
  | c :: rest =>
    if c = 'v' then do addShort (← s.setVerbose) rest
    else if c = 'h' then .error .help
    else if c = 'V' ∧ s.verb.isNone then .error .version
    else .error .misuse

def isShort (s : Scan) (c : Char) : Bool := c == 'v' || c == 'h' || (c == 'V' && s.verb.isNone)

def add (s : Scan) (text : String) : Except Refusal Scan :=
  let expressionsOnly := s.verb == some .help || (s.verb == some .eval && !s.operands.isEmpty)
  match s.pending, text.toList with
  | some o, _ => s.setValue o text
  | none, cs =>
    if s.literal || expressionsOnly then s.addOperand text
    else
      match s.verb, Verb.ofName? text with
      | none, some verb => .ok { s with verb := some verb }
      | _, _ =>
        match cs with
        | ['-', '-'] => .ok { s with literal := true }
        | '-' :: '-' :: rest =>
          let name := rest.takeWhile (· ≠ '=')
          let value? := (rest.drop name.length).tail?
          s.addLong text (String.ofList name) (value?.map String.ofList)
        | '-' :: c :: rest =>
          if s.hasRoom && (c :: rest).any fun c => !s.isShort c then s.addOperand text
          else s.addShort (c :: rest)
        | _ => s.addOperand text

/-- The options that apply: those behind the command before those in front of it. -/
def overrides (s : Scan) : Overrides :=
  ⟨s.inner.overrides.precision.or s.outer.overrides.precision,
    s.inner.overrides.mode.or s.outer.overrides.mode⟩

def action (s : Scan) : Except Refusal Action :=
  match s.verb, s.operands with
  | some .calc, [op, lhs, rhs] =>
    match Operation.read op with
    | .ok op => .ok (.calculate op lhs rhs)
    | .error _ => .error .misuse
  | some .eval, expression :: more => .ok (.evaluate (expression :: more) s.own)
  | some .repl, [] => .ok .prompt
  | some .history, [] => .ok (.showHistory s.own)
  | some .init, [] => .ok (.writeSettings s.own)
  | some .help, [] => .error .help
  | some .help, [name] => .error (if (Verb.ofName? name).isSome then .help else .misuse)
  | _, _ => .error .misuse

end Scan

def parse (arguments : List String) : Except Refusal Request := do
  let s ← arguments.foldlM Scan.add .start
  if s.pending.isSome then .error .misuse
  else .ok ⟨← s.action, s.overrides, s.outer.verbose || s.inner.verbose⟩

end Request

def versionText : String := "arith 0.1.0"

def helpPage : String :=
  String.intercalate "\n"
    ["Checked arithmetic library and expression calculator CLI", "",
      "Usage: arith [OPTIONS] <COMMAND>", "",
      "Commands:",
      "  calc     Apply one operation to two numbers",
      "  eval     Evaluate one or more expressions in a single session",
      "  repl     Start an interactive session",
      "  history  Show the persisted history",
      "  init     Create arith.toml in the current directory",
      "  help     Print this message", "",
      "Options:",
      "  -v, --verbose                Enable verbose output",
      "      --precision <PRECISION>  Override the number of fractional digits shown",
      "      --mode <MODE>            Override the number mode [possible values: exact, float]",
      "  -h, --help                   Print help",
      "  -V, --version                Print version"]

end Abacus
