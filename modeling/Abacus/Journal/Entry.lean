import Abacus.Time.Instant
import Abacus.Value.Format
import Abacus.Value.Json

/-!
# Journal entries

One evaluated line with its result or its error and the time, as text and in JSON.
-/

namespace Abacus

structure Entry where
  expression : String
  result : Option Value
  error : Option String
  time : Instant

namespace Entry

def success (time : Instant) (line : String) (result : Value) : Entry :=
  ⟨Text.trim line, some result, none, time⟩

def failure (time : Instant) (line : String) (error : String) : Entry :=
  ⟨Text.trim line, none, some error, time⟩

def isSuccess (e : Entry) : Bool := e.result.isSome

def displayLine (precision : Nat) (e : Entry) : String :=
  match e.result, e.error with
  | some v, _ => e.expression ++ " = " ++ v.format precision
  | none, some error => e.expression ++ " -> error: " ++ error
  | none, none => e.expression

def toJson (e : Entry) : Json :=
  .record
    ([("expression", .text e.expression)] ++
      (e.result.map fun v => ("result", v.toJson)).toList ++
      (e.error.map fun text => ("error", .text text)).toList ++
      [("evaluated_at", .text e.time.text)])

def readOptional {α : Type} (read : Json → Option α) (j? : Option Json) : Option (Option α) :=
  match j? with
  | none => some none
  | some .null => some none
  | some j => (read j).map some

def ofParts? (expression result error time : Option Json) : Option Entry := do
  let expression ← (← expression).getText?
  let result ← readOptional Value.ofJson? result
  let error ← readOptional Json.getText? error
  let time ← Instant.read? (← (← time).getText?)
  some ⟨expression, result, error, time⟩

/-- The member of a name, which may occur only once. -/
def member? (members : List (String × Json)) (name : String) : Option (Option Json) :=
  match members.filter (·.1 == name) with
  | [] => some none
  | [(_, j)] => some (some j)
  | _ => none

/-- Reads an entry: an object with its parts and perhaps more, or the parts in order. -/
def ofJson? : Json → Option Entry
  | .object members => do
    let members ← members.mapM fun (name?, j) => name?.map (·, j)
    ofParts? (← member? members "expression") (← member? members "result")
      (← member? members "error") (← member? members "evaluated_at")
  | .array [expression, result, error, time] =>
    ofParts? (some expression) (some result) (some error) (some time)
  | _ => none

end Entry

end Abacus
