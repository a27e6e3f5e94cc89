/-!
# Number modes

In exact mode integers stay integers while their results are exact. In float mode everything is a
double.
-/

namespace Abacus

inductive NumberMode where
  | exact
  | float
deriving DecidableEq, Repr

namespace NumberMode

def all : List NumberMode := [.exact, .float]

def name : NumberMode → String
  | .exact => "exact"
  | .float => "float"

def ofName? (text : String) : Option NumberMode := all.find? (·.name == text)

@[simp] theorem ofName?_name (mode : NumberMode) : ofName? mode.name = some mode := by
  cases mode <;> decide

end NumberMode

end Abacus
