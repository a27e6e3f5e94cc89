import Abacus.Value.Basic

/-!
# Bindings

Variables and their values, in ascending order of the names. A name is bound at most once.
-/

namespace Abacus

/-- Names with their values, in ascending order. -/
structure Bindings where
  entries : List (String × Value)

namespace Bindings

def empty : Bindings := ⟨[]⟩

def find? (b : Bindings) (name : String) : Option Value :=
  (b.entries.find? (·.1 == name)).map (·.2)

def insertEntry (name : String) (v : Value) : List (String × Value) → List (String × Value)
  | [] => [(name, v)]
  | entry :: rest =>
    if name = entry.1 then (name, v) :: rest
    else if name < entry.1 then (name, v) :: entry :: rest
    else entry :: insertEntry name v rest

def insert (b : Bindings) (name : String) (v : Value) : Bindings :=
  ⟨insertEntry name v b.entries⟩

@[simp] theorem find?_empty (name : String) : empty.find? name = none := rfl

theorem find?_insertEntry_self (name : String) (v : Value) (entries : List (String × Value)) :
    (insertEntry name v entries).find? (·.1 == name) = some (name, v) := by
  induction entries with
  | nil => simp [insertEntry]
  | cons entry rest ih =>
    unfold insertEntry
    split
    · simp
    · split
      · simp
      · next hne _ => simp [ih, Ne.symm hne]

@[simp] theorem find?_insert_self (b : Bindings) (name : String) (v : Value) :
    (b.insert name v).find? name = some v := by
  simp [find?, insert, find?_insertEntry_self]

theorem find?_insertEntry_of_ne {name other : String} (h : other ≠ name) (v : Value)
    (entries : List (String × Value)) :
    (insertEntry name v entries).find? (·.1 == other) = entries.find? (·.1 == other) := by
  induction entries with
  | nil => simp [insertEntry, Ne.symm h]
  | cons entry rest ih =>
    unfold insertEntry
    split
    · next heq => simp [← heq, Ne.symm h]
    · split
      · simp [Ne.symm h]
      · simp only [List.find?_cons, ih]

theorem find?_insert_of_ne (b : Bindings) {name other : String} (h : other ≠ name) (v : Value) :
    (b.insert name v).find? other = b.find? other := by
  simp [find?, insert, find?_insertEntry_of_ne h]

end Bindings

end Abacus
