import Abacus.Files.Path
import Abacus.Journal.Entry

/-!
# The journal

The newest entries of what was evaluated, oldest first. It keeps no more than its limit, and may
belong to a file.
-/

namespace Abacus

def newest {α : Type} (limit : Nat) (xs : List α) : List α := xs.drop (xs.length - limit)

theorem length_newest_le {α : Type} (limit : Nat) (xs : List α) :
    (newest limit xs).length ≤ limit := by
  simp [newest]; omega

structure Journal where
  file : Option Path
  limit : Nat
  entries : List Entry
  fits : entries.length ≤ limit

namespace Journal

def ofEntries (file : Option Path) (limit : Nat) (entries : List Entry) : Journal :=
  ⟨file, limit, newest limit entries, length_newest_le limit entries⟩

def empty (file : Option Path) (limit : Nat) : Journal := ofEntries file limit []

def inMemory (limit : Nat) : Journal := empty none limit

def record (j : Journal) (e : Entry) : Journal := ofEntries j.file j.limit (j.entries ++ [e])

def clear (j : Journal) : Journal := empty j.file j.limit

@[simp] theorem entries_ofEntries (file : Option Path) (limit : Nat) (entries : List Entry) :
    (ofEntries file limit entries).entries = newest limit entries := rfl

@[simp] theorem entries_record (j : Journal) (e : Entry) :
    (j.record e).entries = newest j.limit (j.entries ++ [e]) := rfl

@[simp] theorem entries_clear (j : Journal) : j.clear.entries = [] := by
  simp [clear, empty, newest]

end Journal

end Abacus
