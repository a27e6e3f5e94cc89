import Abacus.Journal.Basic

/-!
# The newest entries

Taking the newest of a list at every step comes to the same as taking them once at the end.
-/

namespace Abacus

variable {α : Type} (limit : Nat) (xs ys : List α)

theorem newest_eq_self {limit : Nat} {xs : List α} (h : xs.length ≤ limit) :
    newest limit xs = xs := by
  have hnone : xs.length - limit = 0 := by omega
  rw [newest, hnone, List.drop_zero]

theorem mem_of_mem_newest {limit : Nat} {xs : List α} {x : α} (h : x ∈ newest limit xs) :
    x ∈ xs :=
  List.mem_of_mem_drop h

theorem newest_append_newest : newest limit (newest limit xs ++ ys) = newest limit (xs ++ ys) := by
  have hle : xs.length - limit ≤ xs.length := Nat.sub_le _ _
  have hfront : newest limit xs ++ ys = (xs ++ ys).drop (xs.length - limit) := by
    rw [newest, List.drop_append_of_le_length hle]
  have hcount :
      xs.length - limit + ((xs ++ ys).length - (xs.length - limit) - limit) =
        (xs ++ ys).length - limit := by
    rw [List.length_append]
    omega
  rw [hfront, newest, List.length_drop, List.drop_drop, hcount, newest]

@[simp] theorem newest_newest : newest limit (newest limit xs) = newest limit xs := by
  have happend := newest_append_newest limit xs []
  simpa using happend

namespace Journal

@[simp] theorem file_record (j : Journal) (e : Entry) : (j.record e).file = j.file :=
  rfl

@[simp] theorem limit_record (j : Journal) (e : Entry) : (j.record e).limit = j.limit :=
  rfl

@[simp] theorem file_ofEntries (file : Option Path) (entries : List Entry) :
    (ofEntries file limit entries).file = file :=
  rfl

@[simp] theorem limit_ofEntries (file : Option Path) (entries : List Entry) :
    (ofEntries file limit entries).limit = limit :=
  rfl

theorem ext {j k : Journal} (hfile : j.file = k.file) (hlimit : j.limit = k.limit)
    (hentries : j.entries = k.entries) : j = k := by
  cases j
  cases k
  subst hfile hlimit hentries
  rfl

theorem newest_entries (j : Journal) : newest j.limit j.entries = j.entries :=
  newest_eq_self j.fits

end Journal

end Abacus
