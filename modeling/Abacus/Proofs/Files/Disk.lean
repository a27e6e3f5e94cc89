import Mathlib.Data.List.Basic
import Abacus.Files.Disk
import Abacus.Proofs.Except

/-!
# Operations on disks

Which operations on a disk succeed and what they leave. Writing and moving files does not change
the directories, so that every path still leads to the same place.
-/

namespace Abacus.Disk

variable {d d' : Disk} {l l' : Location} {n : Node} {p : Path} {content : ByteArray}

section Nodes

theorem find?_erase_self (d : Disk) (l : Location) :
    (d.erase l).nodes.find? (·.1 = l) = none := by
  simp [erase, List.find?_eq_none]

theorem find?_erase_of_ne (h : l' ≠ l) :
    (d.erase l).nodes.find? (·.1 = l') = d.nodes.find? (·.1 = l') := by
  rw [erase, List.find?_filter]
  congr 1
  funext entry
  by_cases hentry : entry.1 = l'
  · simp [hentry, h]
  · simp [hentry]

theorem node?_erase_self (h : l ≠ []) : (d.erase l).node? l = none := by
  rw [node?, if_neg h, find?_erase_self]
  rfl

theorem node?_erase_of_ne (h : l' ≠ l) : (d.erase l).node? l' = d.node? l' := by
  rw [node?, find?_erase_of_ne h, node?]

theorem node?_put_self (h : l ≠ []) : (d.put l n).node? l = some n := by
  rw [node?, if_neg h, put, List.find?_append, find?_erase_self]
  simp

theorem node?_put_of_ne (h : l' ≠ l) : (d.put l n).node? l' = d.node? l' := by
  rw [node?, put, List.find?_append, find?_erase_of_ne h, node?]
  have hnone : [(l, n)].find? (·.1 = l') = none := by
    simp [h.symm]
  rw [hnone, Option.or_none]

@[simp] theorem sizeLimit_put (d : Disk) (l : Location) (n : Node) :
    (d.put l n).sizeLimit = d.sizeLimit :=
  rfl

@[simp] theorem sizeLimit_erase (d : Disk) (l : Location) : (d.erase l).sizeLimit = d.sizeLimit :=
  rfl

end Nodes

section Directories

/-- Two disks with the same directories. -/
def SameDirectories (d d' : Disk) : Prop :=
  ∀ l, d.node? l = some .directory ↔ d'.node? l = some .directory

theorem SameDirectories.trans {d'' : Disk} (h : SameDirectories d d')
    (h' : SameDirectories d' d'') :
    SameDirectories d d'' :=
  fun l => (h l).trans (h' l)

theorem SameDirectories.symm (h : SameDirectories d d') : SameDirectories d' d :=
  fun l => (h l).symm

/-- What is a directory on the first disk is one on the second. -/
def KeepsDirectories (d d' : Disk) : Prop :=
  ∀ l, d.node? l = some .directory → d'.node? l = some .directory

theorem SameDirectories.keeps (h : SameDirectories d d') : KeepsDirectories d d' :=
  fun l => (h l).1

theorem sameDirectories_put (h : d.node? l ≠ some .directory) :
    SameDirectories d (d.put l (.file content)) := by
  intro l'
  by_cases hl : l' = l
  · subst hl
    have hne : l' ≠ [] := by
      rintro rfl
      exact h rfl
    simp [node?_put_self hne, h]
  · rw [node?_put_of_ne hl]

theorem sameDirectories_erase (h : d.node? l ≠ some .directory) :
    SameDirectories d (d.erase l) := by
  intro l'
  by_cases hl : l' = l
  · subst hl
    have hne : l' ≠ [] := by
      rintro rfl
      exact h rfl
    simp [node?_erase_self hne, h]
  · rw [node?_erase_of_ne hl]

theorem enter_of_keepsDirectories (h : KeepsDirectories d d') {segment : String}
    (henter : d.enter l segment = .ok l') : d'.enter l segment = .ok l' := by
  unfold enter at henter ⊢
  split_ifs at henter ⊢
  · exact henter
  · exact henter
  · cases hnode : d.node? (l ++ [segment]) with
    | none => simp [hnode] at henter
    | some node =>
        cases node with
        | directory =>
            rw [h _ hnode]
            simpa [hnode] using henter
        | file content => simp [hnode] at henter

theorem foldlM_enter_of_keepsDirectories (h : KeepsDirectories d d') {segments : List String}
    (hfold : segments.foldlM d.enter l = .ok l') : segments.foldlM d'.enter l = .ok l' := by
  induction segments generalizing l with
  | nil => exact hfold
  | cons segment rest ih =>
      rw [List.foldlM_cons] at hfold ⊢
      obtain ⟨next, hnext, hrest⟩ := bind_eq_ok.1 hfold
      exact bind_eq_ok.2 ⟨next, enter_of_keepsDirectories h hnext, ih hrest⟩

theorem locate_of_keepsDirectories (h : KeepsDirectories d d') {place : Location × Option String}
    (hlocate : d.locate p = .ok place) : d'.locate p = .ok place := by
  unfold locate at hlocate ⊢
  obtain ⟨parts, hparts, hlocate⟩ := bind_eq_ok.1 hlocate
  obtain ⟨directory, hdirectory, hlocate⟩ := bind_eq_ok.1 hlocate
  exact bind_eq_ok.2 ⟨parts, hparts,
    bind_eq_ok.2 ⟨directory, foldlM_enter_of_keepsDirectories h hdirectory, hlocate⟩⟩

end Directories

section Places

/-- A path leads to a place where there is a file or could be one. -/
structure IsPlace (d : Disk) (p : Path) (l : Location) : Prop where
  locate : ∃ directory name, d.locate p = .ok (directory, some name) ∧ l = directory ++ [name]
  free : d.node? l ≠ some .directory

theorem IsPlace.ne_nil (h : d.IsPlace p l) : l ≠ [] := by
  obtain ⟨directory, name, -, rfl⟩ := h.locate
  simp

theorem IsPlace.unique (h : d.IsPlace p l) (h' : d.IsPlace p l') : l = l' := by
  obtain ⟨directory, name, hlocate, rfl⟩ := h.locate
  obtain ⟨directory', name', hlocate', rfl⟩ := h'.locate
  rw [hlocate] at hlocate'
  cases hlocate'
  rfl

theorem IsPlace.of_sameDirectories (hplace : d.IsPlace p l) (h : SameDirectories d d') :
    d'.IsPlace p l := by
  obtain ⟨directory, name, hlocate, hl⟩ := hplace.locate
  refine ⟨⟨directory, name, locate_of_keepsDirectories h.keeps hlocate, hl⟩, ?_⟩
  intro hdirectory
  exact hplace.free ((h l).2 hdirectory)

theorem present_of_isPlace (h : d.IsPlace p l) : d.present p = (d.node? l).isSome := by
  obtain ⟨directory, name, hlocate, rfl⟩ := h.locate
  rw [present, hlocate]

theorem fileAt_eq_ok : d.fileAt p = .ok (l, content) ↔
    d.IsPlace p l ∧ d.node? l = some (.file content) := by
  rw [fileAt, bind_eq_ok]
  constructor
  · rintro ⟨⟨directory, name?⟩, hlocate, h⟩
    cases name? with
    | none => cases h
    | some name =>
        dsimp only at h
        split at h
        · next hnode =>
            cases h
            exact ⟨⟨⟨directory, name, hlocate, rfl⟩, by simp [hnode]⟩, hnode⟩
        · cases h
        · cases h
  · rintro ⟨hplace, hnode⟩
    obtain ⟨directory, name, hlocate, rfl⟩ := hplace.locate
    exact ⟨_, hlocate, by simp only [hnode]⟩

theorem read_eq_ok : d.read p = .ok content ↔
    ∃ l, d.IsPlace p l ∧ d.node? l = some (.file content) := by
  rw [read, map_eq_ok]
  constructor
  · rintro ⟨⟨l, read⟩, hfile, rfl⟩
    exact ⟨l, fileAt_eq_ok.1 hfile⟩
  · rintro ⟨l, hfile⟩
    exact ⟨(l, content), fileAt_eq_ok.2 hfile, rfl⟩

theorem moveTarget_eq_ok : d.moveTarget p = .ok l ↔ d.IsPlace p l := by
  rw [moveTarget, bind_eq_ok]
  constructor
  · rintro ⟨⟨directory, name?⟩, hlocate, h⟩
    cases name? with
    | none => cases h
    | some name =>
        dsimp only at h
        split at h
        · cases h
        · next hfree =>
            cases h
            exact ⟨⟨directory, name, hlocate, rfl⟩, hfree⟩
  · rintro ⟨⟨directory, name, hlocate, rfl⟩, hfree⟩
    refine ⟨_, hlocate, ?_⟩
    dsimp only
    split
    · next hdirectory => exact absurd hdirectory hfree
    · rfl

end Places

section Writing

/-- Whether a content is small enough for the disk. -/
def Fits (d : Disk) (content : ByteArray) : Prop := ∀ limit ∈ d.sizeLimit, content.size ≤ limit

theorem store_eq_ok : d.store l content = (.ok (), d') ↔
    d.Fits content ∧ d' = d.put l (.file content) := by
  unfold store Fits
  cases hlimit : d.sizeLimit with
  | none => simp [eq_comm]
  | some limit =>
      dsimp only
      split
      · next hle => simp [hle, eq_comm]
      · next hlarge => simp [hlarge]

theorem write_eq_ok : d.write p content = (.ok (), d') ↔
    ∃ l, d.IsPlace p l ∧ d.Fits content ∧ d' = d.put l (.file content) := by
  unfold write
  constructor
  · intro h
    split at h
    · cases h
    · next directory name hlocate =>
        split at h
        · cases h
        · next hfree => exact ⟨_, ⟨⟨directory, name, hlocate, rfl⟩, hfree⟩, store_eq_ok.1 h⟩
    · cases h
  · rintro ⟨l, ⟨⟨directory, name, hlocate, rfl⟩, hfree⟩, hstore⟩
    rw [hlocate]
    dsimp only
    split
    · next hdirectory => exact absurd hdirectory hfree
    · exact store_eq_ok.2 hstore

theorem rename_eq_ok {source target : Path} : d.rename source target = (.ok (), d') ↔
    ∃ old new content, d.IsPlace source old ∧ d.node? old = some (.file content) ∧
      d.IsPlace target new ∧ d' = (d.erase old).put new (.file content) := by
  unfold rename
  constructor
  · intro h
    split at h
    · cases h
    · cases h
    · next old content new hfile htarget =>
        cases h
        obtain ⟨hplace, hnode⟩ := fileAt_eq_ok.1 hfile
        exact ⟨old, new, content, hplace, hnode, moveTarget_eq_ok.1 htarget, rfl⟩
  · rintro ⟨old, new, content, hplace, hnode, htarget, rfl⟩
    rw [fileAt_eq_ok.2 ⟨hplace, hnode⟩, moveTarget_eq_ok.2 htarget]

end Writing

end Abacus.Disk

namespace Abacus.OnDisk

variable {α β : Type} (d : Disk)

/-- What an operation gives on a disk, and the disk after it. -/
def exec (x : OnDisk α) (d : Disk) : α × Disk := x d

@[simp] theorem exec_pure (a : α) : exec (pure a) d = (a, d) :=
  rfl

@[simp] theorem exec_bind (x : OnDisk α) (f : α → OnDisk β) :
    exec (x >>= f) d = exec (f (exec x d).1) (exec x d).2 :=
  rfl

@[simp] theorem exec_present (p : Path) : exec (FileStore.present p) d = (d.present p, d) :=
  rfl

@[simp] theorem exec_read (p : Path) : exec (FileStore.read p) d = (d.read p, d) :=
  rfl

@[simp] theorem exec_write (p : Path) (content : ByteArray) :
    exec (FileStore.write p content) d = d.write p content :=
  rfl

@[simp] theorem exec_rename (source target : Path) :
    exec (FileStore.rename source target) d = d.rename source target :=
  rfl

end Abacus.OnDisk
