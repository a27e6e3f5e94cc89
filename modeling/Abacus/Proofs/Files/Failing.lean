import Mathlib.Data.Set.Functor
import Abacus.Proofs.Files.Path

/-!
# Disks that fail

A store on which every operation can fail, for reasons that the disk does not show: a right that is
missing, a device that is full. A write that fails may leave anything in its own file, the making of
directories may end on the way, and a file is moved or is not. So a program has many outcomes there;
what it does on a disk without such faults is one of them. No two places share a file: there are no
links.
-/

namespace Abacus

namespace Disk

variable {d d' d'' : Disk} {l l' : Location} {p : Path} {s t : Set Location}

section Changes

/-- Only the nodes at some places differ, apart from directories that were made where nothing
was. -/
structure ChangesOnlyAt (s : Set Location) (d d' : Disk) : Prop where
  elsewhere : ∀ l ∉ s, d'.node? l = d.node? l ∨
    d.node? l = none ∧ d'.node? l = some .directory
  directories : KeepsDirectories d d'

theorem ChangesOnlyAt.refl (s : Set Location) (d : Disk) : ChangesOnlyAt s d d :=
  ⟨fun _ _ => Or.inl rfl, fun _ hl => hl⟩

theorem ChangesOnlyAt.trans (h : ChangesOnlyAt s d d') (h' : ChangesOnlyAt s d' d'') :
    ChangesOnlyAt s d d'' := by
  refine ⟨fun l hl => ?_, fun l hl => h'.directories l (h.directories l hl)⟩
  rcases h'.elsewhere l hl with hsame' | ⟨hnone', hmade'⟩
  · rw [hsame']
    exact h.elsewhere l hl
  · rcases h.elsewhere l hl with hsame | ⟨-, hmade⟩
    · exact Or.inr ⟨hsame ▸ hnone', hmade'⟩
    · rw [hmade] at hnone'
      cases hnone'

theorem ChangesOnlyAt.mono (h : ChangesOnlyAt s d d') (hst : s ⊆ t) : ChangesOnlyAt t d d' :=
  ⟨fun l hl => h.elsewhere l fun hs => hl (hst hs), h.directories⟩

theorem changesOnlyAt_put {content : ByteArray} (hfree : d.node? l ≠ some .directory)
    (hl : l ∈ s) : ChangesOnlyAt s d (d.put l (.file content)) := by
  refine ⟨fun l' hl' => Or.inl (node?_put_of_ne ?_), (sameDirectories_put hfree).keeps⟩
  rintro rfl
  exact hl' hl

theorem changesOnlyAt_erase (hfree : d.node? l ≠ some .directory) (hl : l ∈ s) :
    ChangesOnlyAt s d (d.erase l) := by
  refine ⟨fun l' hl' => Or.inl (node?_erase_of_ne ?_), (sameDirectories_erase hfree).keeps⟩
  rintro rfl
  exact hl' hl

theorem node?_eq_none_of_enter {segment : String} (h : d.enter l segment = .error .notFound) :
    d.node? (l ++ [segment]) = none := by
  unfold enter at h
  split_ifs at h
  · cases h
  · split at h
    · cases h
    · cases h
    · next hnone => exact hnone

theorem changesOnlyAt_enterMaking (segment : String) :
    ChangesOnlyAt s d (d.enterMaking l segment).2 := by
  unfold enterMaking
  split
  · next henter =>
      have hnone := node?_eq_none_of_enter henter
      have hput : ∀ l', (d.put (l ++ [segment]) .directory).node? l' = d.node? l' ∨
          d.node? l' = none ∧ (d.put (l ++ [segment]) .directory).node? l' = some .directory := by
        intro l'
        by_cases hl' : l' = l ++ [segment]
        · rw [hl']
          exact Or.inr ⟨hnone, node?_put_self (by simp)⟩
        · exact Or.inl (node?_put_of_ne hl')
      refine ⟨fun l' _ => hput l', fun l' hdirectory => ?_⟩
      rcases hput l' with hsame | ⟨-, hmade⟩
      · exact hsame.trans hdirectory
      · exact hmade
  · exact .refl s d

theorem changesOnlyAt_makeAlong (segments : List String) :
    ChangesOnlyAt s d (d.makeAlong l segments).2 := by
  induction segments generalizing d l with
  | nil => exact .refl s d
  | cons segment rest ih =>
      have hfirst := changesOnlyAt_enterMaking (s := s) (d := d) (l := l) segment
      rw [makeAlong]
      split
      · next heq =>
          rw [heq] at hfirst
          exact hfirst.trans ih
      · next heq =>
          rw [heq] at hfirst
          exact hfirst

/-- Nothing is made on a way that is there. -/
theorem makeAlong_of_foldlM {segments : List String} (h : segments.foldlM d.enter l = .ok l') :
    d.makeAlong l segments = (.ok (), d) := by
  induction segments generalizing l with
  | nil => rfl
  | cons segment rest ih =>
      rw [List.foldlM_cons] at h
      obtain ⟨next, hnext, hrest⟩ := bind_eq_ok.1 h
      have hmaking : d.enterMaking l segment = (.ok next, d) := by
        rw [enterMaking, hnext]
      rw [makeAlong, hmaking]
      exact ih hrest

end Changes

section Attempts

/-- What can become of a disk where a file is written. -/
inductive Writing (d : Disk) (p : Path) (content : ByteArray) :
    Except FileFault Unit × Disk → Prop
  | done {l : Location} (place : d.IsPlace p l) :
      Writing d p content (.ok (), d.put l (.file content))
  | refused (fault : FileFault) : Writing d p content (.error fault, d)
  | spoiled (fault : FileFault) {l : Location} (place : d.IsPlace p l) (part : ByteArray) :
      Writing d p content (.error fault, d.put l (.file part))

/-- What can become of a disk where a file is moved. -/
inductive Moving (d : Disk) (source target : Path) : Except FileFault Unit × Disk → Prop
  | done {old new : Location} {content : ByteArray} (place : d.IsPlace source old)
      (held : d.node? old = some (.file content)) (goal : d.IsPlace target new) :
      Moving d source target (.ok (), (d.erase old).put new (.file content))
  | refused (fault : FileFault) : Moving d source target (.error fault, d)

/-- What can become of a disk where directories are made. -/
inductive Making (d : Disk) (p : Path) : Except FileFault Unit × Disk → Prop
  | done {made : Disk} (all : d.makeDirectories p = (.ok (), made)) : Making d p (.ok (), made)
  | stopped (fault : FileFault) {front : List String} (part : front <+: p.segments) :
      Making d p (.error fault, (d.makeAlong [] front).2)

variable {result : Except FileFault Unit}

theorem writing_write (content : ByteArray) : d.Writing p content (d.write p content) := by
  unfold write
  split
  · exact .refused _
  · next directory name hlocate =>
      split
      · exact .refused _
      · next hfree =>
          have hplace : d.IsPlace p (directory ++ [name]) :=
            ⟨⟨directory, name, hlocate, rfl⟩, hfree⟩
          unfold store
          split
          · exact .done hplace
          · split
            · exact .done hplace
            · exact .spoiled _ hplace _
  · exact .refused _

theorem moving_rename (source target : Path) : d.Moving source target (d.rename source target) := by
  unfold rename
  split
  · exact .refused _
  · exact .refused _
  · next old content new hfile htarget =>
      obtain ⟨hplace, hheld⟩ := fileAt_eq_ok.1 hfile
      exact .done hplace hheld (moveTarget_eq_ok.1 htarget)

theorem exists_makeAlong_of_makeDirectories (h : d.makeDirectories p = (result, d')) :
    ∃ front, front <+: p.segments ∧ d' = (d.makeAlong [] front).2 := by
  unfold makeDirectories at h
  split at h
  · next parts hparts =>
      obtain rfl := segments_eq_ok hparts
      exact ⟨p.segments, List.prefix_rfl, (congrArg Prod.snd h).symm⟩
  · cases h
    exact ⟨[], List.nil_prefix, rfl⟩

theorem making_makeDirectories (p : Path) : d.Making p (d.makeDirectories p) := by
  cases hmade : d.makeDirectories p with
  | mk result made =>
      cases result with
      | ok => exact .done hmade
      | error fault =>
          obtain ⟨front, hfront, rfl⟩ := exists_makeAlong_of_makeDirectories hmade
          exact .stopped fault hfront

theorem Making.exists_makeAlong (h : d.Making p (result, d')) :
    ∃ front, front <+: p.segments ∧ d' = (d.makeAlong [] front).2 := by
  cases h with
  | done all => exact exists_makeAlong_of_makeDirectories all
  | stopped fault part => exact ⟨_, part, rfl⟩

theorem Making.changesOnlyAt (h : d.Making p (result, d')) : ChangesOnlyAt s d d' := by
  obtain ⟨front, -, rfl⟩ := h.exists_makeAlong
  exact changesOnlyAt_makeAlong front

theorem Making.eq_self (h : d.Making p (result, d'))
    (hthere : p.segments.foldlM d.enter [] = .ok l) : d' = d := by
  obtain ⟨front, ⟨rest, hrest⟩, rfl⟩ := h.exists_makeAlong
  rw [← hrest, List.foldlM_append] at hthere
  obtain ⟨next, hfront, -⟩ := bind_eq_ok.1 hthere
  rw [makeAlong_of_foldlM hfront]

end Attempts

end Disk

/-- Programs that can end in many ways. -/
abbrev OnFailingDisk := StateT Disk SetM

namespace OnFailingDisk

/-- An operation that ends in one of the given ways. -/
def attempt {α : Type} (ends : Disk → Set (α × Disk)) : OnFailingDisk α := ends

/-- What a program can end with on a disk, and the disk after it. -/
def outcomes {α : Type} (x : OnFailingDisk α) (d : Disk) : Set (α × Disk) := (x.run d).run

end OnFailingDisk

open OnFailingDisk in
/-- A file that is there may look as if it were not, or may not be readable. -/
instance : FileStore OnFailingDisk where
  present p := attempt fun d => {last | (last.1 = true → d.present p = true) ∧ last.2 = d}
  read p := attempt fun d =>
    {last | (∀ content, last.1 = .ok content → d.read p = .ok content) ∧ last.2 = d}
  makeDirectories p := attempt fun d => {last | d.Making p last}
  write p content := attempt fun d => {last | d.Writing p content last}
  rename source target := attempt fun d => {last | d.Moving source target last}

namespace OnFailingDisk

open Disk

variable {α β : Type} {d d' : Disk} {p : Path}

@[simp] theorem mem_outcomes_pure {a : α} {last : α × Disk} :
    last ∈ outcomes (pure a) d ↔ last = (a, d) :=
  Iff.rfl

theorem mem_outcomes_bind {x : OnFailingDisk α} {f : α → OnFailingDisk β} {last : β × Disk} :
    last ∈ outcomes (x >>= f) d ↔
      ∃ a made, (a, made) ∈ outcomes x d ∧ last ∈ outcomes (f a) made := by
  have hbind : outcomes (x >>= f) d =
      ⋃ middle ∈ outcomes x d, outcomes (f middle.1) middle.2 := rfl
  rw [hbind]
  simp

theorem mem_outcomes_present {there : Bool} : (there, d') ∈ outcomes (FileStore.present p) d ↔
    (there = true → d.present p = true) ∧ d' = d :=
  Iff.rfl

theorem mem_outcomes_makeDirectories {result : Except FileFault Unit} :
    (result, d') ∈ outcomes (FileStore.makeDirectories p) d ↔ d.Making p (result, d') :=
  Iff.rfl

theorem mem_outcomes_write {content : ByteArray} {result : Except FileFault Unit} :
    (result, d') ∈ outcomes (FileStore.write p content) d ↔ d.Writing p content (result, d') :=
  Iff.rfl

theorem mem_outcomes_rename {source target : Path} {result : Except FileFault Unit} :
    (result, d') ∈ outcomes (FileStore.rename source target) d ↔
      d.Moving source target (result, d') :=
  Iff.rfl

/-- A program can end on a disk that fails as it ends on a disk without faults. -/
def Admits (x : OnFailingDisk α) (y : OnDisk α) : Prop := ∀ d, y.exec d ∈ outcomes x d

theorem admits_pure (a : α) : Admits (pure a) (pure a) :=
  fun _ => rfl

theorem Admits.bind {x : OnFailingDisk α} {y : OnDisk α} {f : α → OnFailingDisk β}
    {g : α → OnDisk β} (h : Admits x y) (hf : ∀ a, Admits (f a) (g a)) :
    Admits (x >>= f) (y >>= g) :=
  fun d => mem_outcomes_bind.2 ⟨_, _, h d, hf _ _⟩

theorem admits_present (p : Path) : Admits (FileStore.present p) (FileStore.present p) :=
  fun _ => ⟨id, rfl⟩

theorem admits_makeDirectories (p : Path) :
    Admits (FileStore.makeDirectories p) (FileStore.makeDirectories p) :=
  fun _ => making_makeDirectories p

theorem admits_write (p : Path) (content : ByteArray) :
    Admits (FileStore.write p content) (FileStore.write p content) :=
  fun _ => writing_write content

theorem admits_rename (source target : Path) :
    Admits (FileStore.rename source target) (FileStore.rename source target) :=
  fun _ => moving_rename source target

end OnFailingDisk

end Abacus
