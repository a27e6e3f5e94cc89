import Abacus.Proofs.Files.Failing
import Abacus.Proofs.Journal.Temporary

/-!
# Saving all or nothing

However the disk fails, saving a journal either leaves its entries in the file and no temporary file
beside it, or reports a fault and leaves the file as it was. No other file changes.
-/

namespace Abacus.Journal

open Disk OnFailingDisk

variable {d d' made : Disk} {file : Path} {content : ByteArray} {j : Journal}
  {result : Except JournalError Unit}

section Outcomes

/-- What can become of a disk where a content is written beside a file and moved there. -/
inductive Replacing (d : Disk) (file : Path) (content : ByteArray) :
    Except JournalError Unit × Disk → Prop
  | done {old new : Location} (place : d.IsPlace (temporary file) old) (goal : d.IsPlace file new) :
      Replacing d file content
        (.ok (), ((d.put old (.file content)).erase old).put new (.file content))
  | refused (e : JournalError) : Replacing d file content (.error e, d)
  | spoiled (e : JournalError) {old : Location} (place : d.IsPlace (temporary file) old)
      (part : ByteArray) : Replacing d file content (.error e, d.put old (.file part))

theorem replacing_of_moving {old : Location} (hold : d.IsPlace (temporary file) old)
    {moved : Except FileFault Unit}
    (h : (d.put old (.file content)).Moving (temporary file) file (moved, d')) :
    Replacing d file content (moved.mapError (.unwritable file), d') := by
  have hsame : SameDirectories d (d.put old (.file content)) := sameDirectories_put hold.free
  cases h with
  | refused fault => exact .spoiled _ hold content
  | done place held goal =>
      -- What is moved is what was written: the path still leads to the same place.
      obtain rfl := (hold.of_sameDirectories hsame).unique place
      rw [node?_put_self hold.ne_nil] at held
      cases held
      exact .done hold (goal.of_sameDirectories hsame.symm)

theorem replacing_of_mem (h : (result, d') ∈ outcomes (replaceContent file content) d) :
    Replacing d file content (result, d') := by
  rw [replaceContent] at h
  obtain ⟨written, made, hwrite, h⟩ := mem_outcomes_bind.1 h
  cases mem_outcomes_write.1 hwrite with
  | refused fault =>
      cases mem_outcomes_pure.1 h
      exact .refused _
  | spoiled fault place part =>
      cases mem_outcomes_pure.1 h
      exact .spoiled _ place part
  | done place =>
      obtain ⟨moved, last, hmove, h⟩ := mem_outcomes_bind.1 h
      have hreplacing := replacing_of_moving place (mem_outcomes_rename.1 hmove)
      cases moved with
      | error fault =>
          cases mem_outcomes_pure.1 h
          exact hreplacing
      | ok =>
          cases mem_outcomes_pure.1 h
          exact hreplacing

/-- Making sure of the directory of a file makes directories only, and none if the file has one. -/
theorem ensuring_of_mem {ensured : Except JournalError Unit}
    (h : (ensured, made) ∈ outcomes (ensureDirectory file) d) :
    ChangesOnlyAt ∅ d made ∧
      ∀ directory name, d.locate file = .ok (directory, some name) → made = d := by
  have hself : ChangesOnlyAt ∅ d d ∧
      ∀ directory name, d.locate file = .ok (directory, some name) → d = d :=
    ⟨.refl ∅ d, fun _ _ _ => rfl⟩
  rw [ensureDirectory] at h
  cases hparent : file.parent? with
  | none =>
      rw [hparent] at h
      cases mem_outcomes_pure.1 h
      exact hself
  | some directory =>
      rw [hparent] at h
      dsimp only at h
      split at h
      · cases mem_outcomes_pure.1 h
        exact hself
      · obtain ⟨there, same, hthere, h⟩ := mem_outcomes_bind.1 h
        obtain ⟨-, rfl⟩ := mem_outcomes_present.1 hthere
        cases there with
        | true =>
            cases mem_outcomes_pure.1 h
            exact hself
        | false =>
            obtain ⟨finished, last, hmake, h⟩ := mem_outcomes_bind.1 h
            -- The directory may have been there in spite of the look of it.
            have hmaking := mem_outcomes_makeDirectories.1 hmake
            have hlast : made = last := by
              cases finished <;> cases mem_outcomes_pure.1 h <;> rfl
            subst hlast
            refine ⟨hmaking.changesOnlyAt, fun start name hlocate => ?_⟩
            exact hmaking.eq_self (foldlM_enter_parent hlocate hparent)

/-- Saving a journal of a file replaces the content, where directories were made at most. -/
theorem exists_replacing_of_mem (hfile : j.file = some file)
    (h : (result, d') ∈ outcomes j.save d) :
    ∃ made, ChangesOnlyAt ∅ d made ∧
      (∀ directory name, d.locate file = .ok (directory, some name) → made = d) ∧
      Replacing made file (render j.entries).toUTF8 (result, d') := by
  rw [save, hfile] at h
  obtain ⟨ensured, made, hensure, h⟩ := mem_outcomes_bind.1 h
  obtain ⟨hchanges, hself⟩ := ensuring_of_mem hensure
  refine ⟨made, hchanges, hself, ?_⟩
  cases ensured with
  | error e =>
      cases mem_outcomes_pure.1 h
      exact .refused e
  | ok => exact replacing_of_mem h

end Outcomes

section Guarantees

/-- The content is in the file, and no temporary file is left beside it. -/
def Committed (file : Path) (content : ByteArray) (d d' : Disk) : Prop :=
  ∃ directory name, d'.locate file = .ok (directory, some name) ∧
    d'.locate (temporary file) = .ok (directory, some (temporaryName name)) ∧
    d'.node? (directory ++ [name]) = some (.file content) ∧
    d'.node? (directory ++ [temporaryName name]) = none ∧
    ChangesOnlyAt {directory ++ [name], directory ++ [temporaryName name]} d d'

/-- What was at the place of the file is there as it was. -/
structure Kept (file : Path) (d d' : Disk) : Prop where
  held : ∀ l, d.LeadsTo file l → d'.LeadsTo file l ∧ d'.node? l = d.node? l
  elsewhere : ChangesOnlyAt {l | d'.IsPlace (temporary file) l} d d'

variable {old new l : Location}

/-- The places of a file and of the temporary one differ only in their names. -/
theorem exists_places (hold : d.IsPlace (temporary file) old) (hnew : d.IsPlace file new) :
    ∃ directory name, d.locate file = .ok (directory, some name) ∧
      d.locate (temporary file) = .ok (directory, some (temporaryName name)) ∧
      new = directory ++ [name] ∧ old = directory ++ [temporaryName name] := by
  obtain ⟨directory, name, hlocate, rfl⟩ := hnew.locate
  obtain ⟨directory', name', hlocate', rfl⟩ := hold.locate
  obtain ⟨rfl, rfl⟩ := locate_temporary hlocate hlocate'
  exact ⟨directory', name, hlocate, hlocate', rfl, rfl⟩

/-- No temporary file is at the place that a path leads to, not even at that of a directory. -/
theorem ne_of_leadsTo (hold : d.IsPlace (temporary file) old) (h : d.LeadsTo file l) : l ≠ old := by
  obtain ⟨directory, name?, hlocate, rfl⟩ := h
  obtain ⟨directory', name', hlocate', rfl⟩ := hold.locate
  cases name? with
  | none =>
      have hdirectory := node?_of_locate hlocate
      intro heq
      rw [Option.toList_none, List.append_nil] at heq
      exact hold.free (heq ▸ hdirectory)
  | some name =>
      obtain ⟨rfl, rfl⟩ := locate_temporary hlocate hlocate'
      simp [(temporaryName_ne name).symm]

theorem changesOnlyAt_replaced (content : ByteArray) (hold : d.IsPlace (temporary file) old)
    (hnew : d.IsPlace file new) (hne : new ≠ old) : ChangesOnlyAt {new, old} d
      (((d.put old (.file content)).erase old).put new (.file content)) := by
  have hwritten : (d.put old (.file content)).node? old ≠ some .directory := by
    simp [node?_put_self hold.ne_nil]
  have herased : ((d.put old (.file content)).erase old).node? new ≠ some .directory := by
    rw [node?_erase_of_ne hne, node?_put_of_ne hne]
    exact hnew.free
  have hwrite : ChangesOnlyAt {new, old} d (d.put old (.file content)) :=
    changesOnlyAt_put hold.free (by simp)
  have herase := hwrite.trans (changesOnlyAt_erase hwritten (by simp))
  exact herase.trans (changesOnlyAt_put herased (by simp))

theorem committed_of_replacing (h : Replacing d file content (.ok (), d')) :
    Committed file content d d' := by
  cases h with
  | done hold hnew =>
      obtain ⟨directory, name, hlocate, hlocate', rfl, rfl⟩ := exists_places hold hnew
      have hne : directory ++ [name] ≠ directory ++ [temporaryName name] := by
        simp [(temporaryName_ne name).symm]
      have hchanges := changesOnlyAt_replaced content hold hnew hne
      refine ⟨directory, name, locate_of_keepsDirectories hchanges.directories hlocate,
        locate_of_keepsDirectories hchanges.directories hlocate', node?_put_self hnew.ne_nil, ?_,
        hchanges⟩
      rw [node?_put_of_ne hne.symm, node?_erase_self hold.ne_nil]

theorem kept_of_replacing {e : JournalError} (h : Replacing d file content (.error e, d')) :
    Kept file d d' := by
  cases h with
  | refused => exact ⟨fun l hl => ⟨hl, rfl⟩, .refl _ _⟩
  | @spoiled _ old hold part =>
      have hsame : SameDirectories d (d.put old (.file part)) := sameDirectories_put hold.free
      refine ⟨fun l hl => ⟨hl.of_keepsDirectories hsame.keeps, ?_⟩, ?_⟩
      · exact node?_put_of_ne (ne_of_leadsTo hold hl)
      · exact changesOnlyAt_put hold.free (hold.of_sameDirectories hsame)

theorem Committed.of_made (hmade : ChangesOnlyAt ∅ d made) (h : Committed file content made d') :
    Committed file content d d' := by
  obtain ⟨directory, name, hlocate, hlocate', hfile, htemporary, hchanges⟩ := h
  exact ⟨directory, name, hlocate, hlocate', hfile, htemporary,
    (hmade.mono (Set.empty_subset _)).trans hchanges⟩

theorem Kept.of_made (hmade : ChangesOnlyAt ∅ d made)
    (hself : ∀ directory name, d.locate file = .ok (directory, some name) → made = d)
    (h : Kept file made d') : Kept file d d' := by
  refine ⟨fun l hl => ?_, (hmade.mono (Set.empty_subset _)).trans h.elsewhere⟩
  obtain ⟨hleads, hnode⟩ := h.held l (hl.of_keepsDirectories hmade.directories)
  refine ⟨hleads, hnode.trans ?_⟩
  obtain ⟨directory, name?, hlocate, rfl⟩ := hl
  cases name? with
  | none =>
      -- Directories may have been made here, but this one was there before.
      have hdirectory := node?_of_locate hlocate
      rw [Option.toList_none, List.append_nil, hdirectory]
      exact hmade.directories _ hdirectory
  | some name => rw [hself directory name hlocate]

end Guarantees

section Admitting

theorem admits_ensureDirectory (file : Path) :
    Admits (ensureDirectory file) (ensureDirectory file) := by
  unfold ensureDirectory
  cases file.parent? with
  | none => exact admits_pure _
  | some directory =>
      dsimp only
      split
      · exact admits_pure _
      · refine (admits_present directory).bind fun there => ?_
        cases there with
        | true => exact admits_pure _
        | false =>
            refine (admits_makeDirectories directory).bind fun made => ?_
            cases made <;> exact admits_pure _

theorem admits_replaceContent (file : Path) (content : ByteArray) :
    Admits (replaceContent file content) (replaceContent file content) := by
  unfold replaceContent
  refine (admits_write _ content).bind fun written => ?_
  cases written with
  | error fault => exact admits_pure _
  | ok =>
      refine (admits_rename _ file).bind fun moved => ?_
      cases moved <;> exact admits_pure _

theorem admits_save (j : Journal) : Admits j.save j.save := by
  unfold save
  cases j.file with
  | none => exact admits_pure _
  | some file =>
      refine (admits_ensureDirectory file).bind fun ensured => ?_
      cases ensured with
      | error e => exact admits_pure _
      | ok => exact admits_replaceContent file _

end Admitting

/-- Whatever fails, a journal of a file is saved wholly or not at all, and a journal in memory
changes nothing. What happens on a disk without faults is one of the outcomes. No two places of a
disk share a file, as they do where there are links: a write changes nothing but its own file. -/
theorem save_all_or_nothing :
    (∀ (d : Disk) (j : Journal), OnDisk.exec j.save d ∈ outcomes j.save d) ∧
    (∀ (d d' : Disk) (j : Journal) (file : Path), j.file = some file →
      (.ok (), d') ∈ outcomes j.save d → Committed file (render j.entries).toUTF8 d d') ∧
    (∀ (d d' : Disk) (j : Journal) (file : Path) (e : JournalError), j.file = some file →
      (.error e, d') ∈ outcomes j.save d → Kept file d d') ∧
    ∀ (d d' : Disk) (j : Journal) (result : Except JournalError Unit), j.file = none →
      (result, d') ∈ outcomes j.save d → result = .ok () ∧ d' = d := by
  refine ⟨fun d j => admits_save j d, ?_, ?_, ?_⟩
  · intro d d' j file hfile h
    obtain ⟨made, hmade, -, hreplacing⟩ := exists_replacing_of_mem hfile h
    exact (committed_of_replacing hreplacing).of_made hmade
  · intro d d' j file e hfile h
    obtain ⟨made, hmade, hself, hreplacing⟩ := exists_replacing_of_mem hfile h
    exact (kept_of_replacing hreplacing).of_made hmade hself
  · intro d d' j result hfile h
    rw [save, hfile] at h
    cases mem_outcomes_pure.1 h
    exact ⟨rfl, rfl⟩

section Sample

/-- A disk that has room for one byte only. -/
def fullDisk : Disk := ⟨[(["history.json"], .file "[ ]".toUTF8)], some 1⟩

theorem exists_fault_fullDisk :
    ∃ e d', OnDisk.exec (ofEntries (some sampleFile) 5 []).save fullDisk = (.error e, d') := by
  have hfails : (OnDisk.exec (ofEntries (some sampleFile) 5 []).save fullDisk).1.isOk = false := by
    decide +kernel
  cases hsave : OnDisk.exec (ofEntries (some sampleFile) 5 []).save fullDisk with
  | mk result d' =>
      cases result with
      | error e => exact ⟨e, d', rfl⟩
      | ok =>
          rw [hsave] at hfails
          cases hfails

/-- A journal is saved on an empty disk, and what a full disk holds is not lost. -/
theorem save_all_or_nothing_sample :
    (∃ d', OnDisk.exec (ofEntries (some sampleFile) 5 sampleEntries).save Disk.empty =
        (.ok (), d') ∧
      Committed sampleFile (render sampleEntries).toUTF8 Disk.empty d') ∧
    (∃ e d', OnDisk.exec (ofEntries (some sampleFile) 5 []).save fullDisk = (.error e, d') ∧
      d'.node? ["history.json"] = some (.file "[ ]".toUTF8)) ∧
    OnDisk.exec (inMemory 5).save fullDisk = (.ok (), fullDisk) := by
  obtain ⟨hadmits, hok, herror, hmemory⟩ := save_all_or_nothing
  refine ⟨?_, ?_, ?_⟩
  · obtain ⟨d', hsave⟩ :=
      (savable_empty 5).exists_save (file_ofEntries 5 (some sampleFile) sampleEntries) rfl
    have hcommitted := hok _ d' _ sampleFile rfl (hsave ▸ hadmits Disk.empty _)
    rw [entries_ofEntries, newest_eq_self (by decide)] at hcommitted
    exact ⟨d', hsave, hcommitted⟩
  · obtain ⟨e, d', hsave⟩ := exists_fault_fullDisk
    have hkept := herror fullDisk d' _ sampleFile e rfl (hsave ▸ hadmits fullDisk _)
    have hleads : fullDisk.LeadsTo sampleFile ["history.json"] := by
      refine ⟨[], some "history.json", ?_, rfl⟩
      decide +kernel
    have hnode : fullDisk.node? ["history.json"] = some (.file "[ ]".toUTF8) := by
      simp [node?, fullDisk]
    exact ⟨e, d', hsave, (hkept.held _ hleads).2.trans hnode⟩
  · obtain ⟨hresult, hdisk⟩ := hmemory fullDisk _ (inMemory 5) _ rfl (hadmits fullDisk _)
    exact Prod.ext hresult hdisk

end Sample

end Abacus.Journal
