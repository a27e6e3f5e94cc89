import Abacus.Proofs.Files.Path
import Abacus.Proofs.Journal.Entry
import Abacus.Proofs.Journal.Newest

/-!
# Saving and loading journals

A journal that was saved is loaded again, entry for entry, up to the limit it is loaded with. Saving
leaves a file that can be saved again.
-/

namespace Abacus

namespace Journal

open Disk OnDisk

variable {d d' : Disk} {file : Path} {limit : Nat} {content : ByteArray}

theorem fromUTF8?_toUTF8 (s : String) : String.fromUTF8? s.toUTF8 = some s := by
  have hvalid : s.toUTF8.IsValidUTF8 := s.isValidUTF8
  have hback : String.fromUTF8 s.toUTF8 hvalid = s := rfl
  rw [String.fromUTF8?, dif_pos hvalid, hback]

/-- What a journal file on a disk holds: nothing if there is no file. -/
def entriesOn? (d : Disk) (file : Path) : Option (List Entry) :=
  if d.present file then
    match d.read file with
    | .ok content => (String.fromUTF8? content).bind parse?
    | .error _ => none
  else some []

theorem exec_load : exec (load file limit) d =
    (if d.present file then
      match d.read file with
      | .error fault => .error (.unreadable file fault)
      | .ok content =>
        match String.fromUTF8? content with
        | none => .error (.unreadable file .notText)
        | some text =>
          match parse? text with
          | none => .error (.malformed file)
          | some entries => .ok (ofEntries (some file) limit entries)
    else .ok (empty (some file) limit), d) := by
  rw [load, exec_bind, exec_present]
  dsimp only
  split
  · rw [exec_bind, exec_read]
    dsimp only
    cases d.read file with
    | error fault => rfl
    | ok content =>
        dsimp only
        cases String.fromUTF8? content with
        | none => rfl
        | some text =>
            dsimp only
            cases parse? text <;> rfl
  · rfl

theorem exec_load_eq_ok {j : Journal} : exec (load file limit) d = (.ok j, d') ↔
    ∃ entries, entriesOn? d file = some entries ∧ j = ofEntries (some file) limit entries ∧
      d' = d := by
  rw [exec_load, entriesOn?]
  by_cases hpresent : d.present file = true
  · simp only [hpresent, if_true]
    cases d.read file with
    | error fault => simp
    | ok content =>
        dsimp only
        cases String.fromUTF8? content with
        | none => simp
        | some text =>
            dsimp only [Option.bind_some]
            cases parse? text <;> simp [eq_comm]
  · simp [hpresent, empty, eq_comm]

theorem exec_replaceContent_eq_ok : exec (replaceContent file content) d = (.ok (), d') ↔
    ∃ made, d.write (temporary file) content = (.ok (), made) ∧
      made.rename (temporary file) file = (.ok (), d') := by
  rw [replaceContent, exec_bind, exec_write]
  obtain ⟨written, made⟩ := d.write (temporary file) content
  cases written with
  | error fault => simp
  | ok =>
      dsimp only
      rw [exec_bind, exec_rename]
      cases hrename : made.rename (temporary file) file with
      | mk moved last => cases moved <;> simp [hrename]

/-- What is left of a disk where a content was written beside a file and moved there. -/
theorem replaceContent_eq_ok : exec (replaceContent file content) d = (.ok (), d') ↔
    ∃ old new, d.IsPlace (temporary file) old ∧ d.Fits content ∧ d.IsPlace file new ∧
      d' = ((d.put old (.file content)).erase old).put new (.file content) := by
  rw [exec_replaceContent_eq_ok]
  constructor
  · rintro ⟨made, hwrite, hrename⟩
    obtain ⟨old, hold, hfits, rfl⟩ := write_eq_ok.1 hwrite
    have hsame : SameDirectories d (d.put old (.file content)) := sameDirectories_put hold.free
    obtain ⟨old', new, written, hold', hwritten, hnew, rfl⟩ := rename_eq_ok.1 hrename
    obtain rfl : old = old' := (hold.of_sameDirectories hsame).unique hold'
    rw [node?_put_self hold.ne_nil] at hwritten
    cases hwritten
    exact ⟨old, new, hold, hfits, hnew.of_sameDirectories hsame.symm, rfl⟩
  · rintro ⟨old, new, hold, hfits, hnew, rfl⟩
    have hsame : SameDirectories d (d.put old (.file content)) := sameDirectories_put hold.free
    refine ⟨d.put old (.file content), write_eq_ok.2 ⟨old, hold, hfits, rfl⟩, ?_⟩
    exact rename_eq_ok.2 ⟨old, new, content, hold.of_sameDirectories hsame,
      node?_put_self hold.ne_nil, hnew.of_sameDirectories hsame, rfl⟩

/-- Replacing a content leaves the directories. -/
theorem sameDirectories_of_replaceContent
    (h : exec (replaceContent file content) d = (.ok (), d')) : SameDirectories d d' := by
  obtain ⟨old, new, hold, -, hnew, rfl⟩ := replaceContent_eq_ok.1 h
  have hput : SameDirectories d (d.put old (.file content)) := sameDirectories_put hold.free
  have herase : SameDirectories (d.put old (.file content))
      ((d.put old (.file content)).erase old) := by
    apply sameDirectories_erase
    exact (hold.of_sameDirectories hput).free
  have hboth := hput.trans herase
  exact hboth.trans (sameDirectories_put (hnew.of_sameDirectories hboth).free)

theorem entriesOn?_of_replaceContent {text : String}
    (h : exec (replaceContent file text.toUTF8) d = (.ok (), d')) :
    entriesOn? d' file = parse? text := by
  have hsame := sameDirectories_of_replaceContent h
  obtain ⟨old, new, -, -, hnew, rfl⟩ := replaceContent_eq_ok.1 h
  have hplace := hnew.of_sameDirectories hsame
  have hnode : (((d.put old (.file text.toUTF8)).erase old).put new (.file text.toUTF8)).node? new =
      some (.file text.toUTF8) := node?_put_self hnew.ne_nil
  rw [entriesOn?, present_of_isPlace hplace, hnode, read_eq_ok.2 ⟨new, hplace, hnode⟩]
  simp only [Option.isSome_some, if_true, fromUTF8?_toUTF8, Option.bind_some]

theorem sizeLimit_of_replaceContent
    (h : exec (replaceContent file content) d = (.ok (), d')) : d'.sizeLimit = d.sizeLimit := by
  obtain ⟨old, new, -, -, -, rfl⟩ := replaceContent_eq_ok.1 h
  simp

theorem exec_ensureDirectory_of_isPlace {l : Location} (h : d.IsPlace file l) :
    exec (ensureDirectory file) d = (.ok (), d) := by
  rw [ensureDirectory]
  cases hparent : file.parent? with
  | none => rfl
  | some directory =>
      dsimp only
      split
      · rfl
      · next hne => simp [present_parent h hparent (Bool.eq_false_iff.2 hne)]

variable {j : Journal}

theorem exec_save_eq_ok (hfile : j.file = some file) : exec j.save d = (.ok (), d') ↔
    ∃ made, exec (ensureDirectory file) d = (.ok (), made) ∧
      exec (replaceContent file (render j.entries).toUTF8) made = (.ok (), d') := by
  rw [save, hfile]
  dsimp only
  rw [exec_bind]
  cases hmade : exec (ensureDirectory file) d with
  | mk ensured made => cases ensured <;> simp [eq_comm]

/-- A journal that was saved is what its file holds. -/
theorem entriesOn?_of_save (hfile : j.file = some file) (hwell : ∀ e ∈ j.entries, e.WellFormed)
    (hback : ∀ e ∈ j.entries, e.ReadsBack) (h : exec j.save d = (.ok (), d')) :
    entriesOn? d' file = some j.entries := by
  obtain ⟨made, -, hreplace⟩ := (exec_save_eq_ok hfile).1 h
  rw [entriesOn?_of_replaceContent hreplace, parse?_render hwell hback]

/-- Every journal of a file with some limit can be saved. -/
def Savable (d : Disk) (file : Path) (limit : Nat) : Prop :=
  ∀ j : Journal, j.file = some file → j.limit = limit → (exec j.save d).1 = .ok ()

theorem Savable.exists_save (h : Savable d file limit) (hfile : j.file = some file)
    (hlimit : j.limit = limit) : ∃ d', exec j.save d = (.ok (), d') :=
  ⟨_, Prod.ext (h j hfile hlimit) rfl⟩

/-- Saving does not stand in the way of saving again. -/
theorem Savable.of_save (h : Savable d file limit) (hfile : j.file = some file)
    (hsave : exec j.save d = (.ok (), d')) : Savable d' file limit := by
  intro k hkfile hklimit
  obtain ⟨made, hensure, hreplace⟩ := (exec_save_eq_ok hfile).1 hsave
  obtain ⟨last, hlast⟩ := h.exists_save hkfile hklimit
  obtain ⟨made', hensure', hreplace'⟩ := (exec_save_eq_ok hkfile).1 hlast
  obtain rfl : made = made' := congrArg (·.2) (hensure.symm.trans hensure')
  have hsame := sameDirectories_of_replaceContent hreplace
  obtain ⟨old, new, hold, hfits, hnew, -⟩ := replaceContent_eq_ok.1 hreplace'
  have hfits' : d'.Fits (render k.entries).toUTF8 := by
    rw [Fits, sizeLimit_of_replaceContent hreplace]
    exact hfits
  have hplace := hnew.of_sameDirectories hsame
  have hagain := (exec_save_eq_ok hkfile).2 ⟨d', exec_ensureDirectory_of_isPlace hplace,
    replaceContent_eq_ok.2 ⟨old, new, hold.of_sameDirectories hsame, hfits', hplace, rfl⟩⟩
  rw [hagain]

theorem savable_of_isPlace {old new : Location} (hold : d.IsPlace (temporary file) old)
    (hnew : d.IsPlace file new) (hsize : d.sizeLimit = none) : Savable d file limit := by
  intro j hfile _
  have hfits : d.Fits (render j.entries).toUTF8 := by
    simp [Fits, hsize]
  have hsave := (exec_save_eq_ok hfile).2 ⟨d, exec_ensureDirectory_of_isPlace hnew,
    replaceContent_eq_ok.2 ⟨old, new, hold, hfits, hnew, rfl⟩⟩
  rw [hsave]

section Sample

def sampleFile : Path := ⟨"/history.json"⟩

def sampleEntries : List Entry :=
  [⟨"say \"hi\"", none, some "unexpected \\", ⟨0, 0, 0⟩⟩,
    ⟨"1", some (.integer Word.one), none, ⟨0, 59, 5⟩⟩,
    ⟨"-0.0", some (.decimal (-(Binary64.ofInt 0))), none, ⟨1, 0, 0⟩⟩,
    ⟨"2.0", some (.decimal (Binary64.ofInt 2)), none, ⟨2, 0, 0⟩⟩,
    ⟨"1 / 10", some (.decimal (Binary64.ofDecimal 1 (-1))), none, ⟨3, 0, 0⟩⟩]

theorem savable_empty (limit : Nat) : Savable Disk.empty sampleFile limit := by
  have hplace : ∀ file name, Disk.empty.locate file = .ok ([], some name) →
      Disk.empty.IsPlace file [name] := by
    intro file name hlocate
    refine ⟨⟨[], name, hlocate, rfl⟩, ?_⟩
    simp [node?, Disk.empty]
  have htemporary : Disk.empty.locate (temporary sampleFile) =
      .ok ([], some "history.json.tmp") := by
    decide +kernel
  have hfile : Disk.empty.locate sampleFile = .ok ([], some "history.json") := by
    decide +kernel
  exact savable_of_isPlace (hplace _ _ htemporary) (hplace _ _ hfile) rfl

end Sample

end Journal

end Abacus
