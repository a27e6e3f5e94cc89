import Abacus.Proofs.Journal.Store

/-!
# The temporary file of a journal

What a journal writes first is a file beside its own, of another name: the name without its
extension and `.json.tmp` behind it. No name is its own temporary name, whether it has an extension
or not, begins with a dot or ends in `.json.tmp` itself.
-/

namespace Abacus

namespace Path

theorem stem_cases (name : List Char) :
    stem name = name ∨ ∃ extension, name = stem name ++ '.' :: extension ∧ '.' ∉ extension := by
  have hname := List.takeWhile_append_dropWhile (p := (· ≠ '.')) (l := name.reverse)
  unfold stem
  cases hrest : name.reverse.dropWhile (· ≠ '.') with
  | nil => exact Or.inl rfl
  | cons c before =>
      cases before with
      | nil => exact Or.inl rfl
      | cons b more =>
          right
          have hhead := List.head?_dropWhile_not (· ≠ '.') name.reverse
          rw [hrest] at hhead hname
          obtain rfl : c = '.' := by simpa using hhead
          have hreverse := congrArg List.reverse hname
          rw [List.reverse_append, List.reverse_reverse, List.reverse_cons, List.append_assoc,
            List.singleton_append] at hreverse
          refine ⟨_, hreverse.symm, ?_⟩
          intro hmem
          have hdot := List.mem_takeWhile_imp (List.mem_reverse.1 hmem)
          simp at hdot

theorem stem_prefix (name : List Char) : stem name <+: name := by
  obtain hstem | ⟨extension, hname, -⟩ := stem_cases name
  · rw [hstem]
  · exact ⟨_, hname.symm⟩

end Path

namespace Journal

open Disk

/-- The name of the temporary file beside a file with the given name. -/
def temporaryName (name : String) : String :=
  String.ofList (Path.stem name.toList ++ ".json.tmp".toList)

theorem temporaryName_ne (name : String) : temporaryName name ≠ name := by
  intro h
  have hchars : Path.stem name.toList ++ ".json.tmp".toList = name.toList := by
    rw [← String.toList_ofList (l := _ ++ _)]
    exact congrArg String.toList h
  obtain hstem | ⟨extension, hname, hdot⟩ := Path.stem_cases name.toList
  · rw [hstem] at hchars
    simp at hchars
  · have hbehind := List.append_cancel_left (hchars.trans hname)
    obtain rfl : "json.tmp".toList = extension := (List.cons.inj hbehind).2
    exact hdot (by decide)

variable {d : Disk} {file : Path} {directory directory' : Location} {name name' : String}

/-- The text of the temporary path, which differs from that of the path in its last part. -/
theorem exists_text_temporary {last rest : List Char} (h : d.EndsIn file directory last rest) :
    ∃ part, (temporary file).text.toList = rest.reverse ++ part ∧ '/' ∉ part ∧
      (part = ['.', '.'] ∨ part = Path.stem last.reverse ++ ".json.tmp".toList) := by
  have hdot : ¬(last.reverse = ['.'] ∨ last.reverse = ['.', '.']) := by
    rw [not_or]
    constructor
    · intro hlast
      exact h.notDot (List.reverse_eq_iff.1 hlast)
    · intro hlast
      exact h.notUp (List.reverse_eq_iff.1 hlast)
  have hslash : '/' ∉ Path.stem last.reverse := by
    intro hmem
    exact h.isLastPart.slash (List.mem_reverse.1 ((Path.stem_prefix _).subset hmem))
  rw [temporary, Path.withExtension, Path.splitLast?_eq h.isLastPart h.nonempty h.notDot]
  dsimp only
  rw [if_neg hdot]
  split
  · exact ⟨['.', '.'], String.toList_ofList, by decide, Or.inl rfl⟩
  · refine ⟨Path.stem last.reverse ++ ".json.tmp".toList, ?_, ?_, Or.inr rfl⟩
    · rw [String.toList_ofList, List.append_assoc]
      rfl
    · rw [List.mem_append, not_or]
      exact ⟨hslash, by decide⟩

/-- The temporary path of a path leads to another name in the same directory. -/
theorem locate_temporary (h : d.locate file = .ok (directory, some name))
    (htemporary : d.locate (temporary file) = .ok (directory', some name')) :
    directory' = directory ∧ name' = temporaryName name := by
  obtain ⟨last, rest, rfl, hends⟩ := exists_endsIn h
  obtain ⟨last', rest', rfl, hends'⟩ := exists_endsIn htemporary
  obtain ⟨part, htext, hslash, hpart⟩ := exists_text_temporary hends
  have hlast : Path.IsLastPart (temporary file).text.toList.reverse part.reverse rest := by
    refine ⟨?_, by simpa using hslash, hends.isLastPart.front⟩
    rw [htext, List.reverse_append, List.reverse_reverse]
  obtain ⟨rfl, rfl⟩ := hends'.isLastPart.unique hlast
  have hsame : Except.ok directory' = Except.ok directory := hends'.leads.symm.trans hends.leads
  rcases hpart with rfl | rfl
  · -- The temporary path has lost its name, and leads to a directory.
    exact absurd rfl hends'.notUp
  · have hname : (String.ofList last.reverse).toList = last.reverse := String.toList_ofList
    refine ⟨Except.ok.inj hsame, ?_⟩
    rw [temporaryName, hname, List.reverse_reverse]

end Journal

end Abacus
