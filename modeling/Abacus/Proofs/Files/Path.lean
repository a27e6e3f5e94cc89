import Mathlib.Data.List.Infix
import Mathlib.Data.List.TakeWhile
import Abacus.Proofs.Files.Disk

/-!
# The directory of a path

The directory that a path names before its last part is the one that the path leads through. So it
is there whenever the path leads to a place.
-/

namespace Abacus

namespace Path

section Cut

theorem cut_ne_nil (cs : List Char) : cut cs ≠ [] := by
  cases cs with
  | nil => simp [cut]
  | cons c rest =>
      rw [cut]
      split
      · simp
      · split <;> simp

theorem cut_append (front rest : List Char) :
    cut (front ++ '/' :: rest) = cut front ++ cut rest := by
  induction front with
  | nil => simp [cut]
  | cons c more ih =>
      rw [List.cons_append, cut, cut, ih]
      split
      · simp
      · cases hcut : cut more with
        | nil => exact absurd hcut (cut_ne_nil more)
        | cons first others => simp

theorem cut_of_notMem {cs : List Char} (h : '/' ∉ cs) : cut cs = [cs] := by
  induction cs with
  | nil => rfl
  | cons c rest ih =>
      rw [List.mem_cons, not_or] at h
      rw [cut, if_neg (Ne.symm h.1), ih h.2]

/-- The parts of a text. -/
def parts (cs : List Char) : List String := (cut cs).map String.ofList

theorem parts_append (front rest : List Char) :
    parts (front ++ '/' :: rest) = parts front ++ parts rest := by
  simp [parts, cut_append]

end Cut

section Voids

theorem dropVoid_suffix (cs : List Char) : dropVoid cs <:+ cs := by
  induction cs using dropVoid.induct with
  | case1 rest hempty =>
      rw [dropVoid, if_pos hempty, List.isEmpty_iff.1 hempty]
  | case2 rest hempty ih =>
      rw [dropVoid, if_neg hempty]
      exact ih.trans (List.suffix_cons _ _)
  | case3 rest ih =>
      rw [dropVoid]
      exact ih.trans (List.suffix_cons _ _)
  | case4 cs hslash hdot =>
      rw [dropVoid]
      · exact hslash
      · exact hdot

/-- A path that ends in a name has nothing to take off. -/
theorem dropVoid_append {name : List Char} (hne : name ≠ []) (hdot : name ≠ ['.'])
    (hslash : '/' ∉ name) (rest : List Char) : dropVoid (name ++ rest) = name ++ rest := by
  cases name with
  | nil => exact absurd rfl hne
  | cons c more =>
      rw [List.mem_cons, not_or] at hslash
      unfold dropVoid
      split
      · next heq =>
          cases heq
          exact absurd rfl hslash.1
      · next heq =>
          cases more with
          | nil =>
              cases heq
              exact absurd rfl hdot
          | cons e others =>
              cases heq
              exact absurd (List.mem_cons_self ..) hslash.2
      · rfl

/-- The last part of a reversed text and what is before it. -/
structure IsLastPart (cs name rest : List Char) : Prop where
  text : cs = name ++ rest
  slash : '/' ∉ name
  front : rest = [] ∨ ∃ front, rest = '/' :: front

variable {cs name rest : List Char}

theorem exists_isLastPart (cs : List Char) : ∃ name rest, IsLastPart cs name rest := by
  refine ⟨cs.takeWhile (· ≠ '/'), cs.dropWhile (· ≠ '/'), List.takeWhile_append_dropWhile.symm,
    ?_, ?_⟩
  · intro hmem
    have hslash := List.mem_takeWhile_imp hmem
    simp at hslash
  · cases hrest : cs.dropWhile (· ≠ '/') with
    | nil => exact Or.inl rfl
    | cons c front =>
        have hhead := List.head?_dropWhile_not (· ≠ '/') cs
        rw [hrest] at hhead
        have hslash : c = '/' := by simpa using hhead
        exact Or.inr ⟨front, hslash ▸ rfl⟩

theorem IsLastPart.eq_span (h : IsLastPart cs name rest) :
    name = cs.takeWhile (· ≠ '/') ∧ rest = cs.dropWhile (· ≠ '/') := by
  obtain ⟨rfl, hslash, hfront⟩ := h
  have hmem : ∀ c ∈ name, decide (c ≠ '/') = true := by
    rintro c hc
    simp only [decide_eq_true_eq]
    rintro rfl
    exact hslash hc
  rw [List.takeWhile_append_of_pos hmem, List.dropWhile_append_of_pos hmem]
  rcases hfront with rfl | ⟨front, rfl⟩ <;> simp

theorem IsLastPart.unique {name' rest' : List Char} (h : IsLastPart cs name rest)
    (h' : IsLastPart cs name' rest') : name = name' ∧ rest = rest' :=
  ⟨h.eq_span.1.trans h'.eq_span.1.symm, h.eq_span.2.trans h'.eq_span.2.symm⟩

theorem splitLast?_eq {p : Path} (h : IsLastPart p.text.toList.reverse name rest)
    (hne : name ≠ []) (hdot : name ≠ ['.']) :
    p.splitLast? = some (rest.reverse, name.reverse) := by
  have hcs : dropVoid p.text.toList.reverse = p.text.toList.reverse := by
    rw [h.text, dropVoid_append hne hdot h.slash]
  rw [splitLast?, hcs]
  split
  · next hnil =>
      rw [h.text] at hnil
      exact absurd (List.append_eq_nil_iff.1 hnil).1 hne
  · next heq =>
      rw [h.text] at heq
      cases name with
      | nil => exact absurd rfl hne
      | cons c more =>
          cases heq
          exact absurd (List.mem_cons_self ..) h.slash
  · rw [← h.eq_span.1, ← h.eq_span.2]

theorem parent?_eq {p : Path} (h : IsLastPart p.text.toList.reverse name rest)
    (hne : name ≠ []) (hdot : name ≠ ['.']) :
    p.parent? = some ⟨String.ofList (dropVoid rest).reverse⟩ := by
  rw [parent?, splitLast?_eq h hne hdot]
  simp only [Option.map_some, List.reverse_reverse]

end Voids

end Path

namespace Disk

variable {d : Disk} {l : Location}

theorem enter_void {segment : String} (hvoid : segment = "" ∨ segment = ".") :
    d.enter l segment = .ok l := by
  rw [enter, if_pos hvoid]

theorem foldlM_enter_void {segment : String} (hvoid : segment = "" ∨ segment = ".")
    (segments : List String) :
    (segments ++ [segment]).foldlM d.enter l = segments.foldlM d.enter l := by
  rw [List.foldlM_append]
  cases segments.foldlM d.enter l with
  | error e => rfl
  | ok m => simp [enter_void hvoid, bind, Except.bind, pure, Except.pure]

/-- Taking off parts that mean nothing leads to the same directory. -/
theorem foldlM_enter_dropVoid (cs : List Char) (start : Location) :
    (Path.parts (Path.dropVoid cs).reverse).foldlM d.enter start =
      (Path.parts cs.reverse).foldlM d.enter start := by
  have hslash : ∀ rest : List Char, Path.parts ('/' :: rest).reverse =
      Path.parts rest.reverse ++ [""] := by
    intro rest
    rw [List.reverse_cons, Path.parts_append]
    rfl
  have hdot : ∀ rest : List Char, Path.parts ('.' :: '/' :: rest).reverse =
      Path.parts rest.reverse ++ ["."] := by
    intro rest
    rw [List.reverse_cons, List.reverse_cons, List.append_assoc]
    exact Path.parts_append _ _
  induction cs using Path.dropVoid.induct with
  | case1 rest hempty =>
      rw [Path.dropVoid, if_pos hempty, List.isEmpty_iff.1 hempty]
  | case2 rest hempty ih =>
      rw [Path.dropVoid, if_neg hempty, ih, hslash, foldlM_enter_void (Or.inl rfl)]
  | case3 rest ih =>
      rw [Path.dropVoid, ih, hslash, hdot, foldlM_enter_void (Or.inl rfl),
        foldlM_enter_void (Or.inr rfl)]
  | case4 cs hslash hdot =>
      rw [Path.dropVoid]
      · exact hslash
      · exact hdot

theorem segments_eq_ok {p : Path} {parts : List String} (h : segments p = .ok parts) :
    parts = Path.parts p.text.toList := by
  unfold segments at h
  split_ifs at h
  cases h
  rfl

theorem segments_of_prefix {p q : Path} {parts : List String} (h : segments p = .ok parts)
    (hstart : q.text.toList <+: p.text.toList) (hne : q.text.isEmpty = false) :
    segments q = .ok (Path.parts q.text.toList) := by
  obtain ⟨rest, hrest⟩ := hstart
  unfold segments at h ⊢
  split_ifs at h with hempty hnul hlong
  have htext : p.text = q.text ++ String.ofList rest := by
    apply String.toList_inj.1
    rw [String.toList_append, String.toList_ofList, hrest]
  have hnul' : ¬q.text.toList.contains '\x00' = true := by
    intro hmem
    apply hnul
    rw [← hrest, List.contains_iff_mem, List.mem_append]
    exact Or.inl (List.contains_iff_mem.1 hmem)
  have hlong' : ¬maxPath < q.text.utf8ByteSize := by
    rw [htext, String.utf8ByteSize_append] at hlong
    omega
  rw [hne, if_neg hnul', if_neg hlong']
  rfl

/-- A path that leads to a name leads there through the parts before it. -/
theorem exists_of_locate {p : Path} {directory : Location} {name : String}
    (h : d.locate p = .ok (directory, some name)) :
    ∃ parts, segments p = .ok (parts ++ [name]) ∧ parts.foldlM d.enter [] = .ok directory ∧
      name ≠ "" ∧ name ≠ "." ∧ name ≠ ".." := by
  obtain ⟨parts, hparts, h⟩ := bind_eq_ok.1 h
  obtain ⟨start, hstart, h⟩ := bind_eq_ok.1 h
  cases parts using List.reverseRecOn with
  | nil => cases h
  | append_singleton parts last =>
      rw [List.getLast?_concat] at h
      rw [List.dropLast_concat] at hstart
      dsimp only at h
      split_ifs at h with hvoid hup hlong
      · cases h
      · cases h
      · cases h
        rw [not_or] at hvoid
        exact ⟨parts, hparts, hstart, hvoid.1, hvoid.2, hup⟩

theorem present_of_foldlM {p : Path} {parts : List String} (hparts : segments p = .ok parts)
    (h : parts.foldlM d.enter [] = .ok l) : d.present p = true := by
  cases parts using List.reverseRecOn with
  | nil =>
      have hlocate : d.locate p = .ok ([], none) := by
        rw [locate, hparts]
        rfl
      rw [present, hlocate]
  | append_singleton parts last =>
      rw [List.foldlM_append] at h
      obtain ⟨directory, hdirectory, henter⟩ := bind_eq_ok.1 h
      have hlocate : d.locate p =
          if last = "" ∨ last = "." then .ok (directory, none)
          else if last = ".." then .ok (directory.dropLast, none)
          else if maxName < last.utf8ByteSize then .error .nameTooLong
          else .ok (directory, some last) := by
        rw [locate, hparts]
        simp only [List.dropLast_concat, List.getLast?_concat, hdirectory, bind, Except.bind]
      have hsingle : d.enter directory last = .ok l := by
        obtain ⟨m, hm, hpure⟩ := bind_eq_ok.1 henter
        cases hpure
        exact hm
      rw [present, hlocate]
      unfold enter at hsingle
      split_ifs at hsingle ⊢ with hvoid hup hlong
      · rfl
      · rfl
      · cases hnode : d.node? (directory ++ [last]) with
        | none => simp [hnode] at hsingle
        | some node => simp [hnode]

/-- What stands before the last part leads to the same directory as the parts before it. -/
theorem exists_parts_before {cs last rest : List Char} (h : Path.IsLastPart cs last rest) :
    ∃ before, Path.parts cs.reverse = before ++ [String.ofList last.reverse] ∧
      (Path.parts rest.reverse).foldlM d.enter [] = before.foldlM d.enter [] := by
  obtain ⟨rfl, hslash, hfront⟩ := h
  have hlast : Path.parts last.reverse = [String.ofList last.reverse] := by
    rw [Path.parts, Path.cut_of_notMem (by simpa using hslash)]
    rfl
  rw [List.reverse_append]
  rcases hfront with rfl | ⟨front, rfl⟩
  · exact ⟨[], hlast, foldlM_enter_void (Or.inl rfl) []⟩
  · refine ⟨Path.parts front.reverse, ?_, ?_⟩
    · rw [List.reverse_cons, List.append_assoc, List.singleton_append, Path.parts_append, hlast]
    · rw [List.reverse_cons, Path.parts_append]
      exact foldlM_enter_void (Or.inl rfl) _

/-- The text of a path that leads to a name: it ends in the name, and what stands before the name
leads to the directory. -/
structure EndsIn (d : Disk) (p : Path) (directory : Location) (last rest : List Char) : Prop where
  isLastPart : Path.IsLastPart p.text.toList.reverse last rest
  leads : (Path.parts rest.reverse).foldlM d.enter [] = .ok directory
  nonempty : last ≠ []
  notDot : last ≠ ['.']
  notUp : last ≠ ['.', '.']

theorem exists_endsIn {p : Path} {directory : Location} {name : String}
    (h : d.locate p = .ok (directory, some name)) :
    ∃ last rest, name = String.ofList last.reverse ∧ d.EndsIn p directory last rest := by
  obtain ⟨parts, hsegments, hfold, hempty, hdot, hup⟩ := exists_of_locate h
  obtain ⟨last, rest, hlast⟩ := Path.exists_isLastPart p.text.toList.reverse
  obtain ⟨before, hbefore, hsame⟩ := exists_parts_before (d := d) hlast
  have hparts := segments_eq_ok hsegments
  rw [List.reverse_reverse] at hbefore
  rw [hbefore] at hparts
  obtain ⟨rfl, hname⟩ := List.append_inj' hparts rfl
  have hname : name = String.ofList last.reverse := List.singleton_inj.1 hname
  refine ⟨last, rest, hname, hlast, hsame.trans hfold, ?_, ?_, ?_⟩
  · rintro rfl
    exact hempty hname
  · rintro rfl
    exact hdot hname
  · rintro rfl
    exact hup hname

variable {file directory : Path} {start : Location} {name : String}

/-- The directory that a path names before its last part is the one that the path leads through. -/
theorem foldlM_enter_parent (hlocate : d.locate file = .ok (start, some name))
    (hparent : file.parent? = some directory) :
    (Path.parts directory.text.toList).foldlM d.enter [] = .ok start := by
  obtain ⟨last, rest, -, hends⟩ := exists_endsIn hlocate
  rw [Path.parent?_eq hends.isLastPart hends.nonempty hends.notDot] at hparent
  cases hparent
  rw [String.toList_ofList, foldlM_enter_dropVoid, hends.leads]

theorem segments_parent (hlocate : d.locate file = .ok (start, some name))
    (hparent : file.parent? = some directory) (hne : directory.text.isEmpty = false) :
    segments directory = .ok (Path.parts directory.text.toList) := by
  obtain ⟨parts, hsegments, -⟩ := exists_of_locate hlocate
  obtain ⟨last, rest, -, hends⟩ := exists_endsIn hlocate
  rw [Path.parent?_eq hends.isLastPart hends.nonempty hends.notDot] at hparent
  cases hparent
  apply segments_of_prefix hsegments _ hne
  have htext : file.text.toList = rest.reverse ++ last.reverse := by
    rw [← List.reverse_append, ← hends.isLastPart.text, List.reverse_reverse]
  rw [htext, String.toList_ofList]
  exact (List.reverse_prefix.2 (Path.dropVoid_suffix rest)).trans (List.prefix_append _ _)

theorem present_parent (hplace : d.IsPlace file l) (hparent : file.parent? = some directory)
    (hne : directory.text.isEmpty = false) : d.present directory = true := by
  obtain ⟨start, name, hlocate, -⟩ := hplace.locate
  exact present_of_foldlM (segments_parent hlocate hparent hne)
    (foldlM_enter_parent hlocate hparent)

section Leading

/-- A directory that is there with all directories above it. -/
def Reached (d : Disk) (l : Location) : Prop :=
  ∀ above, above <+: l → d.node? above = some .directory

theorem reached_root (d : Disk) : d.Reached [] := by
  intro above habove
  rw [List.prefix_nil.1 habove]
  rfl

theorem Reached.dropLast (h : d.Reached l) : d.Reached l.dropLast :=
  fun above habove => h above (habove.trans (List.dropLast_prefix l))

theorem Reached.enter {l' : Location} {segment : String} (h : d.Reached l)
    (henter : d.enter l segment = .ok l') : d.Reached l' := by
  unfold Disk.enter at henter
  split_ifs at henter
  · cases henter
    exact h
  · cases henter
    exact h.dropLast
  · split at henter
    · next hdirectory =>
        cases henter
        intro above habove
        rcases List.prefix_concat_iff.1 habove with rfl | habove
        · exact hdirectory
        · exact h above habove
    · cases henter
    · cases henter

theorem Reached.foldlM {l' : Location} {segments : List String} (h : d.Reached l)
    (hfold : segments.foldlM d.enter l = .ok l') : d.Reached l' := by
  induction segments generalizing l with
  | nil =>
      cases hfold
      exact h
  | cons segment rest ih =>
      rw [List.foldlM_cons] at hfold
      obtain ⟨next, hnext, hrest⟩ := bind_eq_ok.1 hfold
      exact ih (h.enter hnext) hrest

/-- A path that ends in no name leads to a directory. -/
theorem node?_of_locate {p : Path} (h : d.locate p = .ok (l, none)) :
    d.node? l = some .directory := by
  obtain ⟨parts, -, h⟩ := bind_eq_ok.1 h
  obtain ⟨start, hstart, h⟩ := bind_eq_ok.1 h
  have hreached := (reached_root d).foldlM hstart
  split at h
  · cases h
    exact hreached _ List.prefix_rfl
  · split_ifs at h
    · cases h
      exact hreached _ List.prefix_rfl
    · cases h
      exact hreached.dropLast _ List.prefix_rfl
    · cases h

/-- A path leads to a place, whatever there is. -/
def LeadsTo (d : Disk) (p : Path) (l : Location) : Prop :=
  ∃ directory name?, d.locate p = .ok (directory, name?) ∧ l = directory ++ name?.toList

theorem LeadsTo.of_keepsDirectories {d' : Disk} {p : Path} (h : d.LeadsTo p l)
    (hkeeps : KeepsDirectories d d') : d'.LeadsTo p l := by
  obtain ⟨directory, name?, hlocate, hl⟩ := h
  exact ⟨directory, name?, locate_of_keepsDirectories hkeeps hlocate, hl⟩

end Leading

end Disk

end Abacus
