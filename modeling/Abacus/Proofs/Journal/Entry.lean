import Abacus.Journal.Store
import Abacus.Proofs.Time.Instant
import Abacus.Proofs.Value.Json

/-!
# Entries and their texts

An entry is read back from its text: its result as the same kind of value, its expression and its
error to the letter, its time to the nanosecond. A list of entries is read back as well.
-/

namespace Abacus

open Json

namespace Json

theorem indentedMembers_record (depth : Nat) (members : List (String × Json)) :
    indentedMembers depth (members.map fun (name, j) => (some name, j)) =
      (members.map fun (name, j) => (name, indentedChars depth j)).map memberText := by
  induction members with
  | nil => rfl
  | cons member rest ih =>
      obtain ⟨name, j⟩ := member
      simp only [List.map_cons, indentedMembers, ih]
      rfl

theorem indentedChars_record (depth : Nat) (members : List (String × Json)) :
    indentedChars depth (record members) = block depth '\x7b' '\x7d'
      ((members.map fun (name, j) => (name, indentedChars (depth + 1) j)).map memberText) := by
  rw [record, indentedChars, indentedMembers_record]

theorem indentedItems_eq (depth : Nat) (items : List Json) :
    indentedItems depth items = items.map (indentedChars depth) := by
  induction items with
  | nil => rfl
  | cons j rest ih => rw [indentedItems, ih, List.map_cons]

end Json

namespace Entry

/-- An entry whose result has a text in JSON and whose time exists. -/
structure WellFormed (e : Entry) : Prop where
  isFinite : ∀ v, e.result = some v → v.IsFinite
  isValid : e.time.IsValid

/-- The digits of the result are read back if it is a double. -/
def ReadsBack (e : Entry) : Prop := ∀ x, e.result = some (.decimal x) → Value.ReadsBack x

instance (e : Entry) : Decidable e.ReadsBack :=
  match h : e.result with
  | some (.decimal x) => decidable_of_iff (Value.ReadsBack x) (by simp [ReadsBack, h])
  | some (.integer _) => isTrue (by simp [ReadsBack, h])
  | none => isTrue (by simp [ReadsBack, h])

def members (e : Entry) : List (String × Json) :=
  [("expression", .text e.expression)] ++ (e.result.map fun v => ("result", v.toJson)).toList ++
    (e.error.map fun text => ("error", .text text)).toList ++ [("evaluated_at", .text e.time.text)]

theorem toJson_eq (e : Entry) : e.toJson = record e.members := rfl

section Optional

variable {α : Type} {read : Json → Option α} {j : Json} {a : α}

theorem readOptional_of_some (hnull : read .null = none) (h : read j = some a) :
    readOptional read (some j) = some (some a) := by
  unfold readOptional
  split
  · next hnone => cases hnone
  · next heq =>
      cases heq
      rw [hnull] at h
      cases h
  · next heq =>
      cases heq
      rw [h, Option.map_some]

end Optional

theorem mapM_named (members : List (String × Json)) :
    (members.map fun (name, j) => (some name, j)).mapM
      (fun (name?, j) => name?.map (·, j)) = some members := by
  induction members with
  | nil => rfl
  | cons member rest ih =>
      rw [List.map_cons, List.mapM_cons, ih]
      rfl

theorem member?_members (e : Entry) :
    member? e.members "expression" = some (some (.text e.expression)) ∧
    member? e.members "result" = some (e.result.map Value.toJson) ∧
    member? e.members "error" = some (e.error.map .text) ∧
    member? e.members "evaluated_at" = some (some (.text e.time.text)) := by
  obtain ⟨expression, result, error, time⟩ := e
  cases result <;> cases error <;> simp [members, member?]

theorem readOptional_text (error : Option String) :
    readOptional getText? (error.map .text) = some error := by
  cases error <;> rfl

theorem readOptional_result {e : Entry} (h : e.WellFormed) (hback : e.ReadsBack) :
    readOptional Value.ofJson? (e.result.map Value.toJson) = some e.result := by
  cases hresult : e.result with
  | none => rfl
  | some v =>
      have hdecimal : ∀ x, v = .decimal x → Value.ReadsBack x := by
        rintro x rfl
        exact hback x hresult
      exact readOptional_of_some rfl (Value.ofJson?_toJson (h.isFinite v hresult) hdecimal)

theorem ofJson?_toJson {e : Entry} (h : e.WellFormed) (hback : e.ReadsBack) :
    ofJson? e.toJson = some e := by
  obtain ⟨hexpression, hvalue, herror, htimeText⟩ := member?_members e
  rw [toJson_eq, record, ofJson?, mapM_named]
  have htext : ∀ s, (Json.text s).getText? = some s := fun _ => rfl
  simp only [Option.bind_eq_bind, Option.bind_some, hexpression, hvalue, herror, htimeText,
    ofParts?, readOptional_result h hback, readOptional_text, htext, Instant.read?_text h.isValid]

theorem reads_toJson {e : Entry} (h : e.WellFormed) (depth : Nat) :
    Reads (indentedChars depth e.toJson) e.toJson := by
  have htext : ∀ s, Reads (indentedChars (depth + 1) (.text s)) (.text s) := reads_string
  have hvalue : ∀ v, e.result = some v → Reads (indentedChars (depth + 1) v.toJson) v.toJson :=
    fun v hv => Value.reads_toJson (h.isFinite v hv) (depth + 1)
  rw [toJson_eq, indentedChars_record]
  apply reads_record
  obtain ⟨expression, result, error, time⟩ := e
  cases result <;> cases error <;> simp [members, ReadsMember, htext, hvalue]

end Entry

namespace Journal

theorem mapM_ofJson? {entries : List Entry} (h : ∀ e ∈ entries, e.WellFormed)
    (hback : ∀ e ∈ entries, e.ReadsBack) :
    (entries.map Entry.toJson).mapM Entry.ofJson? = some entries := by
  induction entries with
  | nil => rfl
  | cons e rest ih =>
      have hfirst := Entry.ofJson?_toJson (h e (List.mem_cons_self ..))
        (hback e (List.mem_cons_self ..))
      have hrest := ih (fun f hf => h f (List.mem_cons_of_mem e hf))
        (fun f hf => hback f (List.mem_cons_of_mem e hf))
      rw [List.map_cons, List.mapM_cons, hfirst, hrest]
      rfl

theorem parse?_render {entries : List Entry} (h : ∀ e ∈ entries, e.WellFormed)
    (hback : ∀ e ∈ entries, e.ReadsBack) : parse? (render entries) = some entries := by
  have hreads : List.Forall₂ Reads (entries.map fun e => indentedChars 1 e.toJson)
      (entries.map Entry.toJson) := by
    rw [List.forall₂_map_left_iff, List.forall₂_map_right_iff, List.forall₂_same]
    exact fun e he => Entry.reads_toJson (h e he) 1
  have harray := reads_array hreads 0
  have hchars : (render entries).toList =
      block 0 '[' ']' (entries.map fun e => indentedChars 1 e.toJson) := by
    rw [render, indented, String.toList_ofList, indentedChars, indentedItems_eq, List.map_map]
    rfl
  have hblank : Text.isBlankText (render entries) = false := by
    have hbracket : ∃ more, (render entries).toList = '[' :: more := by
      rw [hchars, block]
      split
      · exact ⟨_, rfl⟩
      · exact ⟨_, rfl⟩
    obtain ⟨more, hmore⟩ := hbracket
    rw [Text.isBlankText, hmore]
    rfl
  have hread : Json.read? (render entries) = some (.array (entries.map Entry.toJson)) := by
    rw [← hchars] at harray
    exact harray.read?_eq
  rw [parse?, hblank, hread]
  exact mapM_ofJson? h hback

end Journal

end Abacus
