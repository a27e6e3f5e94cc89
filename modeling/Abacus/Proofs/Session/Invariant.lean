import Abacus.Proofs.Arithmetic
import Abacus.Proofs.Expr.Literals
import Abacus.Proofs.Session.Apply
import Abacus.Proofs.Session.Evaluation
import Abacus.Proofs.Session.Splitting
import Abacus.Proofs.Session.Steps

/-!
# What holds of every session

Nothing infinite or undefined gets into a session, and nothing that hides the answer or a constant.
-/

namespace Abacus

open Arithmetic

namespace Value

/-- A value that an evaluation may give in a mode: finite, and a double in float mode. -/
structure Proper (mode : NumberMode) (v : Value) : Prop where
  finite : v.IsFinite
  decimal : mode = .float → v.isInteger = false

theorem proper_decimal {x : Float} (mode : NumberMode) (h : x.isFinite = true) :
    (decimal x).Proper mode :=
  ⟨h, fun _ => rfl⟩

theorem proper_integer (n : Integer) : (integer n).Proper .exact :=
  ⟨trivial, nofun⟩

end Value

section Operations

variable {mode : NumberMode} {op : Operation} {a b : Integer} {x y : Float} {v w result : Value}

theorem proper_applyFloats (mode : NumberMode) (h : applyFloats op x y = .ok v) :
    v.Proper mode := by
  obtain ⟨z, -, -, hfinite, rfl⟩ := applyFloats_eq_ok.1 h
  exact Value.proper_decimal mode hfinite

theorem proper_divideIntegers (h : divideIntegers a b = .ok v) : v.Proper .exact := by
  obtain ⟨r, -, ⟨-, n, -, rfl⟩ | ⟨-, z, hz, rfl⟩⟩ := divideIntegers_eq_ok.1 h
  · exact Value.proper_integer n
  · have ha := Binary64.isFinite_ofInt a
    have hb := Binary64.isFinite_ofInt b
    exact Value.proper_decimal .exact (isFinite_divide ha hb hz)

theorem proper_powerIntegers (h : powerIntegers a b = .ok v) : v.Proper .exact := by
  unfold powerIntegers at h
  split_ifs at h
  · exact proper_applyFloats .exact h
  · obtain ⟨n, -, rfl⟩ := map_eq_ok.1 h
    exact Value.proper_integer n
  all_goals
    cases h
    exact Value.proper_integer _

theorem proper_applyIntegers (h : applyIntegers op a b = .ok v) : v.Proper .exact := by
  cases op with
  | divide => exact proper_divideIntegers h
  | power => exact proper_powerIntegers h
  | _ =>
      obtain ⟨n, -, rfl⟩ := map_eq_ok.1 h
      exact Value.proper_integer n

theorem proper_apply (h : op.apply mode v w = .ok result) : result.Proper mode := by
  cases mode with
  | float => exact proper_applyFloats .float h
  | exact =>
      cases v with
      | decimal x => exact proper_applyFloats .exact h
      | integer a =>
          cases w with
          | decimal y => exact proper_applyFloats .exact h
          | integer b => exact proper_applyIntegers h

theorem proper_coerce (mode : NumberMode) (h : v.IsFinite) :
    (Session.coerce mode v).Proper mode := by
  cases mode with
  | exact =>
      rw [Session.coerce_exact]
      exact ⟨h, nofun⟩
  | float =>
      cases v with
      | integer n => exact Value.proper_decimal .float (Binary64.isFinite_ofInt n)
      | decimal x => exact Value.proper_decimal .float h

theorem proper_settle (mode : NumberMode) (h : x.isFinite = true) :
    (Session.settle mode x).Proper mode := by
  cases mode with
  | exact => exact ⟨Value.isFinite_ofFloat h, nofun⟩
  | float => exact Value.proper_decimal .float h

theorem exact_of_proper_integer (h : (Value.integer a).Proper mode) : mode = .exact := by
  cases mode with
  | exact => rfl
  | float => exact absurd (h.decimal rfl) (by simp [Value.isInteger])

theorem proper_negate (hv : v.Proper mode) (h : Session.negate v = .ok result) :
    result.Proper mode := by
  cases v with
  | integer n =>
      obtain rfl := exact_of_proper_integer hv
      obtain ⟨m, -, rfl⟩ := map_eq_ok.1 h
      exact Value.proper_integer m
  | decimal x =>
      cases h
      exact Value.proper_decimal mode (Binary64.isFinite_neg hv.finite)

theorem proper_applyFunction {f : Function} (hv : v.Proper mode)
    (h : Session.applyFunction mode f v = .ok result) : result.Proper mode := by
  cases f with
  | sqrt =>
      obtain ⟨x, hx, rfl⟩ := map_eq_ok.1 h
      exact proper_settle mode (isFinite_squareRoot (Value.isFinite_toFloat hv.finite) hx)
  | percent =>
      cases h
      exact proper_settle mode (isFinite_percentage (Value.isFinite_toFloat hv.finite))
  | square =>
      cases v with
      | integer n =>
          obtain rfl := exact_of_proper_integer hv
          obtain ⟨m, -, rfl⟩ := map_eq_ok.1 h
          exact Value.proper_integer m
      | decimal x =>
          obtain ⟨y, hy, rfl⟩ := map_eq_ok.1 h
          exact Value.proper_decimal mode (isFinite_square hv.finite hy)
  | abs =>
      cases v with
      | integer n =>
          obtain rfl := exact_of_proper_integer hv
          simp only [Session.applyFunction] at h
          split at h
          · cases h
            exact Value.proper_integer _
          · cases h
      | decimal x =>
          cases h
          exact Value.proper_decimal mode (Binary64.isFinite_abs hv.finite)

end Operations

theorem isFinite_constants {entry : String × Float} (h : entry ∈ constants) :
    entry.2.isFinite = true := by
  revert entry
  decide +kernel

theorem isReserved_constants {entry : String × Float} (h : entry ∈ constants) :
    isReserved entry.1 = true ∧ entry.1 ≠ answerName := by
  revert entry
  decide +kernel

theorem find?_constants {entry : String × Float} (h : entry ∈ constants) :
    constants.find? (·.1 == entry.1) = some entry := by
  revert entry
  decide +kernel

namespace Bindings

theorem mem_entries_of_find? {bindings : Bindings} {name : String} {v : Value}
    (h : bindings.find? name = some v) : (name, v) ∈ bindings.entries := by
  obtain ⟨entry, hentry, rfl⟩ := Option.map_eq_some_iff.1 h
  have hname : entry.1 = name := by simpa using List.find?_some hentry
  subst hname
  exact List.mem_of_find?_eq_some hentry

theorem mem_insertEntry {name : String} {v : Value} {entries : List (String × Value)}
    {entry : String × Value} (h : entry ∈ insertEntry name v entries) :
    entry = (name, v) ∨ entry ∈ entries := by
  induction entries with
  | nil => exact Or.inl (List.mem_singleton.1 h)
  | cons first rest ih =>
      unfold insertEntry at h
      split_ifs at h
      · rcases List.mem_cons.1 h with h | h
        · exact Or.inl h
        · exact Or.inr (List.mem_cons_of_mem _ h)
      · rcases List.mem_cons.1 h with h | h
        · exact Or.inl h
        · exact Or.inr h
      · rcases List.mem_cons.1 h with rfl | h
        · exact Or.inr (List.mem_cons_self ..)
        · exact (ih h).imp_right (List.mem_cons_of_mem _)

end Bindings

namespace Session

variable {s : Session} {v : Value}

/-- What holds of a session in every state. -/
structure Sound (s : Session) : Prop where
  answer_finite : s.answer.IsFinite
  answer_decimal : s.mode = .float → s.answer = .zero ∨ s.answer.isInteger = false
  variables_proper : ∀ entry ∈ s.bindings.entries, entry.2.Proper s.mode
  names : ∀ entry ∈ s.bindings.entries,
    Assignment.IsName entry.1.toList ∧ isReserved entry.1 = false

theorem proper_lookup (hs : s.Sound) {name : String} (h : s.lookup name = .ok v) :
    v.Proper s.mode := by
  obtain ⟨-, rfl⟩ | ⟨-, x, hx, rfl⟩ | ⟨-, -, entry, hentry, rfl⟩ := lookup_eq_ok.1 h
  · exact proper_coerce s.mode hs.answer_finite
  · exact proper_coerce s.mode (hs.variables_proper _ (Bindings.mem_entries_of_find? hx)).finite
  · exact Value.proper_decimal s.mode (isFinite_constants (List.mem_of_find?_eq_some hentry))

theorem proper_evalExpr (hs : s.Sound) {e : Expr} (hliterals : ∀ x ∈ e.literals, x.IsFinite)
    (h : s.evalExpr e = .ok v) : v.Proper s.mode := by
  induction e generalizing v with
  | literal x =>
      cases h
      exact proper_coerce s.mode (hliterals x (List.mem_singleton_self x))
  | «variable» name => exact proper_lookup hs h
  | negate operand ih =>
      obtain ⟨x, hx, hv⟩ := evalExpr_negate_eq_ok.1 h
      exact proper_negate (ih hliterals hx) hv
  | binary op lhs rhs _ _ =>
      obtain ⟨x, y, -, -, hv⟩ := evalExpr_binary_eq_ok.1 h
      exact proper_apply hv
  | call function argument ih =>
      obtain ⟨x, f, hx, -, hv⟩ := evalExpr_call_eq_ok.1 h
      exact proper_applyFunction (ih hliterals hx) hv

theorem proper_evalText (hs : s.Sound) {text : String} (h : s.evalText text = .ok v) :
    v.Proper s.mode := by
  obtain ⟨e, he, hv⟩ := evalText_eq_ok.1 h
  exact proper_evalExpr hs (fun x hx => Expr.isFinite_literals he hx) hv

theorem sound_fresh (mode : NumberMode) : (fresh mode).Sound where
  answer_finite := Value.isFinite_zero
  answer_decimal := fun _ => Or.inl rfl
  variables_proper := by
    intro entry hentry
    cases hentry
  names := by
    intro entry hentry
    cases hentry

theorem sound_clear (hs : s.Sound) : s.clear.Sound where
  answer_finite := Value.isFinite_zero
  answer_decimal := fun _ => Or.inl rfl
  variables_proper := hs.variables_proper
  names := hs.names

theorem sound_answer (hs : s.Sound) (hv : v.Proper s.mode) : { s with answer := v }.Sound where
  answer_finite := hv.finite
  answer_decimal := fun hmode => Or.inr (hv.decimal hmode)
  variables_proper := hs.variables_proper
  names := hs.names

theorem sound_insert (hs : s.Sound) {name : String} (hname : Assignment.IsName name.toList)
    (hfree : isReserved name = false) (hv : v.Proper s.mode) :
    { s with bindings := s.bindings.insert name v, answer := v }.Sound where
  answer_finite := hv.finite
  answer_decimal := fun hmode => Or.inr (hv.decimal hmode)
  variables_proper := by
    intro entry hentry
    rcases Bindings.mem_insertEntry hentry with rfl | hentry
    · exact hv
    · exact hs.variables_proper entry hentry
  names := by
    intro entry hentry
    rcases Bindings.mem_insertEntry hentry with rfl | hentry
    · exact ⟨hname, hfree⟩
    · exact hs.names entry hentry

/-- A line that succeeds gives a proper value and leaves a sound session of the same mode. -/
theorem sound_eval (hs : s.Sound) {line : String} {next : Session}
    (h : s.eval line = .ok (v, next)) : v.Proper s.mode ∧ next.Sound ∧ next.mode = s.mode := by
  rcases eval_eq_ok.1 h with ⟨name, expression, hsplit, hfree, hv, rfl⟩ | ⟨-, hv, rfl⟩
  · have hproper := proper_evalText hs hv
    exact ⟨hproper, sound_insert hs (Assignment.isName_of_split? hsplit) hfree hproper, rfl⟩
  · have hproper := proper_evalText hs hv
    exact ⟨hproper, sound_answer hs hproper, rfl⟩

theorem sound_step (hs : s.Sound) (next : Step) :
    (s.step next).Sound ∧ (s.step next).mode = s.mode := by
  cases next with
  | tree e parsed => exact ⟨hs, rfl⟩
  | clear => exact ⟨sound_clear hs, rfl⟩
  | reset => exact ⟨sound_fresh s.mode, rfl⟩
  | line text =>
      rw [step, afterLine]
      cases h : s.eval text with
      | error err => exact ⟨hs, rfl⟩
      | ok result => exact (sound_eval hs h).2

theorem sound_run (hs : s.Sound) (steps : List Step) :
    (s.run steps).Sound ∧ (s.run steps).mode = s.mode := by
  induction steps generalizing s with
  | nil => exact ⟨hs, rfl⟩
  | cons next rest ih =>
      obtain ⟨hsound, hmode⟩ := sound_step hs next
      obtain ⟨hrest, hsame⟩ := ih hsound
      exact ⟨hrest, hsame.trans hmode⟩

theorem proper_outcome (hs : s.Sound) {next : Step} (h : s.outcome? next = some (.ok v)) :
    v.Proper s.mode := by
  cases next with
  | clear => cases h
  | reset => cases h
  | tree e parsed =>
      obtain ⟨text, hparse⟩ := parsed
      exact proper_evalExpr hs (fun x hx => Expr.isFinite_literals hparse hx) (Option.some.inj h)
  | line text =>
      obtain ⟨⟨x, after⟩, heval, rfl⟩ := map_eq_ok.1 (Option.some.inj h)
      exact (sound_eval hs heval).1

theorem lookup_constant (hs : s.Sound) {entry : String × Float} (h : entry ∈ constants) :
    s.lookup entry.1 = .ok (.decimal entry.2) := by
  obtain ⟨hreserved, hanswer⟩ := isReserved_constants h
  have hfree : s.bindings.find? entry.1 = none := by
    refine Option.eq_none_iff_forall_not_mem.2 ?_
    intro x hx
    have hname := (hs.names _ (Bindings.mem_entries_of_find? hx)).2
    rw [hreserved] at hname
    cases hname
  exact lookup_eq_ok.2 (Or.inr (Or.inr ⟨hanswer, hfree, entry, find?_constants h, rfl⟩))

/-- In every state that a session reaches, the answer, the variables and every value that it gives
back are finite; in float mode they are doubles, where the answer may also be the `0` of a session
without one. The names of variables are identifiers and none is reserved, so that the answer and the
constants are never hidden. -/
theorem run_sound (mode : NumberMode) (steps : List Step) :
    let s := (fresh mode).run steps
    s.mode = mode ∧ s.Sound ∧
      (∀ next v, s.outcome? next = some (.ok v) → v.Proper mode) ∧
      s.lookup "ans" = .ok (coerce mode s.answer) ∧
      ∀ entry ∈ constants, s.lookup entry.1 = .ok (.decimal entry.2) := by
  intro s
  obtain ⟨hs, hmode⟩ := sound_run (sound_fresh mode) steps
  have hmode : s.mode = mode := hmode
  refine ⟨hmode, hs, ?_, ?_, fun entry => lookup_constant hs⟩
  · intro next v h
    exact hmode ▸ proper_outcome hs h
  · rw [← hmode]
    rfl

end Session

end Abacus
