import Abacus.Proofs.Notebook.Evaluation
import Abacus.Proofs.Session.Failures
import Abacus.Proofs.Session.Substitution

/-!
# Variables keep their values

A variable has the value that was assigned to it until the session is reset or another value is
assigned to it. The frame of a step is all that it does not assign to, and the frame of a run is
what none of its steps assigns to. The name of a variable, on a line of its own, is read as that
variable.
-/

namespace Abacus

theorem Expr.parse_name {name : String} (h : Token.IsName name) :
    parse name = .ok (.variable name) := by
  have htext : (Expr.variable name).text = name := String.ofList_toList
  have hheight : (Expr.variable name).height ≤ 128 := Nat.succ_le_succ (Nat.zero_le 127)
  have hread : parse (Expr.variable name).text = .ok (.variable name) := parse_text h hheight
  rwa [htext] at hread

namespace Session

/-- A step of a run, with what it gives back, that takes the value of a name away: a reset, or a
line that assigns to the name and succeeds. -/
def Overwrites (name : String) : Step × Option (Except EvalError Value) → Prop
  | (.reset, _) => True
  | (.line text, some (.ok _)) => ∃ expression, Assignment.split? text = some (name, expression)
  | _ => False

variable {s next : Session} {v : Value} {name other line : String}

theorem result_name (h : Token.IsName name) : s.result name = s.lookup name := by
  rw [result, eval_expression (Expr.parse_name h), evalExpr]
  cases s.lookup name <;> rfl

theorem find?_step {next : Step} (h : ¬Overwrites name (next, s.outcome? next)) :
    (s.step next).bindings.find? name = s.bindings.find? name := by
  cases next with
  | tree e parsed => rfl
  | clear => rfl
  | reset => exact absurd trivial h
  | line text =>
      rw [step, afterLine]
      rw [outcome?] at h
      cases heval : s.eval text with
      | error err => rfl
      | ok result =>
          rw [heval] at h
          have hsets := sets_of_eval heval
          cases hsplit : Assignment.split? text with
          | none => exact congrArg (·.find? name) (hsets.bare hsplit)
          | some parts =>
              obtain ⟨bound, expression⟩ := parts
              refine hsets.others bound expression name hsplit ?_
              rintro rfl
              exact h ⟨expression, hsplit⟩

theorem find?_run {steps : List Step} (h : ∀ entry ∈ s.transcript steps, ¬Overwrites name entry) :
    (s.run steps).bindings.find? name = s.bindings.find? name := by
  induction steps generalizing s with
  | nil => rfl
  | cons next rest ih =>
      obtain ⟨hfirst, hrest⟩ := List.forall_mem_cons.1 h
      rw [run_cons, ih hrest, find?_step hfirst]

/-- An assigned name is no reserved one, and its value is one that the mode may give. -/
theorem assigned_of_eval (hs : s.Sound) {expression : String}
    (hsplit : Assignment.split? line = some (name, expression))
    (h : s.eval line = .ok (v, next)) :
    Assignment.IsName name.toList ∧ isReserved name = false ∧ v.Proper s.mode := by
  have hproper := (sound_eval hs h).1
  rcases eval_eq_ok.1 h with ⟨bound, text, hparts, hfree, -, -⟩ | ⟨hnone, -⟩
  · rw [hsplit] at hparts
    cases hparts
    exact ⟨Assignment.isName_of_split? hsplit, hfree, hproper⟩
  · rw [hsplit] at hnone
    cases hnone

/-- A name with a value of the mode is looked up as that value. -/
theorem lookup_of_find? (hfree : isReserved name = false) (hv : v.Proper s.mode)
    (hfind : s.bindings.find? name = some v) : s.lookup name = .ok v :=
  lookup_eq_ok.2
    (Or.inr (Or.inl ⟨ne_answerName_of_free hfree, v, hfind, (coerce_of_proper hv).symm⟩))

theorem lookup_congr (hmode : next.mode = s.mode) (hanswer : other ≠ answerName)
    (hfind : next.bindings.find? other = s.bindings.find? other) :
    next.lookup other = s.lookup other := by
  simp only [lookup, hanswer, if_false, hfind, hmode]

/-- An assignment, whether it succeeds or not, leaves all other names but the answer as they are. -/
theorem lookup_afterLine {expression : String}
    (hsplit : Assignment.split? line = some (name, expression)) (hother : other ≠ name)
    (hanswer : other ≠ answerName) : (s.afterLine line).lookup other = s.lookup other := by
  rw [afterLine]
  cases heval : s.eval line with
  | error err => rfl
  | ok result =>
      have hsets := sets_of_eval heval
      exact lookup_congr hsets.mode hanswer (hsets.others name expression other hsplit hother)

/-- In every session that a run comes to, a line that succeeds in assigning a value to a name gives
it that value until the session is reset or another assignment to the name succeeds: whatever is
done in between, the variable has the value, and its name on a line of its own evaluates to it. What
other names stand for is the same before and after an assignment. -/
theorem variables_last (mode : NumberMode) (steps : List Step) :
    let s := (fresh mode).run steps
    (∀ line name expression v next, Assignment.split? line = some (name, expression) →
      s.eval line = .ok (v, next) → ∀ more : List Step,
        (∀ entry ∈ next.transcript more, ¬Overwrites name entry) →
          (next.run more).bindings.find? name = some v ∧
            (next.run more).result name = .ok v) ∧
    ∀ line name expression, Assignment.split? line = some (name, expression) →
      ∀ other, isReserved other = false → other ≠ name →
        (s.afterLine line).evalExpr (.variable other) = s.evalExpr (.variable other) ∧
          (Token.IsName other → (s.afterLine line).result other = s.result other) := by
  intro s
  have hs : s.Sound := (sound_run (sound_fresh mode) steps).1
  constructor
  · intro line name expression v next hsplit heval more hkeeps
    obtain ⟨hname, hfree, hproper⟩ := assigned_of_eval hs hsplit heval
    have hsets := sets_of_eval heval
    have hfind : (next.run more).bindings.find? name = some v := by
      rw [find?_run hkeeps]
      exact hsets.bound name expression hsplit
    have hmode : (next.run more).mode = s.mode := by
      rw [mode_run, hsets.mode]
    refine ⟨hfind, ?_⟩
    rw [result_name hname.token]
    exact lookup_of_find? hfree (hmode ▸ hproper) hfind
  · intro line name expression hsplit other hfree hother
    have hsame : (s.afterLine line).lookup other = s.lookup other :=
      lookup_afterLine hsplit hother (ne_answerName_of_free hfree)
    refine ⟨hsame, ?_⟩
    intro hname
    rw [result_name hname, result_name hname, hsame]

end Session

end Abacus
