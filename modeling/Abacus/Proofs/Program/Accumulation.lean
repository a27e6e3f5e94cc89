import Mathlib.Data.List.Forall2
import Abacus.Program.Run
import Abacus.Proofs.Journal.Store
import Abacus.Proofs.Notebook.Evaluation
import Abacus.Proofs.Value.Lines

/-!
# The journal over many runs

Whatever expressions are evaluated in one run of the program after the other, the file of the
journal holds the newest of all that were attempted. Each run starts a session of its own, and
prints either one line for each expression or nothing.
-/

namespace Abacus

open OnDisk

/-- One run of the program: when it evaluates its lines, what it evaluates and whether it answers in
JSON. -/
structure Run where
  clock : Clock
  expressions : List String
  json : Bool

namespace Run

/-- The expressions of a run up to the first that fails, each with what it gives. -/
def attempts (mode : NumberMode) (r : Run) : List (String × Except EvalError Value) :=
  (Session.fresh mode).attempts r.expressions

/-- What a run enters into the journal. -/
def entries (mode : NumberMode) (r : Run) : List Entry :=
  Notebook.entries r.clock (r.attempts mode)

def carryOut (settings : Settings) (directory : Path) (r : Run) : OnDisk Report :=
  Request.evaluate r.clock settings directory r.expressions r.json

/-- What a run reports, where its journal can be saved. -/
def report (settings : Settings) (r : Run) : Report :=
  match (r.attempts settings.mode).mapM (Notebook.answer settings.precision) with
  | .error e => .failed (.evaluation e)
  | .ok answers => .success (answers.map fun a => if r.json then a.toJson.compact else a.formatted)

variable {settings : Settings} {directory file : Path} {d d' : Disk} {r : Run}

theorem exec_openJournal (hfile : settings.historyPath directory = some file) :
    exec (settings.openJournal directory) d = exec (Journal.load file settings.historyLimit) d := by
  rw [Settings.openJournal, hfile]

theorem exec_carryOut {journal : Journal}
    (hopen : exec (settings.openJournal directory) d = (.ok journal, d))
    (hsave : exec (Journal.save (.ofEntries journal.file journal.limit
      (journal.entries ++ r.entries settings.mode))) d = (.ok (), d')) :
    exec (r.carryOut settings directory) d = (r.report settings, d') := by
  have hjournal := Notebook.journal_evalAll r.clock settings.precision
    (.fresh settings.mode journal) r.expressions
  have hresult := Notebook.fst_evalAll r.clock settings.precision
    (.fresh settings.mode journal) r.expressions
  have hlast : exec (Journal.save ((Notebook.fresh settings.mode journal).evalAll r.clock
      settings.precision r.expressions).2.journal) d = (.ok (), d') := by
    rw [hjournal]
    exact hsave
  rw [carryOut, Request.evaluate, exec_bind, hopen]
  dsimp only
  rw [exec_bind, hlast, hresult, report]
  dsimp only [Notebook.fresh, attempts]
  cases ((Session.fresh settings.mode).attempts r.expressions).mapM
      (Notebook.answer settings.precision) with
  | error e => simp [Report.failed]
  | ok answers => simp [Report.success]

section Reports

variable {precision : Nat} {attempts : List (String × Except EvalError Value)}

end Reports

/-- The file of the journal holds the newest of some entries, and can be replaced. -/
structure Holds (settings : Settings) (file : Path) (log : List Entry) (d : Disk) : Prop where
  savable : Journal.Savable d file settings.historyLimit
  entries : Journal.entriesOn? d file = some (newest settings.historyLimit log)

/-- A run adds what it attempted to the entries that the file holds the newest of. -/
theorem Holds.carryOut {log : List Entry} (h : Holds settings file log d)
    (hfile : settings.historyPath directory = some file)
    (hwell : ∀ e ∈ log ++ r.entries settings.mode, e.WellFormed)
    (hback : ∀ e ∈ log ++ r.entries settings.mode, e.ReadsBack) :
    ∃ d', exec (r.carryOut settings directory) d = (r.report settings, d') ∧
      Holds settings file (log ++ r.entries settings.mode) d' := by
  generalize hafter : Journal.ofEntries (some file) settings.historyLimit
    (newest settings.historyLimit log ++ r.entries settings.mode) = after
  have hentries : after.entries =
      newest settings.historyLimit (log ++ r.entries settings.mode) := by
    rw [← hafter, Journal.entries_ofEntries, newest_append_newest]
  have hafterFile : after.file = some file := by rw [← hafter]; rfl
  have hafterLimit : after.limit = settings.historyLimit := by rw [← hafter]; rfl
  obtain ⟨d', hsave⟩ := h.savable.exists_save hafterFile hafterLimit
  have hopen : exec (settings.openJournal directory) d =
      (.ok (.ofEntries (some file) settings.historyLimit
        (newest settings.historyLimit log)), d) := by
    rw [exec_openJournal hfile]
    exact Journal.exec_load_eq_ok.2 ⟨_, h.entries, rfl, rfl⟩
  refine ⟨d', exec_carryOut hopen ?_, h.savable.of_save hafterFile hsave, ?_⟩
  · rw [Journal.entries_ofEntries, newest_newest]
    rw [← hafter] at hsave
    exact hsave
  · rw [← hentries]
    apply Journal.entriesOn?_of_save hafterFile _ _ hsave
    · intro e he
      rw [hentries] at he
      exact hwell e (mem_of_mem_newest he)
    · intro e he
      rw [hentries] at he
      exact hback e (mem_of_mem_newest he)

section Sample

open Journal (sampleFile savable_empty)

end Sample

end Run

end Abacus
