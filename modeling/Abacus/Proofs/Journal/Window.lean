import Abacus.Proofs.Journal.Store

/-!
# The window of a journal

A journal shows the newest entries of a log that forgets nothing by itself. Opening a journal begins
its log with what the last save left in the file, recording adds to the log, clearing begins it
anew, and all that the limit does is to set how much of the log is shown.
-/

namespace Abacus.Journal

open OnDisk

/-- What can be asked of a journal, one thing after the other. -/
inductive Step where
  | success (time : Instant) (line : String) (result : Value)
  | failure (time : Instant) (line : String) (error : String)
  | clear
  | save
  | reopen (limit : Nat)

/-- What a step enters into the journal. -/
def Step.entry? : Step → Option Entry
  | .success time line v => some (.success time line v)
  | .failure time line error => some (.failure time line error)
  | _ => none

section Runs

variable {m : Type → Type} [Monad m] [FileStore m]

/-- The journal after a step. A journal without a file has nothing to be opened again from. -/
def step (j : Journal) : Step → m (Except JournalError Journal)
  | .success time line v => return .ok (j.record (.success time line v))
  | .failure time line error => return .ok (j.record (.failure time line error))
  | .clear => return .ok j.clear
  | .save => do
    match ← j.save with
    | .error e => return .error e
    | .ok () => return .ok j
  | .reopen limit =>
    match j.file with
    | none => return .ok (inMemory limit)
    | some file => load file limit

/-- The journal after a run, which ends where a step fails. -/
def run (j : Journal) : List Step → m (Except JournalError Journal)
  | [] => return .ok j
  | next :: rest => do
    match ← j.step next with
    | .error e => return .error e
    | .ok after => after.run rest

end Runs

/-- All that a journal was given since it was opened or cleared, what the last save left in its
file, and how much of the log it shows. -/
structure Log where
  stored : List Entry
  entries : List Entry
  limit : Nat

namespace Log

/-- The log of a journal that is opened where its file holds some entries. -/
def opened (stored : List Entry) (limit : Nat) : Log := ⟨stored, stored, limit⟩

def shown (l : Log) : List Entry := newest l.limit l.entries

def record (l : Log) (e : Entry) : Log := { l with entries := l.entries ++ [e] }

def step (l : Log) : Step → Log
  | .success time line v => l.record (.success time line v)
  | .failure time line error => l.record (.failure time line error)
  | .clear => { l with entries := [] }
  | .save => { l with stored := l.shown }
  | .reopen limit => opened l.stored limit

def run (l : Log) (steps : List Step) : Log := steps.foldl step l

/-- Whatever is saved in a run is read back as what it is. -/
def ReadBack (l : Log) (steps : List Step) : Prop :=
  ∀ front rest, steps = front ++ .save :: rest →
    parse? (render (l.run front).shown) = some (l.run front).shown

theorem ReadBack.tail {l : Log} {next : Step} {rest : List Step}
    (h : l.ReadBack (next :: rest)) : (l.step next).ReadBack rest := by
  intro front behind hrest
  exact h (next :: front) behind (by rw [hrest, List.cons_append])

end Log

/-- A journal shows the newest entries of its log: no more than its limit, and those at the end of
the log in their order. -/
structure IsWindow (j : Journal) (l : Log) : Prop where
  limit : j.limit = l.limit
  shown : j.entries = l.shown
  bounded : j.entries.length ≤ j.limit
  suffix : j.entries <:+ l.entries

variable {j : Journal} {l : Log} {d : Disk} {file : Path}

theorem isWindow_of_eq (hlimit : j.limit = l.limit) (hshown : j.entries = l.shown) :
    j.IsWindow l := by
  refine ⟨hlimit, hshown, j.fits, ?_⟩
  rw [hshown]
  exact List.drop_suffix _ _

theorem isWindow_ofEntries (file : Option Path) (stored : List Entry) (limit : Nat) :
    (ofEntries file limit stored).IsWindow (.opened stored limit) :=
  isWindow_of_eq rfl rfl

theorem IsWindow.record (h : j.IsWindow l) (e : Entry) : (j.record e).IsWindow (l.record e) := by
  apply isWindow_of_eq
  · exact h.limit
  · rw [entries_record, h.limit, h.shown]
    exact newest_append_newest _ _ _

theorem IsWindow.clear (h : j.IsWindow l) : j.clear.IsWindow (l.step .clear) := by
  apply isWindow_of_eq
  · exact h.limit
  · simp [Log.step, Log.shown, newest]

/-- What is entered into a log that holds only entries with a property has that property. -/
theorem Log.forall_mem_run {p : Entry → Prop} {steps : List Step}
    (hentries : ∀ e ∈ l.entries, p e) (hstored : ∀ e ∈ l.stored, p e)
    (hsteps : ∀ next ∈ steps, ∀ e ∈ next.entry?, p e) : ∀ e ∈ (l.run steps).entries, p e := by
  induction steps generalizing l with
  | nil => exact hentries
  | cons next rest ih =>
      obtain ⟨hnext, hrest⟩ := List.forall_mem_cons.1 hsteps
      have hrecord : ∀ e, next.entry? = some e → ∀ f ∈ l.entries ++ [e], p f := by
        intro e he f hf
        rcases List.mem_append.1 hf with hf | hf
        · exact hentries f hf
        · rw [List.mem_singleton.1 hf]
          exact hnext e he
      cases next with
      | success time line v => exact ih (hrecord _ rfl) hstored hrest
      | failure time line error => exact ih (hrecord _ rfl) hstored hrest
      | clear => exact ih (fun _ he => absurd he List.not_mem_nil) hstored hrest
      | save => exact ih hentries (fun e he => hentries e (mem_of_mem_newest he)) hrest
      | reopen limit => exact ih hstored hstored hrest

/-- Entries that have a text in JSON are read back, whichever of them are saved. -/
theorem Log.readBack_of_wellFormed {stored : List Entry} {limit : Nat} {steps : List Step}
    (hstored : ∀ e ∈ stored, e.WellFormed ∧ e.ReadsBack)
    (hsteps : ∀ next ∈ steps, ∀ e ∈ next.entry?, e.WellFormed ∧ e.ReadsBack) :
    (Log.opened stored limit).ReadBack steps := by
  rintro front rest rfl
  have hlog := Log.forall_mem_run (l := .opened stored limit) hstored hstored
    fun next hnext => hsteps next (List.mem_append_left _ hnext)
  apply parse?_render
  · exact fun e he => (hlog e (mem_of_mem_newest he)).1
  · exact fun e he => (hlog e (mem_of_mem_newest he)).2

/-- The journal of a file and its log, as long as the file can be replaced. -/
structure Tracks (d : Disk) (file : Path) (j : Journal) (l : Log) : Prop where
  window : j.IsWindow l
  backed : j.file = some file
  stored : entriesOn? d file = some l.stored
  savable : ∀ limit, Savable d file limit

theorem entriesOn?_save {d' : Disk} (hfile : j.file = some file)
    (hback : parse? (render j.entries) = some j.entries) (h : exec j.save d = (.ok (), d')) :
    entriesOn? d' file = some j.entries := by
  obtain ⟨made, -, hreplace⟩ := (exec_save_eq_ok hfile).1 h
  rw [entriesOn?_of_replaceContent hreplace, hback]

/-- What a step keeps. -/
theorem Tracks.step (h : Tracks d file j l) (next : Step)
    (hback : next = .save → parse? (render l.shown) = some l.shown) :
    ∃ after d', exec (j.step next) d = (.ok after, d') ∧ Tracks d' file after (l.step next) := by
  cases next with
  | success time line v =>
      exact ⟨_, d, rfl, h.window.record _, h.backed, h.stored, h.savable⟩
  | failure time line error =>
      exact ⟨_, d, rfl, h.window.record _, h.backed, h.stored, h.savable⟩
  | clear =>
      exact ⟨_, d, rfl, h.window.clear, h.backed, h.stored, h.savable⟩
  | save =>
      obtain ⟨d', hsave⟩ := (h.savable j.limit).exists_save h.backed rfl
      have hstored : entriesOn? d' file = some l.shown := by
        rw [← h.window.shown] at hback ⊢
        exact entriesOn?_save h.backed (hback rfl) hsave
      have hsavable : ∀ limit, Savable d' file limit :=
        fun limit => (h.savable limit).of_save h.backed hsave
      refine ⟨j, d', ?_, ?_, h.backed, hstored, hsavable⟩
      · rw [Journal.step, exec_bind, hsave]
        rfl
      · exact isWindow_of_eq h.window.limit h.window.shown
  | reopen limit =>
      refine ⟨ofEntries (some file) limit l.stored, d, ?_, ?_, rfl, h.stored, h.savable⟩
      · rw [Journal.step, h.backed]
        exact exec_load_eq_ok.2 ⟨l.stored, h.stored, rfl, rfl⟩
      · exact isWindow_ofEntries _ _ _

theorem Tracks.run {steps : List Step} (h : Tracks d file j l) (hback : l.ReadBack steps) :
    ∃ last d', exec (j.run steps) d = (.ok last, d') ∧ Tracks d' file last (l.run steps) := by
  induction steps generalizing d j l with
  | nil => exact ⟨j, d, rfl, h⟩
  | cons next rest ih =>
      obtain ⟨after, made, hstep, hmade⟩ := h.step next fun hsave =>
        hback [] rest (by rw [hsave, List.nil_append])
      obtain ⟨last, d', hrest, hlast⟩ := ih hmade hback.tail
      refine ⟨last, d', ?_, hlast⟩
      rw [Journal.run, exec_bind, hstep]
      exact hrest

/-- What a step keeps in memory, where nothing is saved. -/
theorem IsWindow.step_inMemory (h : j.IsWindow l) (hfile : j.file = none) {next : Step}
    (hopen : ∀ limit, next ≠ .reopen limit) :
    ∃ after, exec (j.step next) d = (.ok after, d) ∧ after.file = none ∧
      after.IsWindow (l.step next) := by
  cases next with
  | success time line v => exact ⟨_, rfl, hfile, h.record _⟩
  | failure time line error => exact ⟨_, rfl, hfile, h.record _⟩
  | clear => exact ⟨_, rfl, hfile, h.clear⟩
  | save =>
      refine ⟨j, ?_, hfile, isWindow_of_eq h.limit h.shown⟩
      rw [Journal.step, exec_bind, save, hfile]
      rfl
  | reopen limit => exact absurd rfl (hopen limit)

theorem IsWindow.run_inMemory {steps : List Step} (h : j.IsWindow l) (hfile : j.file = none)
    (hopen : ∀ limit, .reopen limit ∉ steps) :
    ∃ last, exec (j.run steps) d = (.ok last, d) ∧ last.IsWindow (l.run steps) := by
  induction steps generalizing j l with
  | nil => exact ⟨j, rfl, h⟩
  | cons next rest ih =>
      simp only [List.mem_cons, not_or] at hopen
      obtain ⟨after, hstep, hafter, hwindow⟩ :=
        h.step_inMemory (d := d) hfile fun limit => Ne.symm (hopen limit).1
      obtain ⟨last, hrest, hlast⟩ := ih hwindow hafter fun limit => (hopen limit).2
      refine ⟨last, ?_, hlast⟩
      rw [Journal.run, exec_bind, hstep]
      exact hrest

/-- After every run, and so at every moment of one, a journal shows the newest entries of its log.
A journal of a file begins with the entries that the file holds, which are none if there is no such
file yet; a journal in memory begins with none. Neither run fails. -/
theorem entries_newest :
    (∀ (d : Disk) (file : Path) (limit : Nat) (stored : List Entry) (steps : List Step),
      entriesOn? d file = some stored → (∀ n, Savable d file n) →
      (Log.opened stored limit).ReadBack steps →
      ∃ first last d', exec (load file limit) d = (.ok first, d) ∧
        exec (first.run steps) d = (.ok last, d') ∧
        last.IsWindow ((Log.opened stored limit).run steps)) ∧
    ∀ (d : Disk) (limit : Nat) (steps : List Step), (∀ n, .reopen n ∉ steps) →
      ∃ last, exec ((inMemory limit).run steps) d = (.ok last, d) ∧
        last.IsWindow ((Log.opened [] limit).run steps) := by
  constructor
  · intro d file limit stored steps hstored hsavable hback
    have htracks : Tracks d file (ofEntries (some file) limit stored) (.opened stored limit) :=
      ⟨isWindow_ofEntries _ _ _, rfl, hstored, hsavable⟩
    obtain ⟨last, d', hrun, hlast⟩ := htracks.run hback
    exact ⟨_, last, d', exec_load_eq_ok.2 ⟨stored, hstored, rfl, rfl⟩, hrun, hlast.window⟩
  · intro d limit steps hopen
    exact (isWindow_ofEntries none [] limit).run_inMemory rfl hopen

section Sample

def sampleTime : Instant := ⟨0, 59, 5⟩

def sampleSteps : List Step :=
  [.success sampleTime " 2 " (.integer Word.one), .failure sampleTime "2 /" "unexpected end",
    .success sampleTime "ans" (.integer Word.one), .save,
    .success sampleTime "3" (.integer Word.zero), .reopen 1, .reopen 5,
    .failure sampleTime "$" "unexpected character"]

theorem wellFormed_sampleSteps :
    ∀ next ∈ sampleSteps, ∀ e ∈ next.entry?, e.WellFormed ∧ e.ReadsBack := by
  have htime : sampleTime.IsValid := ⟨by decide, by decide, by decide⟩
  have hsuccess : ∀ line n, (Entry.success sampleTime line (.integer n)).WellFormed ∧
      (Entry.success sampleTime line (.integer n)).ReadsBack := by
    intro line n
    refine ⟨⟨?_, htime⟩, ?_⟩
    · rintro v ⟨⟩
      trivial
    · rintro x ⟨⟩
  have hfailure : ∀ line error, (Entry.failure sampleTime line error).WellFormed ∧
      (Entry.failure sampleTime line error).ReadsBack := by
    intro line error
    refine ⟨⟨?_, htime⟩, ?_⟩
    · rintro v ⟨⟩
    · rintro x ⟨⟩
  simp [sampleSteps, Step.entry?, hsuccess, hfailure]

/-- More is shown again once the limit is raised, and what was not saved is gone. -/
theorem entries_newest_sample :
    ∃ first last d', exec (load sampleFile 2) Disk.empty = (.ok first, Disk.empty) ∧
      exec (first.run sampleSteps) Disk.empty = (.ok last, d') ∧
      last.entries.map Entry.expression = ["2 /", "ans", "$"] := by
  have habsent : Disk.empty.present sampleFile = false := by
    decide +kernel
  have hstored : entriesOn? Disk.empty sampleFile = some [] := by
    simp [entriesOn?, habsent]
  have hback : (Log.opened [] 2).ReadBack sampleSteps :=
    Log.readBack_of_wellFormed (by simp) wellFormed_sampleSteps
  obtain ⟨first, last, d', hload, hrun, hwindow⟩ :=
    entries_newest.1 Disk.empty sampleFile 2 [] sampleSteps hstored savable_empty hback
  refine ⟨first, last, d', hload, hrun, ?_⟩
  rw [hwindow.shown]
  decide +kernel

end Sample

end Abacus.Journal
