import SqlAccess.Proofs.Migration.Kept

/-!
# Runs on record

A call on a set of migrations makes runs: one, or none, or one for each migration that is to be
applied. The session does not tell them apart, so a *journal* is kept beside it, in which every run
is put on record with its answer.

A call on the journal is the same call, with runs that are put on record in the place of runs:
`migratePending` and `revertLast` are first brought into a form that leaves open what is done for
each run. So keeping a journal changes nothing (`Call.run_journalAfterAll`), and a law about what is
on record is a law about the calls.
-/

namespace SqlAccess

variable {σ τ α : Type}

/-- A run that was made. -/
structure Attempt where
  version : Int
  direction : RunDirection
  dryRun : Bool
  answer : Except MigrationError Unit

/-- Did the run succeed, and was it no dry run? -/
def Attempt.counts (a : Attempt) : Bool :=
  !a.dryRun && a.answer.isOk

/-- A run on record, with the sessions before and after it. -/
structure Ran (σ : Type) extends Attempt where
  before : σ
  after : σ

/-- What runs leave behind, and a record of the runs. -/
structure Journal (σ : Type) where
  run : Run σ
  runs : List (Ran σ) := []

/-- Takes a step that is no run. -/
def Journal.onRun (x : Migrating (Run σ) α) : Migrating (Journal σ) α := fun j =>
  match x j.run with
  | .ok a run => .ok a { j with run }
  | .error e run => .error e { j with run }

namespace Runner

variable (r : Runner) (ex : Executor σ) (direction : RunDirection)
  (entry : MigrationId × Migration)

/-- What is put on record about a run. -/
def ran (run : Run σ) : Ran σ where
  version := entry.1.version
  direction := direction
  dryRun := r.dryRun
  answer := (r.run ex direction entry.2).answer run
  before := run.session
  after := ((r.run ex direction entry.2).leaves run).session

/-- Runs a migration, and puts the run on record. -/
def journaled : Migrating (Journal σ) Unit := fun j =>
  match r.run ex direction entry.2 j.run with
  | .ok () run => .ok () ⟨run, j.runs ++ [r.ran ex direction entry j.run]⟩
  | .error e run => .error e ⟨run, j.runs ++ [r.ran ex direction entry j.run]⟩

end Runner

/-! ## Calls -/

namespace MigrationSet

variable (s : MigrationSet)

/-- `migrateAll`, where it is open what is done to apply a migration. -/
def applyAll (act : MigrationId × Migration → Migrating τ Unit) (applied : List Int) :
    List (MigrationId × Migration) → Migrating τ (List Int)
  | [] => pure []
  | entry :: rest => do
    if applied.contains entry.1.version then applyAll act applied rest
    else
      act entry
      let versions ← applyAll act applied rest
      return entry.1.version :: versions

/-- `migratePending`, where it is open how the history is listed and a migration applied. -/
def applyPending (listing : Migrating τ (List AppliedMigration))
    (act : MigrationId × Migration → Migrating τ Unit) : Migrating τ (List Int) := do
  let applied ← listing
  applyAll act (appliedVersions applied) s.entries

/-- `revertLast`, where it is open how the history is listed and a migration reverted. -/
def revertHighest (listing : Migrating τ (List AppliedMigration))
    (act : MigrationId × Migration → Migrating τ Unit) : Migrating τ (Option Int) := do
  let applied ← listing
  match (appliedVersions applied).getLast? with
  | none => return none
  | some version =>
    match s.entries.find? (·.1.version == version) with
    | none => throw (.invalidHistory (.notRegistered version))
    | some entry =>
      act entry
      return some version

theorem migrateAll_eq (r : Runner) (ex : Executor σ) (applied : List Int)
    (entries : List (MigrationId × Migration)) :
    migrateAll r ex applied entries =
      applyAll (fun entry => r.run ex .up entry.2) applied entries := by
  induction entries with
  | nil => rfl
  | cons entry rest ih =>
    rw [migrateAll, applyAll, ih]
    rfl

theorem migratePending_eq (r : Runner) (ex : Executor σ) : s.migratePending r ex =
    s.applyPending (r.listing ex) fun entry => r.run ex .up entry.2 :=
  bind_congr fun _ => migrateAll_eq ..

theorem revertLast_eq (r : Runner) (ex : Executor σ) : s.revertLast r ex =
    s.revertHighest (r.listing ex) fun entry => r.run ex .down entry.2 := by
  unfold revertLast revertHighest
  refine bind_congr fun applied => ?_
  cases (appliedVersions applied).getLast? with
  | none => rfl
  | some version =>
    dsimp only
    unfold get?
    cases s.entries.find? (·.1.version == version) <;> rfl

end MigrationSet

namespace MigrationSet

variable (s : MigrationSet) (r : Runner) (ex : Executor σ)

/-- `migratePending`, with its runs put on record. -/
def journalPending : Migrating (Journal σ) (List Int) :=
  s.applyPending (Journal.onRun (r.listing ex)) (r.journaled ex .up)

/-- `revertLast`, with its run put on record. -/
def journalLast : Migrating (Journal σ) (Option Int) :=
  s.revertHighest (Journal.onRun (r.listing ex)) (r.journaled ex .down)

end MigrationSet

/-- A call on a set of migrations. -/
inductive Call where
  | migrate (entry : MigrationId × Migration)
  | revert (entry : MigrationId × Migration)
  | migratePending
  | revertLast

namespace Call

/-- Is the call about the migrations of the set? -/
def Concerns (s : MigrationSet) : Call → Prop
  | migrate entry => entry ∈ s.entries
  | revert entry => entry ∈ s.entries
  | migratePending => True
  | revertLast => True

/-- Makes the call. -/
def make (s : MigrationSet) (r : Runner) (ex : Executor σ) : Call → Migrating (Run σ) Unit
  | migrate entry => r.migrate ex entry.2
  | revert entry => r.revert ex entry.2
  | migratePending => do let _ ← s.migratePending r ex
  | revertLast => do let _ ← s.revertLast r ex

/-- Makes the call, and puts its runs on record. -/
def onJournal (s : MigrationSet) (r : Runner) (ex : Executor σ) : Call → Migrating (Journal σ) Unit
  | migrate entry => r.journaled ex .up entry
  | revert entry => r.journaled ex .down entry
  | migratePending => do let _ ← s.journalPending r ex
  | revertLast => do let _ ← s.journalLast r ex

/-- What calls leave behind, made one after the other by runners of their own, whatever became of
the calls before. -/
def afterAll (s : MigrationSet) (ex : Executor σ) : List (Runner × Call) → Run σ → Run σ
  | [], run => run
  | (r, call) :: rest, run => afterAll s ex rest ((call.make s r ex).leaves run)

/-- What is on record behind calls. -/
def journalAfterAll (s : MigrationSet) (ex : Executor σ) :
    List (Runner × Call) → Journal σ → Journal σ
  | [], j => j
  | (r, call) :: rest, j => journalAfterAll s ex rest ((call.onJournal s r ex).leaves j)

end Call

/-! ## Calls on the journal are calls -/

namespace Mirrors

variable {image : σ → τ}

theorem applyAll {act : MigrationId × Migration → Migrating σ Unit}
    {act' : MigrationId × Migration → Migrating τ Unit}
    (acts : ∀ entry, Mirrors image (act entry) (act' entry)) (applied : List Int)
    (entries : List (MigrationId × Migration)) :
    Mirrors image (MigrationSet.applyAll act applied entries)
      (MigrationSet.applyAll act' applied entries) := by
  induction entries with
  | nil => exact .pure []
  | cons entry rest ih =>
    rw [MigrationSet.applyAll, MigrationSet.applyAll]
    split
    · exact ih
    · exact (acts entry).bind fun _ => ih.bind fun _ => .pure _

variable {s : MigrationSet} {listing : Migrating σ (List AppliedMigration)}
  {listing' : Migrating τ (List AppliedMigration)}
  {act : MigrationId × Migration → Migrating σ Unit}
  {act' : MigrationId × Migration → Migrating τ Unit}

theorem applyPending (listed : Mirrors image listing listing')
    (acts : ∀ entry, Mirrors image (act entry) (act' entry)) :
    Mirrors image (s.applyPending listing act) (s.applyPending listing' act') :=
  listed.bind fun _ => applyAll acts _ _

theorem revertHighest (listed : Mirrors image listing listing')
    (acts : ∀ entry, Mirrors image (act entry) (act' entry)) :
    Mirrors image (s.revertHighest listing act) (s.revertHighest listing' act') := by
  refine listed.bind fun applied => ?_
  split
  · exact .pure none
  · split
    · exact .throw _
    · exact (acts _).bind fun _ => .pure _

end Mirrors

theorem Journal.mirrors_onRun (x : Migrating (Run σ) α) : Mirrors Journal.run (onRun x) x := by
  intro j
  unfold onRun
  cases x j.run <;> rfl

namespace Runner

variable (r : Runner) (ex : Executor σ) (direction : RunDirection)
  (entry : MigrationId × Migration)

theorem mirrors_journaled :
    Mirrors Journal.run (r.journaled ex direction entry) (r.run ex direction entry.2) := by
  intro j
  unfold journaled
  cases r.run ex direction entry.2 j.run <;> rfl

/-- What is on record behind a run. -/
theorem leaves_journaled (j : Journal σ) : (r.journaled ex direction entry).leaves j =
    ⟨(r.run ex direction entry.2).leaves j.run, j.runs ++ [r.ran ex direction entry j.run]⟩ := by
  unfold Migrating.leaves journaled
  cases r.run ex direction entry.2 j.run <;> rfl

end Runner

namespace MigrationSet

variable (s : MigrationSet) (r : Runner) (ex : Executor σ)

theorem mirrors_journalPending :
    Mirrors Journal.run (s.journalPending r ex) (s.migratePending r ex) := by
  rw [s.migratePending_eq]
  exact (Journal.mirrors_onRun _).applyPending (r.mirrors_journaled ex .up)

theorem mirrors_journalLast : Mirrors Journal.run (s.journalLast r ex) (s.revertLast r ex) := by
  rw [s.revertLast_eq]
  exact (Journal.mirrors_onRun _).revertHighest (r.mirrors_journaled ex .down)

end MigrationSet

namespace Call

variable (s : MigrationSet) (ex : Executor σ)

theorem mirrors_onJournal (r : Runner) (call : Call) :
    Mirrors Journal.run (call.onJournal s r ex) (call.make s r ex) := by
  cases call with
  | migrate entry => exact r.mirrors_journaled ex .up entry
  | revert entry => exact r.mirrors_journaled ex .down entry
  | migratePending => exact (s.mirrors_journalPending r ex).bind fun _ => .pure ()
  | revertLast => exact (s.mirrors_journalLast r ex).bind fun _ => .pure ()

/-- **Keeping a journal changes nothing.** -/
theorem run_journalAfterAll (calls : List (Runner × Call)) (j : Journal σ) :
    (journalAfterAll s ex calls j).run = afterAll s ex calls j.run := by
  induction calls generalizing j with
  | nil => rfl
  | cons call rest ih =>
    rw [journalAfterAll, afterAll, (mirrors_onJournal s ex call.1 call.2).leaves_eq]
    exact ih _

end Call

end SqlAccess
