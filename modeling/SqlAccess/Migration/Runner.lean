import SqlAccess.Migration.Basic
import SqlAccess.Migration.History
import SqlAccess.Migration.Report

/-!
# Running a migration

A run takes one migration through its phases: the history is asked whether the migration is due, its
definitions are declared, they are carried out one by one, and the history is brought up to date.
The first failure ends the run, and nothing after it is sent. Reverting goes through the same phases
with the definitions in reverse order and each of them undone.

A dry run sends nothing at all: it reports the statements instead of sending them, and neither asks
nor changes the history.

What a run leaves behind is a `Run`: the session of the executor, the lines reported, and the phase
and the direction of the last run. All of it outlives a failure. The clock is not part of the model;
a `Runner` is given the text that stands for the present and the text that stands for a time taken.
-/

namespace SqlAccess

/-- Where a run is. -/
inductive Phase where
  /-- No run has begun. -/
  | idle
  /-- The history is asked. -/
  | start
  /-- The migration is set up. -/
  | setup
  /-- The change for both directions is declared. -/
  | change
  /-- There is none, and the change forwards is declared. -/
  | up
  /-- There is none, and what is to be undone is declared. -/
  | down
  /-- The definitions are carried out. -/
  | apply
  /-- The definitions are carried out, and the history is brought up to date. -/
  | finish
  deriving DecidableEq, Repr

/-- The name of a phase. -/
def Phase.name : Phase → String
  | .idle => "Idle"
  | .start => "Start"
  | .setup => "Setup"
  | .change => "Change"
  | .up => "Up"
  | .down => "Down"
  | .apply => "Apply"
  | .finish => "Finish"

/-- The direction of a run. -/
inductive RunDirection where
  | up
  | down
  deriving DecidableEq, Repr

namespace RunDirection

/-- The name of a direction. -/
def name : RunDirection → String
  | .up => "Up"
  | .down => "Down"

/-- The word for a run in that direction while it goes on. -/
def progress : RunDirection → String
  | .up => "migrating"
  | .down => "reverting"

/-- The word for a run in that direction when it is done. -/
def done : RunDirection → String
  | .up => "migrated"
  | .down => "reverted"

end RunDirection

/-- What runs leave behind. -/
structure Run (σ : Type) where
  /-- The session that statements were sent in. -/
  session : σ
  /-- The lines reported, in order. -/
  report : List String := []
  phase : Phase := .idle
  direction : RunDirection := .up

/-- How migrations are run. -/
structure Runner where
  history : History := {}
  /-- Are statements reported instead of sent? -/
  dryRun : Bool := false
  /-- The text that is stored as the present time. -/
  now : String
  /-- The text that is shown for a time taken, in seconds. -/
  elapsed : String := "0.0000"

namespace Run

variable {σ : Type}

/-- Takes a step on the session. -/
def onSession {α : Type} (step : Migrating σ α) : Migrating (Run σ) α := fun run =>
  match step run.session with
  | .ok a session => .ok a { run with session }
  | .error e session => .error e { run with session }

/-- Reports a line. -/
def tell (line : String) : Migrating (Run σ) Unit :=
  modify fun run => { run with report := run.report ++ [line] }

/-- Enters a phase. -/
def enter (phase : Phase) : Migrating (Run σ) Unit :=
  modify fun run => { run with phase }

/-- The schema after a declaration that has to succeed. -/
def declared (declaration : Declaration) (schema : Schema) : Migrating (Run σ) Schema :=
  match declaration schema with
  | .ok () schema => pure schema
  | .error e _ => throw e

end Run

namespace Migration

variable {σ : Type}

/-- The schema with all that a migration declares for a direction. Where there is no change for
both directions, what it had declared before saying so stays declared. -/
def declare (m : Migration) (direction : RunDirection) (d : Dialect) :
    Migrating (Run σ) Schema := do
  Run.enter .setup
  let schema ← Run.declared m.setup { dialect := d }
  Run.enter .change
  match m.change schema with
  | .ok () schema => return schema
  | .error .noChange schema =>
    match direction with
    | .up =>
      Run.enter .up
      Run.declared m.up schema
    | .down =>
      Run.enter .down
      Run.declared m.down schema
  | .error e _ => throw e

end Migration

/-- The definitions that a run in the given direction carries out: as they are declared forwards,
and each of them undone backwards, the last one first. -/
def RunDirection.definitions (direction : RunDirection) (declared : List Definition) :
    Except Error (List Definition) :=
  match direction with
  | .up => .ok declared
  | .down => declared.reverse.mapM Definition.reverted

namespace Runner

variable {σ : Type}

/-- Refuses a run that is not due: a version that is applied, or to be reverted one that is not. -/
def checkDue (r : Runner) (ex : Executor σ) (direction : RunDirection) (version : Int) :
    Migrating (Run σ) Unit := do
  if r.dryRun then return
  let applied ← Run.onSession (r.history.isApplied ex version)
  match direction, applied with
  | .up, true => throw (.alreadyApplied version)
  | .down, false => throw (.notApplied version)
  | _, _ => return

/-- Sends a statement, or in a dry run reports it. -/
def send (r : Runner) (ex : Executor σ) (sql : String) : Migrating (Run σ) Unit := do
  if r.dryRun then Run.tell (sql ++ ";")
  else
    let _ ← Run.onSession (Migrating.ofStatement (ex.execute sql {}))

/-- Carries out definitions in order, in the dialect of their schema, up to the first failure. -/
def carryOut (r : Runner) (ex : Executor σ) (d : Dialect) :
    List Definition → Migrating (Run σ) Unit
  | [] => pure ()
  | definition :: rest => do
    r.send ex (← Migrating.ofRendering (definition.toSql d))
    Run.tell (Report.done definition.description)
    Run.tell (Report.timing r.elapsed)
    carryOut r ex d rest

/-- Brings the history up to date, except in a dry run. -/
def record (r : Runner) (ex : Executor σ) (direction : RunDirection) (version : Int) :
    Migrating (Run σ) Unit :=
  if r.dryRun then pure ()
  else Run.onSession <| match direction with
    | .up => r.history.recordApplied ex r.now version
    | .down => r.history.recordReverted ex version

/-- Runs a migration in a direction. -/
def run (r : Runner) (ex : Executor σ) (direction : RunDirection) (m : Migration) :
    Migrating (Run σ) Unit := do
  match MigrationId.parse m.identifier with
  | .error e => throw e
  | .ok id =>
    modify fun run => { run with direction, phase := .start }
    r.checkDue ex direction id.version
    Run.tell (Report.heading (id.text ++ ": " ++ direction.progress))
    let schema ← m.declare direction ex.dialect
    let definitions ← Migrating.ofRendering (direction.definitions schema.definitions)
    Run.enter .apply
    if definitions.isEmpty then Run.tell Report.nothingToDo
    r.carryOut ex schema.dialect definitions
    Run.enter .finish
    r.record ex direction id.version
    Run.tell (Report.heading (id.text ++ ": " ++ direction.done ++ " (" ++ r.elapsed ++ " sec)"))

/-- Applies a migration. -/
def migrate (r : Runner) (ex : Executor σ) (m : Migration) : Migrating (Run σ) Unit :=
  r.run ex .up m

/-- Reverts a migration. -/
def revert (r : Runner) (ex : Executor σ) (m : Migration) : Migrating (Run σ) Unit :=
  r.run ex .down m

end Runner

end SqlAccess
