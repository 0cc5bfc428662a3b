import SqlAccess.Migration.Runner

/-!
# Sets of migrations

The migrations of an application, in ascending order of their versions, each version once. From the
set and the history follow the migrations that are still to be applied, and which one is to be
reverted first.
-/

namespace SqlAccess

/-- Migrations in ascending order of their versions. -/
structure MigrationSet where
  entries : List (MigrationId × Migration) := []

namespace MigrationSet

/-- The number of migrations. -/
def size (s : MigrationSet) : Nat :=
  s.entries.length

/-- Is there no migration? -/
def isEmpty (s : MigrationSet) : Bool :=
  s.entries.isEmpty

/-- The identifiers, in ascending order of the versions. -/
def ids (s : MigrationSet) : List MigrationId :=
  s.entries.map Prod.fst

/-- The migration of a version. -/
def get? (s : MigrationSet) (version : Int) : Option Migration :=
  (s.entries.find? (·.1.version == version)).map Prod.snd

/-- The entries with one more, in front of the first that has a greater version. -/
def place (entry : MigrationId × Migration) :
    List (MigrationId × Migration) → List (MigrationId × Migration)
  | [] => [entry]
  | other :: rest =>
    if entry.1.version < other.1.version then entry :: other :: rest
    else other :: place entry rest

/-- The set with one more migration, whose version must be a new one. -/
def register (s : MigrationSet) (m : Migration) : Except MigrationError MigrationSet := do
  let id ← MigrationId.parse m.identifier
  if s.ids.any (·.version == id.version) then throw (.duplicateVersion id.version)
  else return ⟨place (id, m) s.entries⟩

/-- The migrations whose versions are not applied, in ascending order. -/
def pending (s : MigrationSet) (applied : List Int) : List MigrationId :=
  s.ids.filter fun id => !applied.contains id.version

/-- The migrations from one version to another, both included, in the direction of travel. -/
def between (s : MigrationSet) (first last : Int) : List MigrationId :=
  if first ≤ last then s.ids.filter fun id => first ≤ id.version && id.version ≤ last
  else (s.ids.filter fun id => last ≤ id.version && id.version ≤ first).reverse

variable {σ : Type}

/-- Applies those of the given migrations whose versions are not applied, in order, up to the first
failure, and answers their versions. -/
def migrateAll (r : Runner) (ex : Executor σ) (applied : List Int) :
    List (MigrationId × Migration) → Migrating (Run σ) (List Int)
  | [] => pure []
  | (id, m) :: rest => do
    if applied.contains id.version then migrateAll r ex applied rest
    else
      r.migrate ex m
      let versions ← migrateAll r ex applied rest
      return id.version :: versions

/-- Applies every migration that is not applied, in ascending order, up to the first failure, and
answers their versions. -/
def migratePending (s : MigrationSet) (r : Runner) (ex : Executor σ) :
    Migrating (Run σ) (List Int) := do
  let applied ← Run.onSession (r.history.applied ex)
  migrateAll r ex (appliedVersions applied) s.entries

/-- Reverts the migration of the highest applied version, if any is applied, and answers that
version. -/
def revertLast (s : MigrationSet) (r : Runner) (ex : Executor σ) :
    Migrating (Run σ) (Option Int) := do
  let applied ← Run.onSession (r.history.applied ex)
  match (appliedVersions applied).getLast? with
  | none => return none
  | some version =>
    match s.get? version with
    | none => throw (.invalidHistory (.notRegistered version))
    | some m =>
      r.revert ex m
      return some version

end MigrationSet

end SqlAccess
