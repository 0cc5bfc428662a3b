import SqlAccess.Execution.Executor
import SqlAccess.Migration.Error
import SqlAccess.Query.Statement
import SqlAccess.Schema.Definition
import SqlAccess.Timestamp.Reader

/-!
# The history of migrations

Which migrations are applied is kept in a table of the database itself, one row for each applied
version. A `History` knows the name of that table, and reads and writes it with the same queries and
definitions as anything else.

A stored time that cannot be read does no harm: it counts as the present, and `appliedAt` is empty.
-/

namespace SqlAccess

/-- A step on the session of an executor, as a part of migrating. -/
abbrev Migrating (σ : Type) := EStateM MigrationError σ

/-- A step that may fail for the reasons that statements have. -/
def Migrating.ofStatement {σ α : Type} (step : EStateM Error σ α) : Migrating σ α :=
  EStateM.adaptExcept .statement step

/-- The answer of a rendering. -/
def Migrating.ofRendering {σ α : Type} (rendered : Except Error α) : Migrating σ α :=
  match rendered with
  | .ok a => pure a
  | .error e => throw (.statement e)

/-- The table of applied migrations. -/
structure History where
  table : String := "schema_migrations"

/-- A migration that is applied. -/
structure AppliedMigration where
  version : Int
  /-- When it was applied, or nothing where that is not known and counts as the present. -/
  appliedAt : Option Timestamp

/-- The versions with one more, in ascending order and each once. -/
def withVersion (version : Int) : List Int → List Int
  | [] => [version]
  | v :: rest =>
    if version < v then version :: v :: rest
    else if version = v then v :: rest
    else v :: withVersion version rest

/-- The versions of applied migrations, in ascending order and each once. -/
def appliedVersions (applied : List AppliedMigration) : List Int :=
  applied.foldr (fun m versions => withVersion m.version versions) []

/-- The applied migration that a row of the table tells. -/
def AppliedMigration.ofRow (row : Row) : Except MigrationError AppliedMigration :=
  match (row.get? "version").bind Value.toInteger? with
  | none => .error (.invalidHistory (.versionMissing row))
  | some version => .ok
    { version
      appliedAt := ((row.get? "applied_at").bind Value.toText?).bind Timestamp.read? }

namespace History

variable {σ : Type}

/-- The definition of the table. -/
def definition (h : History) (d : Dialect) : Table :=
  (((Table.created d h.table).putColumn
      ((Column.fresh d h.table "version").ofType d .bigInteger)).putColumn
      ((Column.fresh d h.table "applied_at").ofType d .dateTime)).addKey
    (Key.ofColumns .unique h.table ["version"])

/-- Creates the table, unless it is there. -/
def ensureTable (h : History) (ex : Executor σ) : Migrating σ Unit := do
  let sql ← Migrating.ofRendering ((h.definition ex.dialect).toSql ex.dialect)
  let _ ← Migrating.ofStatement (ex.execute sql {})

/-- The row of a version that is applied at the given time. -/
def appliedRow (version : Int) (now : String) : List (String × Value) :=
  [("version", .int version), ("applied_at", .ofText now)]

/-- Writes down that a version is applied. -/
def recordApplied (h : History) (ex : Executor σ) (now : String) (version : Int) :
    Migrating σ Unit := do
  let (sql, params) ←
    Migrating.ofRendering (Query.insert ex.dialect h.table (appliedRow version now))
  let _ ← Migrating.ofStatement (ex.execute sql params)

/-- The query for the row of a version. -/
def versionQuery (h : History) (version : Int) : Query :=
  (Query.ofTable h.table).setField "version" (Comparison.equal (.int version))

/-- Takes back that a version is applied. It has to have been. -/
def recordReverted (h : History) (ex : Executor σ) (version : Int) : Migrating σ Unit := do
  let (sql, query) := (h.versionQuery version).build (·.delete ex.dialect)
  let changed ← Migrating.ofStatement (ex.execute (← Migrating.ofRendering sql) query.params)
  if changed = 0 then throw (.notApplied version)

/-- Is a version applied? -/
def isApplied (h : History) (ex : Executor σ) (version : Int) : Migrating σ Bool := do
  let query := { h.versionQuery version with columns := ["version"], limit := some 1 }
  let (sql, query) := query.build (·.select ex.dialect)
  let rows ← Migrating.ofStatement (ex.fetch (← Migrating.ofRendering sql) query.params)
  return !rows.isEmpty

/-- The applied migrations, as the database orders them. -/
def applied (h : History) (ex : Executor σ) : Migrating σ (List AppliedMigration) := do
  let query :=
    { (Query.ofTable h.table).orderBy "version" (some .ascending) with
      columns := ["version", "applied_at"] }
  let (sql, query) := query.build (·.select ex.dialect)
  let rows ← Migrating.ofStatement (ex.fetch (← Migrating.ofRendering sql) query.params)
  match rows.mapM AppliedMigration.ofRow with
  | .ok applied => return applied
  | .error e => throw e

end History

end SqlAccess
