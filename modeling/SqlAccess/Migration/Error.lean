import SqlAccess.Error
import SqlAccess.Execution.Dsn
import SqlAccess.Row

/-!
# Errors of migrations

What can go wrong while migrations are registered, applied and reverted. An error of a statement is
carried as it is, and keeps its wording.
-/

namespace SqlAccess

/-- Why the history of migrations makes no sense. -/
inductive HistoryFault where
  /-- A row of the history table has no version. -/
  | versionMissing (row : Row)
  /-- The highest applied version belongs to no registered migration. -/
  | notRegistered (version : Int)
  /-- A fault that a migration states in its own words. -/
  | stated (message : String)

/-- The wording of a history fault. -/
def HistoryFault.message : HistoryFault → String
  | .versionMissing row => "missing version in " ++ row.description
  | .notRegistered version =>
    "version " ++ toString version ++ " is applied but no migration is registered for it"
  | .stated message => message

/-- An error of registering, applying or reverting migrations. -/
inductive MigrationError where
  /-- A statement could not be rendered or was refused. -/
  | statement (e : Error)
  /-- There is no connection to be had. -/
  | connection (fault : DsnFault)
  /-- Reading or writing outside the database failed. -/
  | io (message : String)
  /-- The migration declares no change that works in both directions. -/
  | noChange
  | alreadyApplied (version : Int)
  | notApplied (version : Int)
  | duplicateVersion (version : Int)
  | invalidIdentifier (identifier : String)
  | invalidHistory (fault : HistoryFault)

/-- The wording of an error. -/
def MigrationError.message : MigrationError → String
  | .statement e => e.message
  | .connection fault => "Connection error: " ++ fault.message
  | .io message => "IO error: " ++ message
  | .noChange => "Migration does not implement change()"
  | .alreadyApplied version => "Migration " ++ toString version ++ " is already applied"
  | .notApplied version => "Migration " ++ toString version ++ " is not applied"
  | .duplicateVersion version =>
    "Migration version " ++ toString version ++ " is registered twice"
  | .invalidIdentifier identifier =>
    "Invalid migration identifier '" ++ identifier ++ "': expected `<version>_<name>`"
  | .invalidHistory fault => "Invalid history row: " ++ fault.message

end SqlAccess
