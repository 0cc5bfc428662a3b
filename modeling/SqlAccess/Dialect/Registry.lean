import SqlAccess.Error
import SqlAccess.Text.Uppercase

/-!
# The registry of dialects

Which dialect a database speaks is looked up by the name of its kind, the backend, which a data
source name gives as its scheme. A `Registry` lists the known backends in ascending order, each
once; the case of ASCII letters does not matter.
-/

namespace SqlAccess

/-- The dialects of the known backends, in ascending order of the backends' names. -/
structure Registry where
  entries : List (String × Dialect) := []

namespace Registry

/-- A backend's name as the registry keeps it. -/
def fold (backend : String) : String :=
  String.ofList (Text.asciiLowercase backend.toList)

/-- The entries with the given one at its place in the order, in place of one for the same name. -/
def place (backend : String) (d : Dialect) : List (String × Dialect) → List (String × Dialect)
  | [] => [(backend, d)]
  | (name, old) :: rest =>
    if backend < name then (backend, d) :: (name, old) :: rest
    else if backend = name then (name, d) :: rest
    else (name, old) :: place backend d rest

/-- Makes the dialect that of the backend. -/
def register (r : Registry) (backend : String) (d : Dialect) : Registry :=
  ⟨place (fold backend) d r.entries⟩

/-- The registry of the dialects that this library has. -/
def builtin : Registry :=
  ((Registry.register {} "mysql" .mysql).register "mariadb" .mysql).register "generic" .generic

/-- The known backends, in ascending order. -/
def backends (r : Registry) : List String :=
  r.entries.map Prod.fst

/-- The dialect of a backend. -/
def resolve (r : Registry) (backend : String) : Except Error Dialect :=
  match r.entries.lookup (fold backend) with
  | some d => .ok d
  | none => .error (.configuration (.unknownBackend backend))

/-- The dialect of a data source name, such as `mysql://user@host/db`: that of the scheme before its
first colon. -/
def forDsn (r : Registry) (dsn : String) : Except Error Dialect :=
  match Text.splitOnce ':' dsn.toList with
  | some (scheme, _) =>
    if scheme.isEmpty then .error (.configuration (.schemeMissing dsn))
    else r.resolve (String.ofList scheme)
  | none => .error (.configuration (.schemeMissing dsn))

end Registry

end SqlAccess
