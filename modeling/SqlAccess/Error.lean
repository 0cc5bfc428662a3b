import SqlAccess.Dialect.Basic
import SqlAccess.Predicate.Operator

/-!
# Errors

What can go wrong between a description of a statement and its SQL, and the report of a statement
that the database refused. Each error names its cause; the wording of all of them is the one
function `Error.message`.
-/

namespace SqlAccess

/-- A statement that changes the rows a condition selects. -/
inductive Write where
  | update
  | delete
  deriving DecidableEq, Repr

/-- The keyword of such a statement. -/
def Write.keyword : Write → String
  | .update => "UPDATE"
  | .delete => "DELETE"

/-- Why a dialect cannot be chosen, or cannot do what is asked. -/
inductive ConfigurationFault where
  | unknownBackend (backend : String)
  | schemeMissing (dsn : String)
  | primaryKeyNotDroppable (dialect : Dialect)
  | ddlNotPrintable (dialect : Dialect)
  | ddlNotReadable (dialect : Dialect)
  /-- A fault that a caller states in its own words. -/
  | stated (message : String)
  deriving DecidableEq

/-- The wording of a configuration fault. -/
def ConfigurationFault.message : ConfigurationFault → String
  | .unknownBackend backend => "no dialect registered for backend '" ++ backend ++ "'"
  | .schemeMissing dsn => "DSN '" ++ dsn ++ "' has no backend scheme"
  | .primaryKeyNotDroppable d => "dialect '" ++ d.name ++ "' can not drop a primary key by name"
  | .ddlNotPrintable d => "dialect '" ++ d.name ++ "' can not print table DDL"
  | .ddlNotReadable d => "dialect '" ++ d.name ++ "' can not reverse-engineer table DDL"
  | .stated message => message

/-- Why a condition or a statement cannot be rendered as it is given. -/
inductive ConditionFault where
  | comparisonWithoutColumn (operator : Operator)
  | listWithoutColumn (connective : Connective)
  | listEmpty (connective : Connective) (column : String)
  | listWithGroup (connective : Connective) (column : String)
  | parameterRebound (key : String)
  | placeholderUnbound (name : String)
  | tableMissing
  | updateEmpty (table : String)
  | insertEmpty (table : String)
  | tableWithoutColumns (table : String)
  /-- A fault that a caller states in its own words. -/
  | stated (message : String)
  deriving DecidableEq

/-- The wording of a condition fault. -/
def ConditionFault.message : ConditionFault → String
  | .comparisonWithoutColumn operator => "comparison `" ++ operator.sql ++ "` has no column key"
  | .listWithoutColumn connective => connective.sql ++ " list has no column key"
  | .listEmpty connective column => "empty " ++ connective.sql ++ " list for `" ++ column ++ "`"
  | .listWithGroup connective column =>
    "nested group inside " ++ connective.sql ++ " list for `" ++ column ++ "`"
  | .parameterRebound key => "native parameter " ++ key ++ " is already bound to another value"
  | .placeholderUnbound name => "unbound placeholder " ++ name
  | .tableMissing => "condition has no source table"
  | .updateEmpty table => "UPDATE of '" ++ table ++ "' sets no column"
  | .insertEmpty table => "INSERT into '" ++ table ++ "' has no column"
  | .tableWithoutColumns table => "table '" ++ table ++ "' has no columns"
  | .stated message => message

/-- An error of rendering or executing a statement. -/
inductive Error where
  /-- A backend or dialect is missing, or cannot do what is asked. -/
  | configuration (fault : ConfigurationFault)
  /-- A write would change every row of a table. -/
  | unguardedWrite (write : Write) (table : String)
  /-- A definition that drops its object was asked to be undone. -/
  | unrevertable (description : String)
  /-- A line of a table's DDL was not understood. -/
  | unreadableLine (number : Nat) (line : String)
  /-- The database refused a statement. -/
  | database (code : Option String) (message : String) (sql : String)
  /-- A condition or a statement cannot be rendered as it is given. -/
  | invalidCondition (fault : ConditionFault)
  deriving DecidableEq

/-- The wording of an error. -/
def Error.message : Error → String
  | .configuration fault => "Configuration error: " ++ fault.message
  | .unguardedWrite write table =>
    "Refusing to " ++ write.keyword ++ " every row of '" ++ table ++ "': no WHERE clause given"
  | .unrevertable description =>
    "Can not revert '" ++ description ++ "': drop definitions are not revertible"
  | .unreadableLine number line =>
    "Failed to parse schema line " ++ toString number ++ ": " ++ line
  | .database code message sql => "Error[" ++ code.getD "-" ++ "]: " ++ message ++ " -> " ++ sql
  | .invalidCondition fault => "Invalid condition: " ++ fault.message

/-- The statement that an error belongs to, if the database was asked. -/
def Error.sql? : Error → Option String
  | .database _ _ sql => some sql
  | _ => none

end SqlAccess
