import SqlAccess.Error
import SqlAccess.Schema.ColumnType

/-!
# Columns

A `Column` is a column of a table, or by itself the addition of one to a table that exists. It is
text that may not be null until something else is said. Setting the type resets the length to the
dialect's own, so a length is given after its type.

Every definition has a `Mode`: it creates its object or drops it. Undoing a definition turns the one
into the other, and a definition that drops its object cannot be undone.
-/

namespace SqlAccess

/-- Does a definition create its object or drop it? -/
inductive Mode where
  | create
  | drop
  deriving DecidableEq, Repr

/-- The mode that undoes a mode, for the object of the given description. What was dropped is not
brought back. -/
def Mode.reverted (description : String) : Mode → Except Error Mode
  | .create => .ok .drop
  | .drop => .error (.unrevertable description)

/-- The value that a column has in a row that gives none. -/
inductive DefaultValue where
  | null
  | bool (b : Bool)
  | int (n : Int)
  | float (x : Float)
  | text (s : String)
  /-- SQL that the database evaluates. -/
  | expression (sql : String)

/-- The value of a default, unless it is an expression. -/
def DefaultValue.toValue? : DefaultValue → Option Value
  | .null => some .null
  | .bool b => some (.bool b)
  | .int n => some (.int n)
  | .float x => some (.float x)
  | .text s => some (.text s)
  | .expression _ => none

/-- A column of a table. -/
structure Column where
  table : String
  name : String
  type : ColumnType
  length : Option Length
  nullable : Bool := false
  default : Option DefaultValue := none
  autoIncrement : Bool := false
  unsigned : Bool := false
  comment : Option String := none
  collation : Option String := none
  /-- The column that a new one is put behind. -/
  after : Option String := none
  /-- Does the column belong to the primary key? -/
  primary : Bool := false
  mode : Mode := .create

namespace Column

/-- A new column: text of the dialect's usual length, not null. -/
def fresh (d : Dialect) (table name : String) : Column :=
  { table, name, type := .string, length := d.defaultLength .string }

/-- A column to be dropped. -/
def dropped (d : Dialect) (table name : String) : Column :=
  { fresh d table name with mode := .drop }

/-- The column with the given type, and the length that the dialect has for it. -/
def ofType (d : Dialect) (type : ColumnType) (c : Column) : Column :=
  { c with type, length := d.defaultLength type }

/-- The column with the given length. -/
def ofLength (length : Length) (c : Column) : Column :=
  { c with length := some length }

/-- The column as a part of the primary key, which is never null. -/
def asPrimary (c : Column) : Column :=
  { c with primary := true, nullable := false }

/-- The column with the given comment. Line breaks and tabs are left out of it. -/
def commented (comment : String) (c : Column) : Column :=
  let kept := comment.toList.filter fun ch => ch != '\r' && ch != '\n' && ch != '\t'
  { c with comment := some (String.ofList kept) }

/-- What the column, as a definition by itself, does. -/
def description (c : Column) : String :=
  match c.mode with
  | .create => "add column: " ++ c.name ++ " to " ++ c.table
  | .drop => "remove column: " ++ c.name ++ " from " ++ c.table

/-- The definition that undoes this one. -/
def reverted (c : Column) : Except Error Column := do
  return { c with mode := ← c.mode.reverted c.description }

end Column

end SqlAccess
