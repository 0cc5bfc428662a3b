import SqlAccess.Ddl.Clause

/-!
# Definitions as statements

Every definition is one statement: CREATE TABLE and DROP TABLE for a table, ALTER TABLE for a
column, and the statements for the three kinds of key, which differ most between the dialects.
Portable SQL cannot drop a primary key by name and cannot create a table without columns.
-/

namespace SqlAccess

namespace Table

/-- The statement of a table. -/
def toSql (d : Dialect) (t : Table) : Except Error String :=
  match t.mode with
  | .drop => .ok ("DROP TABLE IF EXISTS " ++ d.identifier t.name)
  | .create =>
    if d = .generic ∧ t.columns = [] then
      .error (.invalidCondition (.tableWithoutColumns t.name))
    else .ok
      ("CREATE TABLE IF NOT EXISTS " ++ d.identifier t.name ++ " (\n" ++
        Text.joined ",\n" ((t.clauses d).map ("    " ++ ·)) ++ "\n)" ++
        (if (t.options d).isEmpty then "" else " " ++ Text.joined " " (t.options d)))

end Table

namespace Column

/-- What MySQL takes behind the clause of a new column: its place, and the primary key. -/
def additions (d : Dialect) (c : Column) : String :=
  match d with
  | .generic => ""
  | .mysql =>
    (c.after.map fun column => " AFTER " ++ d.identifier column).getD "" ++
      (if c.primary then ", ADD PRIMARY KEY (" ++ d.identifier c.name ++ ")" else "")

/-- The statement of a column by itself. -/
def toSql (d : Dialect) (c : Column) : String :=
  "ALTER TABLE " ++ d.identifier c.table ++
    match c.mode with
    | .create => " ADD COLUMN " ++ c.clause d ++ c.additions d
    | .drop => " DROP COLUMN " ++ d.identifier c.name

end Column

namespace Key

/-- The statement of a key by itself. -/
def toSql (d : Dialect) (k : Key) : Except Error String :=
  let table := d.identifier k.table
  let name := d.identifier k.name
  let columns := " (" ++ d.identifiers k.columns ++ ")"
  match d, k.kind, k.mode with
  | _, .primary, .create => .ok ("ALTER TABLE " ++ table ++ " ADD PRIMARY KEY" ++ columns)
  | .generic, .primary, .drop => .error (.configuration (.primaryKeyNotDroppable d))
  | .mysql, .primary, .drop => .ok ("ALTER TABLE " ++ table ++ " DROP PRIMARY KEY")
  | .generic, .index, .create => .ok ("CREATE INDEX " ++ name ++ " ON " ++ table ++ columns)
  | .generic, .unique, .create => .ok ("CREATE UNIQUE INDEX " ++ name ++ " ON " ++ table ++ columns)
  | .generic, _, .drop => .ok ("DROP INDEX " ++ name)
  | .mysql, .index, .create => .ok ("ALTER TABLE " ++ table ++ " ADD INDEX " ++ name ++ columns)
  | .mysql, .unique, .create => .ok ("ALTER TABLE " ++ table ++ " ADD UNIQUE " ++ name ++ columns)
  | .mysql, _, .drop => .ok ("ALTER TABLE " ++ table ++ " DROP INDEX " ++ name)

end Key

namespace Dialect

/-- The statement that makes the database print a table's definition. -/
def showTable (d : Dialect) (table : String) : Except Error String :=
  match d with
  | .generic => .error (.configuration (.ddlNotPrintable d))
  | .mysql => .ok ("SHOW CREATE TABLE " ++ d.identifier table)

end Dialect

end SqlAccess
