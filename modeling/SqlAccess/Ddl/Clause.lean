import SqlAccess.Schema.Table

/-!
# Clauses of a table definition

The parts that a table definition is put together from: the clause of a column, the clause of a key,
and the options behind the closing parenthesis. Where the dialects differ the difference is one word
list or another, so that the order of the words is the same for both.
-/

namespace SqlAccess

namespace Dialect

/-- A default. MySQL quotes every constant, as a server does when it prints a table. -/
def defaultSql (d : Dialect) (default : DefaultValue) : String :=
  match default, d with
  | .expression sql, _ => sql
  | .null, _ => "NULL"
  | .bool b, .mysql => Literal.escaped (if b then "1" else "0")
  | .int n, .mysql => Literal.escaped (toString n)
  | .float x, .mysql => Literal.escaped (Decimal.plain x)
  | .text s, .mysql => Literal.escaped s
  | .bool b, .generic => d.literal (.bool b)
  | .int n, .generic => d.literal (.int n)
  | .float x, .generic => d.literal (.float x)
  | .text s, .generic => d.literal (.text s)

end Dialect

namespace Column

/-- The words for the sign of the column's numbers. -/
def signWords (d : Dialect) (c : Column) : List String :=
  match d with
  | .generic => []
  | .mysql => if c.unsigned then ["UNSIGNED"] else []

/-- The words for the null value. -/
def nullWords (c : Column) : List String :=
  if c.nullable then [] else ["NOT NULL"]

/-- The words for the default. A column that may be null and has no default has null. -/
def defaultWords (d : Dialect) (c : Column) : List String :=
  match c.default with
  | some default => ["DEFAULT " ++ d.defaultSql default]
  | none => if c.nullable then ["DEFAULT NULL"] else []

/-- The words for a column that counts up by itself. -/
def countingWords (d : Dialect) (c : Column) : List String :=
  if c.autoIncrement then
    match d with
    | .generic => ["GENERATED BY DEFAULT AS IDENTITY"]
    | .mysql => ["AUTO_INCREMENT"]
  else []

/-- The words for the collation and the comment. -/
def remarkWords (d : Dialect) (c : Column) : List String :=
  match d with
  | .generic => []
  | .mysql =>
    (c.collation.map ("COLLATE " ++ ·)).toList ++
      (c.comment.map fun comment => "COMMENT " ++ Literal.escaped comment).toList

/-- The clause of a column. -/
def clause (d : Dialect) (c : Column) : String :=
  Text.joined " "
    ([d.identifier c.name, d.typeSql c.type c.length] ++ c.signWords d ++ c.nullWords ++
      c.defaultWords d ++ c.countingWords d ++ c.remarkWords d)

end Column

namespace Key

/-- The clause of a key inside a table definition. -/
def clause (d : Dialect) (k : Key) : String :=
  let columns := " (" ++ d.identifiers k.columns ++ ")"
  match k.kind, d with
  | .primary, _ => "PRIMARY KEY" ++ columns
  | .unique, .generic => "CONSTRAINT " ++ d.identifier k.name ++ " UNIQUE" ++ columns
  | .index, .generic => "INDEX " ++ d.identifier k.name ++ columns
  | .unique, .mysql => "UNIQUE KEY " ++ d.identifier k.name ++ columns
  | .index, .mysql => "KEY " ++ d.identifier k.name ++ columns

end Key

namespace Table

/-- The clause of the primary key, if the table has one. -/
def primaryClause (d : Dialect) (t : Table) : List String :=
  if t.primaryKey.isEmpty then [] else ["PRIMARY KEY (" ++ d.identifiers t.primaryKey ++ ")"]

/-- The clauses between the parentheses: the columns, the primary key, and the other keys. -/
def clauses (d : Dialect) (t : Table) : List String :=
  t.columns.map (·.clause d) ++ t.primaryClause d ++
    (t.keys.filter (·.kind != .primary)).map (·.clause d)

/-- The options behind the closing parenthesis, which only MySQL has. -/
def options (d : Dialect) (t : Table) : List String :=
  match d with
  | .generic => []
  | .mysql =>
    (t.engine.map ("ENGINE=" ++ ·)).toList ++ (t.rowFormat.map ("ROW_FORMAT=" ++ ·)).toList ++
      (t.charset.map ("DEFAULT CHARSET=" ++ ·)).toList ++
      (t.collation.map ("COLLATE=" ++ ·)).toList ++
      (t.comment.map fun comment => "COMMENT=" ++ Literal.escaped comment).toList

end Table

end SqlAccess
