import SqlAccess.Ddl.Statement

/-!
# Definitions and schemas

A `Definition` is one change to a database: a table, a column or a key, created or dropped. A
`Schema` is a list of them in the order of declaration, to be carried out in one dialect.
-/

namespace SqlAccess

/-- One change to a database. -/
inductive Definition where
  | table (t : Table)
  | column (c : Column)
  | key (k : Key)

namespace Definition

/-- Does the definition create its object or drop it? -/
def mode : Definition → Mode
  | .table t => t.mode
  | .column c => c.mode
  | .key k => k.mode

/-- The word for the kind of object that is defined. -/
def kindWord : Definition → String
  | .table _ => "table"
  | .column _ => "column"
  | .key k => k.kind.word

/-- What the definition does, in words. -/
def description : Definition → String
  | .table t => t.description
  | .column c => c.description
  | .key k => k.description

/-- The definition that undoes this one. -/
def reverted : Definition → Except Error Definition
  | .table t => return .table (← t.reverted)
  | .column c => return .column (← c.reverted)
  | .key k => return .key (← k.reverted)

/-- The statement that carries out the definition. -/
def toSql (d : Dialect) : Definition → Except Error String
  | .table t => t.toSql d
  | .column c => .ok (c.toSql d)
  | .key k => k.toSql d

end Definition

/-- Definitions in the order of declaration, for one dialect. -/
structure Schema where
  dialect : Dialect
  definitions : List Definition := []

namespace Schema

/-- The schema with one more definition. -/
def push (s : Schema) (definition : Definition) : Schema :=
  { s with definitions := s.definitions ++ [definition] }

/-- Creates a table, which starts with its first column and gets what the edit adds. -/
def createTable (s : Schema) (name : String) (edit : Table → Table) : Schema :=
  s.push (.table (edit (Table.created s.dialect name)))

/-- Drops a table. -/
def dropTable (s : Schema) (name : String) : Schema :=
  s.push (.table (Table.dropped name))

/-- Adds a column to a table that exists. It starts as a fresh one and becomes what the edit makes
of it. -/
def addColumn (s : Schema) (table name : String) (edit : Column → Column) : Schema :=
  s.push (.column (edit (Column.fresh s.dialect table name)))

/-- Drops a column from a table. -/
def dropColumn (s : Schema) (table name : String) : Schema :=
  s.push (.column (Column.dropped s.dialect table name))

/-- Creates a key of the given kind. -/
def createKey (s : Schema) (kind : KeyKind) (table : String) (columns : List String) : Schema :=
  s.push (.key (Key.ofColumns kind table columns))

/-- Drops a key of the given kind. -/
def dropKey (s : Schema) (kind : KeyKind) (table : String) (columns : List String) : Schema :=
  s.push (.key (Key.dropped kind table columns))

/-- The statements of all definitions, in order, or the first error. -/
def toSql (s : Schema) : Except Error (List String) :=
  s.definitions.mapM (·.toSql s.dialect)

end Schema

end SqlAccess
