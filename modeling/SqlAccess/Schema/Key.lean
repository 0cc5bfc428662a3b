import SqlAccess.Schema.Column

/-!
# Keys

A `Key` is a primary key, a unique key or a plain index over some columns of a table. Its columns
are in order and without repetition: naming a column again changes nothing. A key without a name of
its own is named after its kind, its table and its columns.
-/

namespace SqlAccess

/-- What a key is for. -/
inductive KeyKind where
  | index
  | unique
  | primary
  deriving DecidableEq, Repr

/-- The word for a kind of key. -/
def KeyKind.word : KeyKind → String
  | .index => "index"
  | .unique => "unique"
  | .primary => "primary"

/-- A key over columns of a table. -/
structure Key where
  table : String
  kind : KeyKind
  columns : List String := []
  mode : Mode := .create
  /-- The name, if the key was given one. -/
  explicitName : Option String := none
  deriving DecidableEq

namespace Key

/-- The key with one more column, unless it has the column already. -/
def addColumn (k : Key) (column : String) : Key :=
  if column ∈ k.columns then k else { k with columns := k.columns ++ [column] }

/-- A key over the given columns. -/
def ofColumns (kind : KeyKind) (table : String) (columns : List String) : Key :=
  columns.foldl addColumn { table, kind }

/-- A key to be dropped, with the columns that it is named after. -/
def dropped (kind : KeyKind) (table : String) (columns : List String) : Key :=
  { ofColumns kind table columns with mode := .drop }

/-- The name of the key. -/
def name (k : Key) : String :=
  match k.explicitName, k.kind with
  | some name, _ => name
  | none, .primary => "PRIMARY"
  | none, kind => kind.word ++ "_" ++ k.table ++ "_on_" ++ Text.joined "_and_" k.columns

/-- What the key, as a definition by itself, does. -/
def description (k : Key) : String :=
  match k.kind, k.mode with
  | .primary, .create =>
    "create primary key: (" ++ Text.joined ", " k.columns ++ ") to " ++ k.table
  | .primary, .drop => "remove primary key from " ++ k.table
  | kind, .create => "create " ++ kind.word ++ ": " ++ k.name ++ " to " ++ k.table
  | kind, .drop => "remove " ++ kind.word ++ ": " ++ k.name ++ " from " ++ k.table

/-- The definition that undoes this one. -/
def reverted (k : Key) : Except Error Key := do
  return { k with mode := ← k.mode.reverted k.description }

end Key

end SqlAccess
