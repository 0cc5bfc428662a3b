import SqlAccess.Schema.Key

/-!
# Tables

A `Table` has columns, keys and options. A table that is created starts with the column `id`, an
integer that counts up by itself and is the primary key.

Columns are known by their names: declaring one again starts it over at its place and leaves all
others alone. The primary key is told in two ways, by a mark on the column for columns that are
declared and by an entry among the keys for those that are not, and `primaryKey` puts the two
together.
-/

namespace SqlAccess

/-- A table of a database. -/
structure Table where
  name : String
  columns : List Column := []
  keys : List Key := []
  engine : Option String := none
  rowFormat : Option String := none
  charset : Option String := none
  collation : Option String := none
  comment : Option String := none
  mode : Mode := .create

namespace Table

/-- The column that every created table starts with. -/
def implicitId : String := "id"

/-- The columns with the given one at the place of its namesake, or at the end. -/
def placeColumn (c : Column) : List Column → List Column
  | [] => [c]
  | old :: rest => if old.name = c.name then c :: rest else old :: placeColumn c rest

/-- Declares a column, starting over the one of the same name. -/
def putColumn (t : Table) (c : Column) : Table :=
  { t with columns := placeColumn c t.columns }

/-- The column of the given name. -/
def column? (t : Table) (name : String) : Option Column :=
  t.columns.find? (·.name == name)

/-- The column that every created table starts with: an integer that counts up, and the key. -/
def idColumn (d : Dialect) (table : String) : Column :=
  { ((Column.fresh d table implicitId).ofType d .integer).ofLength (.size 11) with
    autoIncrement := true }.asPrimary

/-- A table to be created, with its first column. -/
def created (d : Dialect) (name : String) : Table :=
  { name, columns := [idColumn d name] }

/-- A table to be dropped. -/
def dropped (name : String) : Table :=
  { name, mode := .drop }

/-- The table with one more key. -/
def addKey (t : Table) (k : Key) : Table :=
  { t with keys := t.keys ++ [k] }

/-- The columns with the first one of the given name marked as part of the primary key. -/
def markPrimary (name : String) : List Column → List Column
  | [] => []
  | c :: rest => if c.name = name then c.asPrimary :: rest else c :: markPrimary name rest

/-- The keys with a column added to the first primary key among them. -/
def extendPrimary (column : String) : List Key → List Key
  | [] => []
  | k :: rest =>
    if k.kind = .primary then k.addColumn column :: rest else k :: extendPrimary column rest

/-- Adds a column to the primary key: a declared one by its mark, any other by the primary entry
among the keys. -/
def addPrimary (t : Table) (column : String) : Table :=
  if t.columns.any (·.name == column) then
    { t with columns := markPrimary column t.columns }
  else if t.keys.any (·.kind == .primary) then
    { t with keys := extendPrimary column t.keys }
  else t.addKey (Key.ofColumns .primary t.name [column])

/-- The names with those of the second list behind them that are not there yet. -/
def withNew (names : List String) : List String → List String
  | [] => names
  | name :: rest => withNew (if name ∈ names then names else names ++ [name]) rest

/-- The columns of the primary key: the marked ones in the order of declaration, then those that
only a key names. -/
def primaryKey (t : Table) : List String :=
  withNew ((t.columns.filter (·.primary)).map (·.name))
    ((t.keys.filter (·.kind == .primary)).flatMap (·.columns))

/-- What the table, as a definition, does. -/
def description (t : Table) : String :=
  match t.mode with
  | .create => "create table: " ++ t.name
  | .drop => "drop table: " ++ t.name

/-- The definition that undoes this one. -/
def reverted (t : Table) : Except Error Table := do
  return { t with mode := ← t.mode.reverted t.description }

end Table

end SqlAccess
