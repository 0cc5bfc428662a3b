import SqlAccess.Text.Described
import SqlAccess.Value

/-!
# Rows

A fetched row is a list of columns with their values, in the order of the SELECT. A column is found
by its position or by its name; of two columns with one name the first is found.

A row also has a description for messages, which shows every column with the kind of its value.
-/

namespace SqlAccess

/-- Describes a value: its kind, and what it holds. -/
def Value.description : Value → String
  | .null => "Null"
  | .bool b => "Bool(" ++ (if b then "true" else "false") ++ ")"
  | .int n => "Int(" ++ toString n ++ ")"
  | .float x => "Float(" ++ Decimal.descriptive x ++ ")"
  | .text s => "Text(" ++ Text.described s ++ ")"
  | .lob bytes => "Lob([" ++ Text.joined ", " (bytes.toList.map fun byte => toString byte) ++ "])"

/-- A fetched row. -/
structure Row where
  columns : List (String × Value) := []

namespace Row

/-- The value of the first column with the given name. -/
def get? (r : Row) (name : String) : Option Value :=
  r.columns.lookup name

/-- The value at a position, counted from zero. -/
def at? (r : Row) (position : Nat) : Option Value :=
  (r.columns[position]?).map Prod.snd

/-- The number of columns. -/
def size (r : Row) : Nat :=
  r.columns.length

/-- Does the row have no column? -/
def isEmpty (r : Row) : Bool :=
  r.columns.isEmpty

/-- The description of the row. -/
def description (r : Row) : String :=
  "Row \x7b columns: [" ++
    Text.joined ", " (r.columns.map fun column =>
      "(" ++ Text.described column.1 ++ ", " ++ column.2.description ++ ")") ++ "] \x7d"

end Row

end SqlAccess
