import SqlAccess.Predicate.Build
import SqlAccess.Predicate.Render

/-!
# Queries

A `Query` describes one statement over one table: which rows (a condition, an order and a window),
which columns, and the parameters bound so far. The same description serves a SELECT, an UPDATE and
a DELETE. It is plain data; what is rendered from it changes only its parameter table.

Counts of rows are words of 64 bits. The one operation on them, the product of a page size and a
number of pages, is checked: where a word does not hold it, the call for the page fails.
-/

namespace SqlAccess

/-- The direction of an ordering. -/
inductive SortDirection where
  | ascending
  | descending
  deriving DecidableEq, Repr

/-- The SQL keyword of a direction. -/
def SortDirection.sql : SortDirection → String
  | .ascending => "ASC"
  | .descending => "DESC"

/-- One entry of an ordering: a column or a function call, with a direction if one was given. -/
structure OrderEntry where
  expression : String
  direction : Option SortDirection
  deriving DecidableEq, Repr

/-- The description of a statement over one table. -/
structure Query where
  /-- The selected columns, as they are written; none stands for all. -/
  columns : List String := []
  table : Option String := none
  /-- The condition on the rows. -/
  filter : Group := {}
  order : List OrderEntry := []
  grouping : List String := []
  limit : Option UInt64 := none
  offset : Option UInt64 := none
  /-- Are disabled rows to be left out where a table marks them? -/
  regardsActive : Bool := true
  /-- Are the selected rows to be locked? -/
  locking : Bool := false
  /-- A condition given as text, beside the tree. -/
  extraFilter : Option String := none
  /-- May a write change every row? -/
  unconditional : Bool := false
  params : Params := {}

namespace Query

/-- A query over the given table. -/
def ofTable (table : String) : Query :=
  { table := some table }

/-- The entries with the given one at the place of an entry for the same expression, or at the
end. -/
def placeOrder (entry : OrderEntry) : List OrderEntry → List OrderEntry
  | [] => [entry]
  | old :: rest =>
    if old.expression = entry.expression then entry :: rest else old :: placeOrder entry rest

/-- Orders by an expression; one direction for each expression. -/
def orderBy (q : Query) (expression : String) (direction : Option SortDirection) : Query :=
  { q with order := placeOrder ⟨expression, direction⟩ q.order }

/-- Gives a field of the condition a predicate. -/
def setField (q : Query) (field : String) (p : Predicate) : Query :=
  { q with filter := q.filter.setField field p }

/-- Adds a predicate to the condition. -/
def append (q : Query) (p : Predicate) : Query :=
  { q with filter := q.filter.append p }

/-- Does the condition already say something about the column? -/
def hasKey (q : Query) (key : String) : Bool :=
  q.filter.hasKey key

/-- The product of two counts, if a word holds it; an overflow otherwise. -/
def checkedMul (a b : UInt64) : Option UInt64 :=
  if a.toNat * b.toNat < UInt64.size then some (a * b) else none

/-- Moves the window to a page, counted from one, of the size of the current limit. The call fails,
and leaves no query, if the number of rows before the page overflows. -/
def page (q : Query) (number : UInt64) : Option Query :=
  (checkedMul (q.limit.getD 0) ((if number = 0 then 1 else number) - 1)).map fun skip =>
    { q with offset := some skip }

/-- Does the disabled-row test apply to a column that marks disabled rows? -/
def testsActive (q : Query) (column : String) : Bool :=
  q.regardsActive && !q.hasKey column

/-- Leaves out disabled rows by the column that marks them, unless the query regards all rows or
already says something about the column. -/
def regardActive (q : Query) (column : String) : Query :=
  if q.testsActive column then q.setField column (Comparison.equal (.int 1)) else q

/-- Binds a value to the given key, or to a generated one, and tells the key as it is stored. -/
def bind (q : Query) (value : Value) : Option String → String × Query
  | some key => (Params.mark key, { q with params := q.params.insert (Params.mark key) value })
  | none => let (key, params) := q.params.push value; (key, { q with params })

/-- The query without its parameters. -/
def clearParams (q : Query) : Query :=
  { q with params := {} }

end Query

end SqlAccess
