import SqlAccess.Query.Basic
import SqlAccess.Text.Word

/-!
# Statements

SELECT, UPDATE, DELETE and INSERT from the description of a query. Values are bound in the order in
which their placeholders stand in the text: those of a SET list before those of the condition.

A write is guarded. When the condition says nothing, so that the statement would change every row of
its table, it is refused before anything is rendered, unless the query allows it.

An entry of an ordering is written as it stands if it is one function call from end to end, and as
an identifier otherwise.
-/

namespace SqlAccess

open SqlAccess.Text in
/-- Is the text a word, an opening parenthesis, and anything without a semicolon up to a closing
parenthesis at the end? White space may stand before the opening parenthesis. -/
def isFunctionCall (cs : List Char) : Bool :=
  match (cs.dropWhile isWordChar).dropWhile isBlank with
  | '(' :: body =>
    cs.head?.any isWordChar && body.getLast? == some ')' && body.all (· != ';')
  | _ => false

/-- An entry of an ordering. -/
def OrderEntry.render (d : Dialect) (entry : OrderEntry) : String :=
  let expression :=
    if isFunctionCall entry.expression.toList then entry.expression
    else d.identifier entry.expression
  match entry.direction with
  | some direction => expression ++ " " ++ direction.sql
  | none => expression

namespace Query

/-- The table of the query. -/
def source (q : Query) : Rendering String :=
  match q.table with
  | some table => pure table
  | none => Rendering.fault .tableMissing

/-- The condition given as text, if it says anything. -/
def extra (q : Query) : Option String :=
  q.extraFilter.filter fun sql => !Text.blank sql

/-- The whole condition: the tree, and behind it the condition given as text. -/
def root (q : Query) : Group :=
  match q.extra with
  | some sql => q.filter.append (Comparison.native sql {})
  | none => q.filter

/-- The clause of the condition, which is missing when the condition says nothing. -/
def whereClause (d : Dialect) (q : Query) : Rendering String := do
  let condition ← q.root.render d
  return if condition.isEmpty then "" else " WHERE " ++ condition

/-- The clause of the ordering, which is missing when there is none. -/
def orderClause (d : Dialect) (q : Query) : String :=
  if q.order.isEmpty then ""
  else " ORDER BY " ++ Text.joined ", " (q.order.map (·.render d))

/-- The clause of the grouping, which is missing when there is none. -/
def groupClause (d : Dialect) (q : Query) : String :=
  if q.grouping.isEmpty then "" else " GROUP BY " ++ d.identifiers q.grouping

/-- A clause with a blank in front, if there is one. -/
def spaced : Option String → String
  | some clause => " " ++ clause
  | none => ""

/-- The SELECT statement of the query. -/
def select (d : Dialect) (q : Query) : Rendering String := do
  let table ← q.source
  let columns := if q.columns.isEmpty then "*" else Text.joined ", " q.columns
  let condition ← q.whereClause d
  return "SELECT " ++ columns ++ " FROM " ++ d.identifier table ++ condition ++ q.groupClause d ++
    q.orderClause d ++ spaced (d.limitClause q.limit q.offset) ++
    spaced (if q.locking then some d.lockClause else none)

/-- Does the query select every row without allowing that for a write? -/
def unguarded (q : Query) : Bool :=
  q.filter.rendersEmpty && q.extra.isNone && !q.unconditional

/-- Refuses a write that would change every row. -/
def guardWrite (q : Query) (write : Write) (table : String) : Rendering Unit :=
  if q.unguarded then throw (.unguardedWrite write table) else pure ()

/-- What a write has behind its condition: the ordering, and the limit without an offset. -/
def writeTail (d : Dialect) (q : Query) : String :=
  q.orderClause d ++ spaced (q.limit.map fun limit => "LIMIT " ++ toString limit)

/-- A SET list, each value bound to a placeholder of its own. -/
def assignments (d : Dialect) : List (String × Value) → Rendering (List String)
  | [] => pure []
  | (column, value) :: rest => do
    let key ← Rendering.bound value
    let others ← assignments d rest
    return (d.identifier column ++ " = " ++ key) :: others

/-- The UPDATE statement that sets the given columns in the rows of the query. -/
def update (d : Dialect) (attributes : List (String × Value)) (q : Query) : Rendering String := do
  let table ← q.source
  q.guardWrite .update table
  let sets ← assignments d attributes
  if sets.isEmpty then Rendering.fault (.updateEmpty table)
  let condition ← q.whereClause d
  return "UPDATE " ++ d.identifier table ++ " SET " ++ Text.joined ", " sets ++ condition ++
    q.writeTail d

/-- The DELETE statement over the rows of the query. -/
def delete (d : Dialect) (q : Query) : Rendering String := do
  let table ← q.source
  q.guardWrite .delete table
  let condition ← q.whereClause d
  return "DELETE FROM " ++ d.identifier table ++ condition ++ q.writeTail d

/-- The UPDATE statement that marks the rows of the query as deleted: the flag becomes zero, and a
second column may take a time stamp. It is guarded as a DELETE. -/
def softDelete (d : Dialect) (flag : String) (stamp : Option (String × Value)) (q : Query) :
    Rendering String := do
  let table ← q.source
  q.guardWrite .delete table
  q.update d ((flag, .int 0) :: stamp.toList)

/-- Renders a statement of the query into the query's own parameter table, which keeps what was
bound also when the rendering fails. -/
def build (q : Query) (statement : Query → Rendering String) : Except Error String × Query :=
  match statement q q.params with
  | .ok sql params => (.ok sql, { q with params })
  | .error e params => (.error e, { q with params })

/-- The columns and the placeholders of an INSERT, each value bound to a placeholder of its own. -/
def insertion (d : Dialect) : List (String × Value) → Rendering (List String × List String)
  | [] => pure ([], [])
  | (column, value) :: rest => do
    let key ← Rendering.bound value
    let (columns, keys) ← insertion d rest
    return (d.identifier column :: columns, key :: keys)

/-- The INSERT statement of one row, with its parameters. -/
def insert (d : Dialect) (table : String) (attributes : List (String × Value)) :
    Except Error (String × Params) :=
  match insertion d attributes {} with
  | .error e _ => .error e
  | .ok (columns, keys) params =>
    if columns.isEmpty then .error (.invalidCondition (.insertEmpty table))
    else .ok
      ("INSERT INTO " ++ d.identifier table ++ " (" ++ Text.joined ", " columns ++ ") VALUES (" ++
        Text.joined ", " keys ++ ")", params)

end Query

end SqlAccess
