import SqlAccess.Execution.Executor
import SqlAccess.Text.Split

/-!
# A recording executor

An executor without a database: it records every statement that it is sent, answers queries from a
queue of prepared rows, and can be told to refuse statements that hold a certain text. A refused
statement is recorded all the same.
-/

namespace SqlAccess

/-- Which statements a recorder refuses, and with which error. -/
structure Refusal where
  /-- The text that a refused statement holds. -/
  fragment : String
  code : Option String
  message : String

/-- What a recorder was sent, and how it answers. -/
structure Recorder where
  /-- The statements with their parameters, in order. -/
  sent : List (String × Params) := []
  /-- The rows of the queries to come. A query for which none are left has no rows. -/
  answers : List (List Row) := []
  /-- The number of rows that every statement changes. -/
  rowsAffected : Nat := 1
  refusal : Option Refusal := none

namespace Recorder

/-- Records a statement, and refuses it if it is to be refused. -/
def record (sql : String) (params : Params) : EStateM Error Recorder Unit := do
  modify fun r => { r with sent := r.sent ++ [(sql, params)] }
  match (← get).refusal with
  | some refusal =>
    if Text.contains refusal.fragment.toList sql.toList then
      throw (.database refusal.code refusal.message sql)
  | none => pure ()

/-- The executor that acts on a recorder. -/
def executor (d : Dialect) : Executor Recorder where
  dialect := d
  execute sql params := do
    record sql params
    return (← get).rowsAffected
  fetch sql params := do
    record sql params
    modifyGet fun r => (r.answers.head?.getD [], { r with answers := r.answers.tail })

end Recorder

end SqlAccess
