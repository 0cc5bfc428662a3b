import SqlAccess.Execution.Executor
import SqlAccess.Execution.QueryLog
import SqlAccess.Params.Positional

/-!
# A pool without connections

A pool of connections that has been closed hands out none, and so refuses every statement that would
need one. What comes before the sending is done all the same: the placeholders are filled first, and
a statement with an unbound one is refused for that reason. No refused statement is logged, and
no transaction is ever open.
-/

namespace SqlAccess

/-- The visible state of a pool of connections. -/
structure Pool where
  /-- The number of connections that are open. -/
  connections : Nat := 0
  transactionOpen : Bool := false
  log : QueryLog := {}

namespace Pool

/-- The error of a statement for which no connection can be had. -/
def refusal (sql : String) : Error :=
  .database none "attempted to acquire a connection on a closed pool" sql

/-- The error of ending a transaction where none is open. -/
def noTransaction (sql : String) : Error :=
  .database none "no transaction is open" sql

/-- Refuses a statement, once its placeholders are filled. -/
def refuse {α : Type} (sql : String) (params : Params) : EStateM Error Pool α :=
  match params.toPositional sql with
  | .ok _ => throw (refusal sql)
  | .error e => throw e

/-- The executor over a pool that hands out no connection. -/
def closed (d : Dialect) : Executor Pool where
  dialect := d
  execute := refuse
  fetch := refuse
  begin := throw (refusal "BEGIN")
  commit := throw (noTransaction "COMMIT")
  rollback := throw (noTransaction "ROLLBACK")

end Pool

end SqlAccess
