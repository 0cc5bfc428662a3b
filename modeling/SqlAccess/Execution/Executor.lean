import SqlAccess.Error
import SqlAccess.Params.Basic
import SqlAccess.Row

/-!
# Executors

An `Executor` is what statements are sent to. It acts on a state of its own, a *session*, which may
be a connection, a record of what was sent, or a model of a database; a failed statement leaves the
session as the executor left it. Statements arrive with named placeholders and their parameters.

An executor over a single connection opens and closes transactions by plain statements, which is
what the three default fields say.
-/

namespace SqlAccess

/-- Something that statements are sent to, acting on sessions of the given type. -/
structure Executor (σ : Type) where
  /-- The dialect that statements are rendered in. -/
  dialect : Dialect
  /-- Sends a statement, and answers how many rows it changed. -/
  execute : String → Params → EStateM Error σ Nat
  /-- Sends a query, and answers its rows. -/
  fetch : String → Params → EStateM Error σ (List Row)
  /-- Opens a transaction. -/
  begin : EStateM Error σ Nat := execute "BEGIN" {}
  /-- Ends the open transaction and keeps its changes. -/
  commit : EStateM Error σ Nat := execute "COMMIT" {}
  /-- Ends the open transaction and undoes its changes. -/
  rollback : EStateM Error σ Nat := execute "ROLLBACK" {}

end SqlAccess
