import SqlAccess.Dialect.Mutation
import SqlAccess.Timestamp.Basic

/-!
# The query log

Every statement that a database carried out, in order: its text with the named placeholders, the
number of values bound to it, whether it writes, and when and how long it ran.
-/

namespace SqlAccess

/-- A statement as a database carried it out. -/
structure QueryRecord where
  sql : String
  /-- The number of bound values. -/
  parameters : Nat
  mutating : Bool
  /-- How long it took, in milliseconds. -/
  elapsed : Float
  /-- When it was finished. -/
  finished : Timestamp

/-- The statements that a database carried out, in order. -/
structure QueryLog where
  records : List QueryRecord := []

namespace QueryLog

/-- The log with one more statement. Whether it writes is for the dialect to say. -/
def record (log : QueryLog) (d : Dialect) (sql : String) (parameters : Nat) (elapsed : Float)
    (finished : Timestamp) : QueryLog :=
  ⟨log.records ++ [{ sql, parameters, mutating := d.isMutating sql, elapsed, finished }]⟩

/-- The number of statements. -/
def size (log : QueryLog) : Nat :=
  log.records.length

/-- Is there no statement? -/
def isEmpty (log : QueryLog) : Bool :=
  log.records.isEmpty

/-- The time that all statements took together, added up from the first one on. Adding starts from
minus zero, which changes no number that it is added to. -/
def totalElapsed (log : QueryLog) : Float :=
  log.records.foldl (fun total r => total + r.elapsed) (-0.0)

end QueryLog

end SqlAccess
