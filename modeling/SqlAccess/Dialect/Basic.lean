import SqlAccess.Identifier
import SqlAccess.Value

/-!
# Dialects

A `Dialect` is the SQL of one family of databases: portable SQL, or MySQL's. This module fixes what
statements of every kind need of it: the quotes around identifiers, the form of a constant, the
paging clause and the row lock. What a dialect says about column types and table definitions stands
with those.
-/

namespace SqlAccess

/-- The SQL of a family of databases. -/
inductive Dialect where
  /-- Portable SQL, for databases without a dialect of their own. -/
  | generic
  /-- The SQL of MySQL and its relatives. -/
  | mysql
  deriving DecidableEq, Repr, Inhabited

namespace Dialect

/-- The name by which a dialect is known. -/
def name : Dialect → String
  | .generic => "generic"
  | .mysql => "mysql"

/-- The character around identifiers. -/
def identifierQuote : Dialect → Char
  | .generic => '"'
  | .mysql => '\x60'

/-- A name as an identifier of the dialect. -/
def identifier (d : Dialect) (name : String) : String :=
  String.ofList (Identifier.encode d.identifierQuote name.toList)

/-- A list of names as identifiers, with commas between them. -/
def identifiers (d : Dialect) (names : List String) : String :=
  Text.joined ", " (names.map d.identifier)

/-- A value as a constant of the dialect. MySQL has its own form for text and writes truth values
as digits; all else is standard. -/
def literal : Dialect → Value → String
  | .mysql, .text s => Literal.escaped s
  | .mysql, .bool b => if b then "1" else "0"
  | _, value => value.inline

/-- The number of rows that stands for no limit where a limit has to be written. -/
def allRows : UInt64 := 0xFFFFFFFFFFFFFFFF

/-- The paging clause, if there is anything to say. An offset of zero is left out beside a limit. -/
def limitClause (d : Dialect) : Option UInt64 → Option UInt64 → Option String
  | none, none => none
  | some limit, none => some ("LIMIT " ++ toString limit)
  | some limit, some offset =>
    if offset = 0 then some ("LIMIT " ++ toString limit)
    else match d with
      | .generic => some ("LIMIT " ++ toString limit ++ " OFFSET " ++ toString offset)
      | .mysql => some ("LIMIT " ++ toString offset ++ ", " ++ toString limit)
  | none, some offset =>
    match d with
    | .generic => some ("OFFSET " ++ toString offset)
    | .mysql => some ("LIMIT " ++ toString offset ++ ", " ++ toString allRows)

/-- The clause that locks the selected rows. -/
def lockClause (_ : Dialect) : String :=
  "FOR UPDATE"

end Dialect

end SqlAccess
