import SqlAccess.Migration.Error
import SqlAccess.Schema.Definition
import SqlAccess.Text.Number
import SqlAccess.Text.Split
import SqlAccess.Text.Uppercase

/-!
# Migrations

A migration is a versioned change of a database's schema. Its identifier, such as
`0003_add_email_to_users`, gives its version and its name: the number before the first underscore,
and the words behind it, each with a capital.

What it changes is declared on a schema, either once for both directions (`change`) or for each
direction by itself (`up`, `down`). A declaration may fail, and what it had declared by then stays
declared. A migration that has no `change` says so by the error `noChange`, which is what an absent
one does.
-/

namespace SqlAccess

/-- The version and the name of a migration. -/
structure MigrationId where
  version : Int
  name : String
  deriving DecidableEq

namespace MigrationId

open SqlAccess.Text

/-- A word with a capital letter in front. -/
def capitalized : List Char → List Char
  | [] => []
  | c :: cs => upperChar c ++ cs

/-- The name that the words behind a version make up. -/
def nameOf (words : List Char) : List Char :=
  ((words.splitOn '_').filter fun word => !word.isEmpty).flatMap capitalized

/-- The version and the name that an identifier spells. -/
def parse? (identifier : List Char) : Option MigrationId := do
  let (digits, words) ← splitOnce '_' identifier
  let version ← readBounded? maxInteger digits
  if (nameOf words).isEmpty then none
  else some { version, name := String.ofList (nameOf words) }

/-- The version and the name of an identifier. -/
def parse (identifier : String) : Except MigrationError MigrationId :=
  match parse? identifier.toList with
  | some id => .ok id
  | none => .error (.invalidIdentifier identifier)

/-- The version and the name, as messages show them. -/
def text (id : MigrationId) : String :=
  toString id.version ++ " " ++ id.name

/-- The order of identifiers: by version, and by name where the versions are equal. -/
def order (a b : MigrationId) : Ordering :=
  (compare a.version b.version).then (compare a.name b.name)

end MigrationId

/-- A computation that declares definitions on a schema. -/
abbrev Declaration := EStateM MigrationError Schema Unit

/-- A versioned change of a schema. -/
structure Migration where
  identifier : String
  /-- Comes before every other declaration. -/
  setup : Declaration := pure ()
  /-- The change, for both directions. -/
  change : Declaration := throw .noChange
  /-- The change forwards, where there is none for both directions. -/
  up : Declaration := pure ()
  /-- What is to be undone backwards, where there is no change for both directions. -/
  down : Declaration := pure ()

end SqlAccess
