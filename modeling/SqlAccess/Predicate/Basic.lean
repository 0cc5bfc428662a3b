import SqlAccess.Params.Basic
import SqlAccess.Predicate.Operator
import SqlAccess.Text.Blank

/-!
# Predicates

A condition on the rows of a table is a tree. Its leaves compare a column with a value; its groups
join members with AND or OR, or list the values that a column is tested against. A leaf or a group
may leave its column out, and then takes that of the nearest group around it that names one.

A leaf may also carry its SQL as text (`raw`), with parameters of its own. Such a leaf is printed as
it stands and compares nothing.

A member of a group either stands for a *field*, and then there is at most one for each field name,
or was appended. `Group.setField` replaces the member of its field where it stands; `Group.append`
never replaces anything.
-/

namespace SqlAccess

/-- A leaf of a condition: a column compared with a value, or SQL given as text. -/
structure Comparison where
  /-- The column, unless it is that of the group around the leaf. -/
  column : Option String := none
  operator : Operator
  value : Value
  /-- The SQL that stands for the leaf, if it was given as text. -/
  raw : Option String := none
  /-- The parameters that the given text refers to. -/
  rawParams : Params := {}

/-- A condition on the rows of a table. -/
inductive Predicate where
  | comparison (c : Comparison)
  | group (column : Option String) (connective : Connective)
      (members : List (Option String × Predicate))

/-- The members of a condition under one connective, each with the field it stands for. -/
structure Group where
  /-- The column that members without one of their own refer to. -/
  column : Option String := none
  connective : Connective := .all
  members : List (Option String × Predicate) := []

namespace Comparison

/-- Is the leaf given as text? -/
def isRaw (c : Comparison) : Bool :=
  c.raw.isSome

/-- Is the leaf given as text that says nothing? -/
def isBlank (c : Comparison) : Bool :=
  c.raw.any Text.blank

end Comparison

namespace Predicate

/-- A group as a member of another. -/
def ofGroup (g : Group) : Predicate :=
  .group g.column g.connective g.members

/-- The column that the predicate itself names. -/
def column : Predicate → Option String
  | .comparison c => c.column
  | .group column _ _ => column

/-- The predicate with the given column in place of its own. -/
def stamp (column : String) : Predicate → Predicate
  | .comparison c => .comparison { c with column := some column }
  | .group _ connective members => .group (some column) connective members

mutual

/-- Does a member at any depth of the predicate stand for the field or name it as its column? -/
def mentions (key : String) : Predicate → Bool
  | .comparison _ => false
  | .group _ _ members => membersMention key members

/-- Does one of the members, or a member at any depth below it, mention the key? -/
def membersMention (key : String) : List (Option String × Predicate) → Bool
  | [] => false
  | (field, p) :: rest =>
    field == some key || p.column == some key || p.mentions key || membersMention key rest

end

mutual

/-- Is there no SQL in the predicate at all? That is so of blank text, and of AND and OR groups in
which it is so of every member. A list of values always has SQL: an empty one is an error. -/
def rendersEmpty : Predicate → Bool
  | .comparison c => c.isBlank
  | .group _ connective members => connective.isBoolean && allRenderEmpty members

/-- Is there no SQL in any of the members? -/
def allRenderEmpty : List (Option String × Predicate) → Bool
  | [] => true
  | (_, p) :: rest => p.rendersEmpty && allRenderEmpty rest

end

end Predicate

namespace Group

/-- The number of members. -/
def size (g : Group) : Nat :=
  g.members.length

/-- Does the group have no member? -/
def isEmpty (g : Group) : Bool :=
  g.members.isEmpty

/-- Is there no SQL in the group at all? -/
def rendersEmpty (g : Group) : Bool :=
  (Predicate.ofGroup g).rendersEmpty

/-- Is there a predicate for the key anywhere in the group? -/
def hasKey (g : Group) (key : String) : Bool :=
  (Predicate.ofGroup g).mentions key

/-- The members with the given one at its field's place, or at the end when the field is new. -/
def place (field : String) (p : Predicate) :
    List (Option String × Predicate) → List (Option String × Predicate)
  | [] => [(some field, p)]
  | (f, old) :: rest =>
    if f = some field then (f, p) :: rest else (f, old) :: place field p rest

/-- Gives the field a predicate on the column of the same name. -/
def setField (g : Group) (field : String) (p : Predicate) : Group :=
  { g with members := place field (p.stamp field) g.members }

/-- Adds a member that stands for no field. -/
def append (g : Group) (p : Predicate) : Group :=
  { g with members := g.members ++ [(none, p)] }

/-- The group without its members. -/
def clear (g : Group) : Group :=
  { g with members := [] }

end Group

end SqlAccess
