import SqlAccess.Error
import SqlAccess.Predicate.Basic

/-!
# Conditions as SQL

The text of a condition, with a placeholder for every value in it. Rendering runs on a parameter
table and binds the values as it meets them, from left to right; a leaf given as text brings its own
parameters under its own keys. A rendering that fails leaves behind what it had bound by then.

In a group joined by AND or OR, a member that says nothing is left out: blank text, and a group with
nothing to say. A nested AND or OR group stands in parentheses, and text stands as it was given. A
list of values needs a column, at least one item, and no group among its items.
-/

namespace SqlAccess

/-- A computation that binds parameters and may fail; what it bound before a failure stays bound. -/
abbrev Rendering := EStateM Error Params

/-- Binds a value to a generated key, and answers the key. -/
def Rendering.bound (value : Value) : Rendering String :=
  modifyGet (·.push value)

/-- Refuses a condition. -/
def Rendering.fault {α : Type} (fault : ConditionFault) : Rendering α :=
  throw (.invalidCondition fault)

/-- Binds the given keys to their values. A key that is bound to another value already is refused,
because the earlier placeholder would change its meaning. -/
def Rendering.adopt : List (String × Value) → Rendering Unit
  | [] => pure ()
  | (key, value) :: rest => do
    match (← get).get? key with
    | some bound => if bound != value then Rendering.fault (.parameterRebound key)
    | none => modify (·.insert key value)
    Rendering.adopt rest

namespace Comparison

/-- The text of a leaf that was given as text, with its parameters bound. -/
def renderRaw (c : Comparison) : Rendering (Option String) :=
  match c.raw with
  | none => pure none
  | some sql => do
    Rendering.adopt c.rawParams.entries
    return some sql

/-- The test of a column for null that a comparison with null comes to. -/
def nullTest (column : String) (operator : Operator) : String :=
  if operator = .equal then column ++ " IS NULL" else column ++ " IS NOT NULL"

/-- The text of a leaf, whose column is the inherited one if it names none. A value other than null
is bound. -/
def render (d : Dialect) (inherited : Option String) (c : Comparison) : Rendering String := do
  match ← c.renderRaw with
  | some sql => return sql
  | none =>
    match c.column.or inherited with
    | none => Rendering.fault (.comparisonWithoutColumn c.operator)
    | some column =>
      if c.value.isNull then return nullTest (d.identifier column) c.operator
      else
        let key ← Rendering.bound c.value
        return d.identifier column ++ " " ++ c.operator.sql ++ " " ++ key

/-- The text of a leaf as an item of a list: its text if it was given as text, and otherwise a
placeholder for its value. -/
def renderItem (c : Comparison) : Rendering String := do
  match ← c.renderRaw with
  | some sql => return sql
  | none => Rendering.bound c.value

end Comparison

namespace Predicate

/-- The items of a list of values, from left to right. -/
def renderItems (connective : Connective) (column : String) :
    List (Option String × Predicate) → Rendering (List String)
  | [] => pure []
  | (_, .group ..) :: _ => Rendering.fault (.listWithGroup connective column)
  | (_, .comparison c) :: rest => do
    let item ← c.renderItem
    let items ← renderItems connective column rest
    return item :: items

/-- A list of values with its column in front. -/
def renderList (d : Dialect) (connective : Connective) (column : Option String)
    (members : List (Option String × Predicate)) : Rendering String :=
  match column with
  | none => Rendering.fault (.listWithoutColumn connective)
  | some column =>
    if members.isEmpty then Rendering.fault (.listEmpty connective column)
    else do
      let items ← renderItems connective column members
      return d.identifier column ++ " " ++ connective.sql ++ " (" ++ Text.joined ", " items ++ ")"

/-- How the text of a member appears in an AND or OR group, if it says anything. -/
def placed (p : Predicate) (sql : String) : Option String :=
  match p with
  | .comparison _ => if Text.blank sql then none else some sql
  | .group _ connective _ =>
    if sql.isEmpty then none
    else if connective.isBoolean then some ("( " ++ sql ++ " )")
    else some sql

mutual

/-- The text of a condition, whose column is the inherited one if it names none. -/
def render (d : Dialect) (inherited : Option String) : Predicate → Rendering String
  | .comparison c => c.render d inherited
  | .group column connective members =>
    if connective.isBoolean then do
      let parts ← renderMembers d (column.or inherited) members
      return Text.joined (" " ++ connective.sql ++ " ") parts
    else renderList d connective (column.or inherited) members

/-- The texts of the members that say anything, from left to right. -/
def renderMembers (d : Dialect) (inherited : Option String) :
    List (Option String × Predicate) → Rendering (List String)
  | [] => pure []
  | (_, p) :: rest => do
    let sql ← p.render d inherited
    let parts ← renderMembers d inherited rest
    return (p.placed sql).toList ++ parts

end

end Predicate

/-- The text of a group as the whole of a condition, without parentheses. -/
def Group.render (d : Dialect) (g : Group) : Rendering String :=
  (Predicate.ofGroup g).render d none

end SqlAccess
