/-!
# Operators of a condition

The comparisons that a leaf of a condition makes, and the connectives that join the members of a
group. Two of the connectives are Boolean and take any members; the other two make a list of values
that one column is tested against.
-/

namespace SqlAccess

/-- The comparison of a column with a value. -/
inductive Operator where
  | equal
  | notEqual
  | greater
  | greaterOrEqual
  | less
  | lessOrEqual
  | like
  | notLike
  | bitAnd
  /-- No comparison at all: the SQL is given as text. -/
  | native
  deriving DecidableEq, Repr

/-- The SQL of an operator. -/
def Operator.sql : Operator → String
  | .equal => "="
  | .notEqual => "!="
  | .greater => ">"
  | .greaterOrEqual => ">="
  | .less => "<"
  | .lessOrEqual => "<="
  | .like => "LIKE"
  | .notLike => "NOT LIKE"
  | .bitAnd => "&"
  | .native => "NATIVE"

/-- What joins the members of a group. -/
inductive Connective where
  /-- Every member holds. -/
  | all
  /-- Some member holds. -/
  | any
  /-- The column is one of the listed values. -/
  | among
  /-- The column is none of the listed values. -/
  | notAmong
  deriving DecidableEq, Repr

/-- The SQL keyword of a connective. -/
def Connective.sql : Connective → String
  | .all => "AND"
  | .any => "OR"
  | .among => "IN"
  | .notAmong => "NOT IN"

/-- Does the connective join conditions, rather than list values? -/
def Connective.isBoolean : Connective → Bool
  | .all | .any => true
  | .among | .notAmong => false

end SqlAccess
