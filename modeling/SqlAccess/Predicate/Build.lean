import SqlAccess.Predicate.Basic

/-!
# Writing conditions

The conditions as a caller writes them: a comparison with a value, a test for null, a list of
values, and text in place of any of these. None of them names a column; the field that it is given
to does.
-/

namespace SqlAccess

instance : Coe Comparison Predicate := ⟨.comparison⟩

instance : Coe Group Predicate := ⟨.ofGroup⟩

namespace Comparison

/-- A comparison without a column. -/
def of (operator : Operator) (value : Value) : Comparison :=
  { operator, value }

/-- The column equals the value, or is null when the value is null. -/
def equal (value : Value) : Comparison :=
  of .equal value

/-- The column differs from the value, or is not null when the value is null. -/
def notEqual (value : Value) : Comparison :=
  of .notEqual value

/-- The column is null. -/
def isNull : Comparison :=
  equal .null

/-- The column is not null. -/
def isNotNull : Comparison :=
  notEqual .null

/-- The column is greater than the value, or equal to it when the bound is inclusive. -/
def greater (value : Value) (inclusive : Bool) : Comparison :=
  of (if inclusive then .greaterOrEqual else .greater) value

/-- The column is less than the value, or equal to it when the bound is inclusive. -/
def less (value : Value) (inclusive : Bool) : Comparison :=
  of (if inclusive then .lessOrEqual else .less) value

/-- The column is at least the value. -/
def atLeast (value : Value) : Comparison :=
  greater value true

/-- The column is at most the value. -/
def atMost (value : Value) : Comparison :=
  less value true

/-- The column matches the pattern. -/
def like (value : Value) : Comparison :=
  of .like value

/-- The column does not match the pattern. -/
def notLike (value : Value) : Comparison :=
  of .notLike value

/-- The column and the value have a bit in common. -/
def bitAnd (value : Value) : Comparison :=
  of .bitAnd value

/-- A condition given as text, with the parameters that the text refers to. They keep their keys. -/
def native (sql : String) (params : Params) : Comparison :=
  { operator := .native, value := .null, raw := some sql, rawParams := params }

/-- The comparison printed as the given text. -/
def overriddenBy (c : Comparison) (sql : String) : Comparison :=
  { c with raw := some sql }

/-- The comparison on the given column. -/
def on (c : Comparison) (column : String) : Comparison :=
  { c with column := some column }

end Comparison

namespace Group

/-- A group without members. -/
def of (connective : Connective) : Group :=
  { connective }

/-- A list of values under a connective. -/
def listing (connective : Connective) (values : List Value) : Group :=
  values.foldl (fun g value => g.append (Comparison.equal value)) (of connective)

/-- The column is one of the values. -/
def among (values : List Value) : Group :=
  listing .among values

/-- The column is none of the values. -/
def notAmong (values : List Value) : Group :=
  listing .notAmong values

/-- The group on the given column. -/
def on (g : Group) (column : String) : Group :=
  { g with column := some column }

end Group

end SqlAccess
