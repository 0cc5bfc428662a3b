import SqlAccess.Decimal.Layout
import SqlAccess.Literal
import SqlAccess.Text.Blank
import SqlAccess.Text.Number

/-!
# Bind values

A `Value` is what a statement's placeholder stands for, and what a fetched row holds. Its
constructor decides how it is bound, so a value is classified once, where it is made: text of
`lobThreshold` bytes or more becomes a large object, and everything shorter stays text.

Equality of values is the database's and not the bit pattern's: two floats are the same value when
they compare equal, so zero equals minus zero and a not-a-number equals nothing, itself included.
-/

namespace SqlAccess

/-- A value bound to a placeholder. Integers are those of a signed word of 64 bits; what reads an
integer from text refuses any other. -/
inductive Value where
  | null
  | bool (b : Bool)
  | int (n : Int)
  | float (x : Float)
  | text (s : String)
  | lob (bytes : ByteArray)
  deriving BEq, Inhabited

namespace Value

/-- The number of bytes from which on text is bound as a large object. -/
def lobThreshold : Nat := 5120

/-- The value of a text: a large object from `lobThreshold` bytes on, text below. -/
def ofText (s : String) : Value :=
  if lobThreshold ≤ s.utf8ByteSize then .lob s.toUTF8 else .text s

/-- Is it the null value? -/
def isNull : Value → Bool
  | .null => true
  | _ => false

/-- The integer of a value. A truth value counts as one or zero, and a text as the number it
spells, white space around it aside. -/
def toInteger? : Value → Option Int
  | .int n => some n
  | .bool b => some (if b then 1 else 0)
  | .text s => Text.readInteger? (Text.trim s.toList)
  | _ => none

/-- The text of a value: a text itself, and a large object whose bytes are text. -/
def toText? : Value → Option String
  | .text s => some s
  | .lob bytes => String.fromUTF8? bytes
  | _ => none

/-- The value written into a statement in standard SQL. A large object is written as text when its
bytes are text, and as a hexadecimal constant otherwise. -/
def inline : Value → String
  | .null => "NULL"
  | .bool b => if b then "TRUE" else "FALSE"
  | .int n => toString n
  | .float x => Decimal.plain x
  | .text s => Literal.standard s
  | .lob bytes =>
    match String.fromUTF8? bytes with
    | some s => Literal.standard s
    | none => Literal.hexadecimal bytes

end Value

end SqlAccess
