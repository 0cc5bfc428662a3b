/-!
# Whole numbers in text

Reading a number that fills the text from end to end: one or more ASCII digits in base ten, with a
sign in front where a sign is allowed. Leading zeros are allowed, and a number beyond the given
bound is no number at all, so that what is read always fits the word it is meant for.
-/

namespace SqlAccess.Text

/-- The value of a run of decimal digits read on from a value already reached. -/
def digitsValue (reached : Nat) : List Char → Nat
  | [] => reached
  | d :: ds => digitsValue (reached * 10 + (d.toNat - '0'.toNat)) ds

/-- The number written by one or more digits. -/
def readDigits? (cs : List Char) : Option Nat :=
  if cs ≠ [] ∧ cs.all Char.isDigit then some (digitsValue 0 cs) else none

/-- The number written by one or more digits, when it is at most the bound. -/
def readBounded? (bound : Nat) (cs : List Char) : Option Nat :=
  (readDigits? cs).filter (· ≤ bound)

/-- A number without a minus sign and at most the bound; a plus sign may stand before it. -/
def readNat? (bound : Nat) : List Char → Option Nat
  | '+' :: cs => readBounded? bound cs
  | cs => readBounded? bound cs

/-- The largest integer that a signed word of 64 bits holds. -/
def maxInteger : Nat := 0x7FFFFFFFFFFFFFFF

/-- A number with an optional sign that fits a signed word of 64 bits. -/
def readInteger? : List Char → Option Int
  | '-' :: cs => (readBounded? (maxInteger + 1) cs).map fun n => -(n : Int)
  | cs => (readNat? maxInteger cs).map fun n => (n : Int)

end SqlAccess.Text
