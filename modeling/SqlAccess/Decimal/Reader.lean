import SqlAccess.Decimal.Nearest
import SqlAccess.Text.Number
import SqlAccess.Text.Split
import SqlAccess.Text.Uppercase

/-!
# Reading a double

A double is written as digits with at most one decimal point among them, then an exponent behind an
`e` if there is one. A sign may stand before the number and before the exponent. Digits may be
missing on one side of the point but not on both. Infinity and the number that is none are written
as words, whatever their case.
-/

namespace SqlAccess.Decimal

open SqlAccess.Text

/-- Does the character begin the exponent of a number? -/
def isExponentMark (c : Char) : Bool :=
  c == 'e' || c == 'E'

/-- A whole number of any size with an optional sign. -/
def readExponent? : List Char → Option Int
  | '-' :: cs => (readDigits? cs).map fun n => -(n : Int)
  | '+' :: cs => (readDigits? cs).map fun n => (n : Int)
  | cs => (readDigits? cs).map fun n => (n : Int)

/-- The exponent that a number ends in: none is zero. -/
def readEnding? : List Char → Option Int
  | [] => some 0
  | _ :: cs => readExponent? cs

/-- The decimal that a text without a sign writes. -/
def Digits.read? (cs : List Char) : Option Digits := do
  let mantissa := cs.takeWhile (!isExponentMark ·)
  let exponent ← readEnding? (cs.dropWhile (!isExponentMark ·))
  let (whole, fraction) := (splitOnce '.' mantissa).getD (mantissa, [])
  let coefficient ← readDigits? (whole ++ fraction)
  return ⟨coefficient, exponent - fraction.length⟩

/-- The bits of the double that a text without a sign writes. -/
def readMagnitude? (cs : List Char) : Option Nat :=
  let word := String.ofList (asciiLowercase cs)
  if word = "nan" then some notANumberBits
  else if word = "inf" ∨ word = "infinity" then some infiniteBits
  else (Digits.read? cs).map Digits.nearestBits

/-- The bits of the double that a text writes. -/
def readBits? : List Char → Option Nat
  | '-' :: cs => (readMagnitude? cs).map (negativeBit + ·)
  | '+' :: cs => readMagnitude? cs
  | cs => readMagnitude? cs

/-- The double that a text writes. -/
def read? (text : String) : Option Float :=
  (readBits? text.toList).map fun bits => Float.ofBits (UInt64.ofNat bits)

end SqlAccess.Decimal
