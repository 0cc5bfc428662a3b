import SqlAccess.Decimal.Shortest

/-!
# Writing a double

The text of a double: a sign, the digits of its shortest decimal, and a decimal point or an exponent
that puts them in place. Where the point stands is a matter of style. SQL text is always
positional, so that no exponent can appear in a statement; the description of a stored row changes
to an exponent for very large and very small numbers and marks whole numbers with a trailing zero.
-/

namespace SqlAccess.Decimal

/-- How a decimal is laid out. A number whose leading digit stands for `10 ^ e` is positional when
`e` lies between `positionalFrom` and `positionalTo`, if those are given; a positional number
without a fraction ends in `wholeMark`. -/
structure Style where
  positionalFrom : Option Int
  positionalTo : Option Int
  wholeMark : List Char

/-- Numbers in SQL text: positional at any size, nothing after a whole number. -/
def Style.plain : Style :=
  ⟨none, none, []⟩

/-- Numbers in the description of a row: positional from 0.0001 to below 10^16, and `.0` after a
whole number. -/
def Style.descriptive : Style :=
  ⟨some (-4), some 15, ['.', '0']⟩

/-- Every digit in its place, with zeros up to the point where they are needed. -/
def Digits.positional (d : Digits) (style : Style) : List Char :=
  let digits := d.chars
  if 0 ≤ d.scale then digits ++ List.replicate d.scale.toNat '0' ++ style.wholeMark
  else
    let places := (-d.scale).toNat
    if places < digits.length then
      digits.take (digits.length - places) ++ '.' :: digits.drop (digits.length - places)
    else '0' :: '.' :: List.replicate (places - digits.length) '0' ++ digits

/-- One digit before the point, the others behind it, and the exponent after an `e`. -/
def Digits.scientific (d : Digits) : List Char :=
  let exponent := 'e' :: (toString d.leading).toList
  match d.chars with
  | first :: second :: rest => first :: '.' :: second :: rest ++ exponent
  | digits => digits ++ exponent

/-- The decimal in the given style. -/
def Digits.layout (d : Digits) (style : Style) : List Char :=
  if d.coefficient = 0 ∨
      ((style.positionalFrom.all (· ≤ d.leading)) ∧ (style.positionalTo.all (d.leading ≤ ·))) then
    d.positional style
  else d.scientific

/-- The text of a sign and a magnitude. -/
def signed (negative : Bool) (text : List Char) : List Char :=
  if negative then '-' :: text else text

/-- The text of what a double stands for. Zero keeps its sign. -/
def Reading.layout (style : Style) : Reading → List Char
  | .notANumber => ['N', 'a', 'N']
  | .infinite negative => signed negative ['i', 'n', 'f']
  | .finite negative magnitude => signed negative (magnitude.shortest.layout style)

/-- The text of a double in SQL: the fewest digits that read back, never an exponent. -/
def plain (x : Float) : String :=
  String.ofList ((Reading.of x).layout .plain)

/-- The text of a double in the description of a row. -/
def descriptive (x : Float) : String :=
  String.ofList ((Reading.of x).layout .descriptive)

end SqlAccess.Decimal
