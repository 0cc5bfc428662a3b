/-!
# The shortest decimal of a binary number

A double is a whole number times a power of two, and the reals that round to it form an interval
around it. Of all decimals in that interval one with the fewest significant digits is chosen, and of
those with equally few the nearest to the double; of two equally near ones the greater.

The choice works on whole numbers only. The interval is held as three numerators over one
denominator (`Interval`), and for one, two, … digits the two neighbours of the value on the decimal
grid of that many digits are tested against it. The first grid with a neighbour inside wins: a grid
that has a point of the interval at all has one next to the value.
-/

namespace SqlAccess.Decimal

/-- The magnitude of a finite double: `mantissa · 2 ^ exponent`. Just below a power of two the
doubles lie closer together than just above it, and `narrowBelow` marks the doubles to which that
applies. -/
structure Magnitude where
  mantissa : Nat
  exponent : Int
  narrowBelow : Bool

/-- What the bits of a double stand for. -/
inductive Reading where
  | notANumber
  | infinite (negative : Bool)
  | finite (negative : Bool) (magnitude : Magnitude)

/-- The number of fractions that a double of one exponent can have: the fraction takes 52 bits. -/
def fractionLimit : Nat := 0x10000000000000

/-- Reads the sign, the exponent and the fraction out of a double's 64 bits. -/
def Reading.ofBits (bits : Nat) : Reading :=
  let negative := (bits >>> 63) % 2 == 1
  let exponent := (bits >>> 52) % 2048
  let fraction := bits % fractionLimit
  if exponent = 2047 then
    if fraction = 0 then .infinite negative else .notANumber
  else if exponent = 0 then .finite negative ⟨fraction, -1074, false⟩
  else
    .finite negative
      ⟨fraction + fractionLimit, (exponent : Int) - 1075, fraction == 0 && exponent > 1⟩

/-- What a double stands for. -/
def Reading.of (x : Float) : Reading :=
  .ofBits x.toBits.toNat

/-- A decimal: `coefficient · 10 ^ scale`. -/
structure Digits where
  coefficient : Nat
  scale : Int
  deriving DecidableEq, Repr

/-- The digits of the coefficient. -/
def Digits.chars (d : Digits) : List Char :=
  Nat.toDigits 10 d.coefficient

/-- The power of ten that the leading digit stands for. -/
def Digits.leading (d : Digits) : Int :=
  d.scale + d.chars.length - 1

/-- The reals that round to a double, as numerators over one denominator. The ends belong to the
interval when the double's mantissa is even. -/
structure Interval where
  low : Nat
  value : Nat
  high : Nat
  denominator : Nat
  closed : Bool

/-- The interval of a magnitude. Quarters of the last binary place make its ends whole. -/
def Magnitude.interval (m : Magnitude) : Interval :=
  let up := Nat.pow 2 m.exponent.toNat
  { low := (4 * m.mantissa - if m.narrowBelow then 1 else 2) * up
    value := 4 * m.mantissa * up
    high := (4 * m.mantissa + 2) * up
    denominator := 4 * Nat.pow 2 (-m.exponent).toNat
    closed := m.mantissa % 2 == 0 }

/-- Both sides of the comparison between `coefficient · 10 ^ scale` and `numerator / denominator`,
brought to whole numbers. -/
def crossed (d : Digits) (numerator denominator : Nat) : Nat × Nat :=
  (d.coefficient * Nat.pow 10 d.scale.toNat * denominator, numerator * Nat.pow 10 (-d.scale).toNat)

/-- Does the decimal lie in the interval? -/
def Interval.holds (i : Interval) (d : Digits) : Bool :=
  let (below, low) := crossed d i.low i.denominator
  let (above, high) := crossed d i.high i.denominator
  if i.closed then low ≤ below && above ≤ high else low < below && above < high

/-- The greatest decimal of the given scale that is not above the value. -/
def Interval.below (i : Interval) (scale : Int) : Digits :=
  ⟨i.value * Nat.pow 10 (-scale).toNat / (i.denominator * Nat.pow 10 scale.toNat), scale⟩

/-- The next decimal of the same scale. -/
def Digits.next (d : Digits) : Digits :=
  ⟨d.coefficient + 1, d.scale⟩

/-- Is the value nearer to the decimal than to the next one of its scale? -/
def Interval.nearerBelow (i : Interval) (d : Digits) : Bool :=
  let (point, value) := crossed ⟨2 * d.coefficient + 1, d.scale⟩ (2 * i.value) i.denominator
  value < point

/-- The decimal of the given scale that the interval holds and that lies nearest to the value. -/
def Interval.nearest? (i : Interval) (scale : Int) : Option Digits :=
  let down := i.below scale
  match i.holds down, i.holds down.next with
  | true, true => some (if i.nearerBelow down then down else down.next)
  | true, false => some down
  | false, true => some down.next
  | false, false => none

/-- A power of ten above the value: `value < 10 ^ ceiling`, and `ceiling` is at most one too
large. -/
def Interval.ceiling (i : Interval) : Int :=
  if i.denominator ≤ i.value then (Nat.toDigits 10 (i.value / i.denominator)).length
  else 2 - ((Nat.toDigits 10 (i.denominator / i.value)).length : Int)

/-- The most digits that a search has to try: seventeen always suffice, and one is for a ceiling
that is one too large. -/
def mostDigits : Nat := 18

/-- The nearest decimal on the first grid that meets the interval, from the given scale
downwards. -/
def Interval.search (i : Interval) : Nat → Int → Digits
  | 0, scale => i.below scale
  | tries + 1, scale => (i.nearest? scale).getD (i.search tries (scale - 1))

/-- The same decimal without zeros at the end of its coefficient. -/
def Digits.reduced (d : Digits) : Nat → Digits
  | 0 => d
  | tries + 1 =>
    if d.coefficient ≠ 0 ∧ d.coefficient % 10 = 0 then
      Digits.reduced ⟨d.coefficient / 10, d.scale + 1⟩ tries
    else d

/-- The shortest decimal that reads back as the magnitude; zero is written as zero. -/
def Magnitude.shortest (m : Magnitude) : Digits :=
  if m.mantissa = 0 then ⟨0, 0⟩
  else (m.interval.search mostDigits (m.interval.ceiling - 1)).reduced mostDigits

end SqlAccess.Decimal
