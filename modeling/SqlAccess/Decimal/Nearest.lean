import SqlAccess.Decimal.Shortest

/-!
# The double nearest to a decimal

Of all doubles the one nearest to a decimal is chosen, and of two equally near ones the one whose
mantissa is even. The choice works on whole numbers only: the decimal is a quotient, a power of two
is taken out of it so that the rest has as many binary places as a mantissa holds, and the rest is
rounded once. Numbers too great for a double become infinite, and those too small become zero.
-/

namespace SqlAccess.Decimal

/-- The whole number nearest to a quotient; of two equally near ones the even one. -/
def roundedQuotient (numerator denominator : Nat) : Nat :=
  let whole := numerator / denominator
  let rest := 2 * (numerator % denominator)
  if rest < denominator ∨ rest = denominator ∧ whole % 2 = 0 then whole else whole + 1

/-- A quotient without a remainder is not changed. -/
theorem roundedQuotient_mul (n : Nat) {d : Nat} (h : 0 < d) : roundedQuotient (n * d) d = n := by
  simp [roundedQuotient, Nat.mul_div_cancel n h, h]

/-- The power of two at or below a positive quotient, as an exponent:
`2 ^ exponent ≤ numerator / denominator < 2 ^ (exponent + 1)`. -/
def binaryExponent (numerator denominator : Nat) : Int :=
  let exponent := (numerator.log2 : Int) - denominator.log2
  if denominator * Nat.pow 2 exponent.toNat ≤ numerator * Nat.pow 2 (-exponent).toNat then exponent
  else exponent - 1

/-- The bits of positive infinity. -/
def infiniteBits : Nat := 0x7FF0000000000000

/-- The bits of a number that is none. -/
def notANumberBits : Nat := 0x7FF8000000000000

/-- The bit that makes a double negative. -/
def negativeBit : Nat := 0x8000000000000000

/-- The bits of the double nearest to a positive quotient. The step between neighbouring doubles is
`2 ^ (binade - 1074)`, and a mantissa that is rounded up to the next power of two carries into the
exponent by itself, because the exponent stands right above the fraction. -/
def quotientBits (numerator denominator : Nat) : Nat :=
  let binade := (binaryExponent numerator denominator + 1022).toNat
  let mantissa := roundedQuotient (numerator * Nat.pow 2 (1074 - binade))
    (denominator * Nat.pow 2 (binade - 1074))
  min infiniteBits (binade * fractionLimit + mantissa)

/-- Decimals whose leading digit stands for this power of ten, or a greater one, are infinite as
doubles. -/
def infiniteFrom : Int := 309

/-- Decimals whose leading digit stands for a smaller power of ten than this one are zero as
doubles. -/
def zeroBelow : Int := -324

/-- The bits of the double nearest to a decimal. -/
def Digits.nearestBits (d : Digits) : Nat :=
  if d.coefficient = 0 ∨ d.leading < zeroBelow then 0
  else if infiniteFrom ≤ d.leading then infiniteBits
  else quotientBits (d.coefficient * Nat.pow 10 d.scale.toNat) (Nat.pow 10 (-d.scale).toNat)

end SqlAccess.Decimal
