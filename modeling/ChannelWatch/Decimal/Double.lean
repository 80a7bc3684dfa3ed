import ChannelWatch.Decimal.Rounding

/-!
# Numbers of double precision

A number of double precision is a whole number below 2⁵³ times a power of two between 2⁻¹⁰⁷⁴ and 2⁹⁷¹. What is computed
with them is computed exactly and then rounded to the nearest one, a tie to the one whose whole number is even. Only sizes
are kept here, a sign has to stand beside them.
-/

namespace ChannelWatch.Decimal

/-- The size of a number of double precision: `mantissa` times two to the power of `exponent`. The mantissa has 53 bits,
or the exponent is the smallest. -/
structure Double where
  mantissa : Nat
  exponent : Int
  deriving DecidableEq

namespace Double

/-- The smallest exponent. -/
def minExponent : Int :=
  -1074

/-- The largest exponent. -/
def maxExponent : Int :=
  971

/-- Zero. -/
def zero : Double :=
  ⟨0, minExponent⟩

/-- The numerator and denominator of a quotient divided by two to the power of `exponent`. -/
def unscale (num den : Nat) (exponent : Int) : Nat × Nat :=
  if 0 ≤ exponent then (num, den * Nat.pow 2 exponent.natAbs) else (num * Nat.pow 2 exponent.natAbs, den)

/-- The exponent of a positive quotient: the smallest at which its whole part has at most 53 bits. -/
def exponentOf (num den : Nat) : Int :=
  let low := max ((num.log2 : Int) - den.log2 - 53) minExponent
  let (n, d) := unscale num den low
  if n / d < Nat.pow 2 53 then low else low + 1

/-- The number nearest to a quotient, if it is not too large. -/
def ofQuotient? (num den : Nat) : Option Double :=
  if num = 0 then some zero
  else
    let exponent := exponentOf num den
    let (n, d) := unscale num den exponent
    let mantissa := divRoundEven n d
    let nearest : Double := if mantissa = Nat.pow 2 53 then ⟨Nat.pow 2 52, exponent + 1⟩ else ⟨mantissa, exponent⟩
    if nearest.exponent ≤ maxExponent then some nearest else none

/-- The number nearest to a whole number. -/
def ofNat? (n : Nat) : Option Double :=
  ofQuotient? n 1

/-- The number as a quotient. -/
def quotient (d : Double) : Nat × Nat :=
  if 0 ≤ d.exponent then (d.mantissa * Nat.pow 2 d.exponent.natAbs, 1) else (d.mantissa, Nat.pow 2 d.exponent.natAbs)

/-- The product of two numbers, rounded. -/
def mul? (a b : Double) : Option Double :=
  ofQuotient? (a.quotient.1 * b.quotient.1) (a.quotient.2 * b.quotient.2)

/-- The quotient of a number and one that is not zero, rounded. -/
def div? (a b : Double) : Option Double :=
  ofQuotient? (a.quotient.1 * b.quotient.2) (a.quotient.2 * b.quotient.1)

end Double

end ChannelWatch.Decimal
