import ChannelWatch.Decimal.Double
import ChannelWatch.Text.Search

/-!
# Shortest decimals

A number of double precision is written in the fewest digits that round to it again, and in the nearest of those. Digits
are sought on grids of ever smaller powers of ten: the first grid on which a neighbour of the number rounds to it gives
them.
-/

namespace ChannelWatch.Decimal

/-- A decimal number: `digits` times ten to the power of `exponent`. -/
structure Scientific where
  digits : Nat
  exponent : Int
  deriving DecidableEq

namespace Double

/-- A quarter of the number's last place, as a quotient. -/
def quarter (d : Double) : Nat × Nat :=
  unscale 1 1 (2 - d.exponent)

/-- How many quarters of its last place lie between the number and the smallest one that rounds to it: half as many where
the number below it is half as far away as the one above. -/
def below (d : Double) : Nat :=
  if d.mantissa = Nat.pow 2 52 ∧ minExponent < d.exponent then 1 else 2

/-- A whole number of steps rounds to the number. A step is `num` and a quarter of the last place is `den` of some unit. -/
def readsBack (d : Double) (num den steps : Nat) : Bool :=
  let low := (4 * d.mantissa - d.below) * den
  let high := (4 * d.mantissa + 2) * den
  let value := steps * num
  (low < value && value < high) || (d.mantissa % 2 = 0 && (value = low || value = high))

/-- The decimal on the grid of a power of ten that rounds to the number and is nearest to it. -/
def onGrid? (d : Double) (exponent : Int) : Option Scientific :=
  let (quarterNum, quarterDen) := d.quarter
  let num := (if 0 ≤ exponent then Nat.pow 10 exponent.natAbs else 1) * quarterDen
  let den := quarterNum * (if 0 ≤ exponent then 1 else Nat.pow 10 exponent.natAbs)
  let value := 4 * d.mantissa * den
  let down := value / num
  let nearest := divRoundEven value num
  let other := if nearest = down then down + 1 else down
  if d.readsBack num den nearest then some ⟨nearest, exponent⟩
  else if d.readsBack num den other then some ⟨other, exponent⟩
  else none

/-- The exponent of the coarsest grid. -/
def coarsest : Int :=
  308

/-- How many grids are tried: on the last of them every number has its 17 digits. -/
def gridCount : Nat :=
  650

/-- The shortest decimal that rounds to the number. -/
def shortest (d : Double) : Scientific :=
  if d.mantissa = 0 then ⟨0, 0⟩
  else ((List.range gridCount).findSome? fun (i : Nat) => d.onGrid? (coarsest - i)).getD ⟨0, 0⟩

end Double

end ChannelWatch.Decimal
