/-!
# Rounding

A quotient of whole numbers is rounded to the nearest whole number; one that lies halfway goes to the even neighbour.
-/

namespace ChannelWatch.Decimal

/-- A quotient rounded to the nearest whole number, a tie to the even one. -/
def divRoundEven (num den : Nat) : Nat :=
  let q := num / den
  let twice := 2 * (num % den)
  if twice < den then q
  else if den < twice then q + 1
  else if q % 2 = 0 then q else q + 1

end ChannelWatch.Decimal
