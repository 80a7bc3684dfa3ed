import ChannelWatch.Decimal.Rounding
import ChannelWatch.Text.Search

/-!
# Sizes in megabytes

A byte count is held to 53 significant bits, divided by 2²⁰ exactly, and written with two places. Both roundings send a
tie to the even neighbour.
-/

namespace ChannelWatch.Decimal

/-- The nearest number with at most `bits` significant bits, a tie to the even one. -/
def toSignificant (bits n : Nat) : Nat :=
  let unit := Nat.pow 2 (n.log2 + 1 - bits)
  divRoundEven n unit * unit

/-- A number of hundredths with its point and two places. -/
def ofHundredths (n : Nat) : List Char :=
  Text.ofNat (n / 100) ++ '.' :: Text.padded 2 (n % 100)

/-- A byte count in megabytes, such as `1.50MB`. -/
def megabytes (bytes : Nat) : String :=
  String.ofList (ofHundredths (divRoundEven (100 * toSignificant 53 bytes) (Nat.pow 2 20)) ++ "MB".toList)

end ChannelWatch.Decimal
