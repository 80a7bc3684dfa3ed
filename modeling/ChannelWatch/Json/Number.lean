import ChannelWatch.Decimal.Shortest
import ChannelWatch.Json.Value

/-!
# Keeping numbers

A number that is kept is an integer of 64 bits or of double precision. One of double precision is read from the first
digits of its literal, as many as 64 bits hold, which are rounded; the product or quotient with a power of ten is rounded
once more. A number that is too large is not kept. `JsonNumber.kept?` gives the literal in which the kept number is
written.
-/

namespace ChannelWatch

open Decimal (Double)

namespace JsonNumber

/-- The digits of a literal as far as they have been read: the value of those that 64 bits hold, the power of ten that it
is to be multiplied with, and whether digits are passed over. -/
structure Reading where
  value : Nat
  power : Int
  full : Bool

/-- A reading with one more digit. A digit before the point that is passed over counts as a power of ten, one behind it that
is taken as one less. -/
def Reading.digit (behind : Bool) (r : Reading) (c : Char) : Reading :=
  let value := r.value * 10 + (c.toNat - 0x30)
  if r.full ∨ Nat.pow 2 64 ≤ value then { r with full := true, power := if behind then r.power else r.power + 1 }
  else { r with value := value, power := if behind then r.power - 1 else r.power }

/-- The digits of the fraction. -/
def fractionDigits (n : JsonNumber) : List Char :=
  (n.tail.takeWhile fun c => c ≠ 'e' && c ≠ 'E').drop 1

/-- The exponent, zero if there is none. -/
def exponent (n : JsonNumber) : Int :=
  let text := (n.tail.dropWhile fun c => c ≠ 'e' && c ≠ 'E').drop 1
  let size := Text.decimal (text.filter Text.isDigit)
  if text.head? = some '-' then -(size : Int) else size

/-- The digits of a literal, with the power of ten that they are to be multiplied with. -/
def reading (n : JsonNumber) : Reading :=
  let whole := (Text.ofNat n.whole).foldl (Reading.digit false) ⟨0, 0, false⟩
  let all := n.fractionDigits.foldl (Reading.digit true) { whole with full := false }
  { all with power := all.power + n.exponent }

/-- The largest power of ten of double precision. -/
def maxPower : Nat :=
  308

/-- A power of ten of double precision. -/
def powerOfTen (n : Nat) : Double :=
  (Double.ofNat? (Nat.pow 10 n)).getD .zero

/-- A number times a power of ten, if it is not too large. Where the power is smaller than any of double precision, the
number is divided in steps until it is zero. -/
def scaled? (d : Double) (power : Int) : Option Double :=
  if d.mantissa = 0 then some d
  else if maxPower < power then none
  else if 0 ≤ power then d.mul? (powerOfTen power.toNat)
  else if -maxPower ≤ power then d.div? (powerOfTen power.natAbs)
  else (d.div? (powerOfTen maxPower)).bind fun d => scaled? d (power + maxPower)
termination_by power.natAbs
decreasing_by
  simp only [maxPower] at *
  omega

/-- The number of double precision that a literal stands for, without its sign. -/
def double? (n : JsonNumber) : Option Double :=
  (Double.ofNat? n.reading.value).bind fun d => scaled? d n.reading.power

/-- The literal of a number of double precision: a number from 0.00001 to below 10¹⁶ has its point among its digits, any
other an exponent. -/
def ofDouble (negative : Bool) (d : Double) : JsonNumber :=
  let shortest := d.shortest
  let digits := Text.ofNat shortest.digits
  let point : Int := digits.length + shortest.exponent
  if shortest.digits = 0 then ⟨negative, 0, ".0".toList⟩
  else if 0 ≤ shortest.exponent ∧ point ≤ 16 then
    ⟨negative, shortest.digits * Nat.pow 10 shortest.exponent.toNat, ".0".toList⟩
  else if 0 < point ∧ point ≤ 16 then
    ⟨negative, Text.decimal (digits.take point.toNat), '.' :: digits.drop point.toNat⟩
  else if -5 < point ∧ point ≤ 0 then ⟨negative, 0, '.' :: List.replicate point.natAbs '0' ++ digits⟩
  else
    let exponent := (if point ≤ 0 then ['-'] else []) ++ Text.ofNat (point - 1).natAbs
    ⟨negative, Text.decimal (digits.take 1), (if digits.length = 1 then [] else '.' :: digits.drop 1) ++ 'e' :: exponent⟩

/-- The literal is an integer of 64 bits: not a negative zero. -/
def isWord (n : JsonNumber) : Bool :=
  n.tail.isEmpty && if n.negative then 0 < n.whole && n.whole ≤ Nat.pow 2 63 else n.whole < Nat.pow 2 64

/-- The literal in which a number is written once it is kept. -/
def kept? (n : JsonNumber) : Option JsonNumber :=
  if n.isWord then some n else n.double?.map (ofDouble n.negative)

end JsonNumber

end ChannelWatch
