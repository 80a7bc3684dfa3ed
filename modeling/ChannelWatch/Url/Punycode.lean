/-!
# Punycode

A text of any characters written in ASCII: its ASCII characters first, then, in a variable-length number to the base 36
each, the places and values of all others in the order of their values. `decode?` reads what `encode` writes.
-/

namespace ChannelWatch.Punycode

/-- The first character that is not ASCII. -/
def firstCode : Nat :=
  0x80

/-- The threshold that digits are adapted to at first. -/
def firstBias : Nat :=
  72

/-- A digit as it is written: letters, then decimal digits. -/
def digit (n : Nat) : Char :=
  if n < 26 then Char.ofNat (0x61 + n) else Char.ofNat (0x30 + n - 26)

/-- The value of a digit. -/
def value? (c : Char) : Option Nat :=
  if 'a' ≤ c ∧ c ≤ 'z' then some (c.toNat - 0x61)
  else if 'A' ≤ c ∧ c ≤ 'Z' then some (c.toNat - 0x41)
  else if '0' ≤ c ∧ c ≤ '9' then some (c.toNat - 0x30 + 26)
  else none

/-- The threshold of the digit at a position that counts up in steps of 36. -/
def threshold (bias position : Nat) : Nat :=
  max 1 (min 26 (position - bias))

/-- A difference divided by 35 until it is small, with 36 for each time. -/
def reduced (delta base : Nat) : Nat × Nat :=
  if 455 < delta then reduced (delta / 35) (base + 36) else (delta, base)
termination_by delta
decreasing_by omega

/-- The bias after a difference was written, with so many characters then in place. -/
def adapted (delta count : Nat) (first : Bool) : Nat :=
  let delta := if first then delta / 700 else delta / 2
  let (delta, base) := reduced (delta + delta / count) 0
  base + 36 * delta / (delta + 38)

/-- A difference in digits. -/
def encodeDelta (bias position delta : Nat) : List Char :=
  let t := threshold bias position
  if delta < t then [digit delta]
  else digit (t + (delta - t) % (36 - t)) :: encodeDelta bias (position + 36) ((delta - t) / (36 - t))
termination_by delta
decreasing_by
  have h : 1 ≤ threshold bias position := Nat.le_max_left ..
  exact Nat.lt_of_le_of_lt (Nat.div_le_self _ _) (by omega)

/-- What an encoder has written, with the difference that has added up, the bias, and how many characters are in place. -/
structure Encoder where
  written : List Char
  delta : Nat
  bias : Nat
  count : Nat

/-- The encoder passes one character of the text while it places those with a value. -/
def Encoder.pass (basic value : Nat) (e : Encoder) (c : Char) : Encoder :=
  if c.toNat < value then { e with delta := e.delta + 1 }
  else if c.toNat = value then {
    written := e.written ++ encodeDelta e.bias 36 e.delta
    delta := 0
    bias := adapted e.delta (e.count + 1) (e.count = basic)
    count := e.count + 1 }
  else e

/-- The encoder places all characters with the values of a list, which grow from `next` on. -/
def Encoder.placeAll (text : List Char) (basic : Nat) : Nat → List Nat → Encoder → Encoder
  | _, [], e => e
  | next, value :: rest, e =>
    let e := { e with delta := e.delta + (value - next) * (e.count + 1) }
    let e := text.foldl (Encoder.pass basic value) e
    placeAll text basic (value + 1) rest { e with delta := e.delta + 1 }

/-- A text in Punycode. -/
def encode (text : List Char) : List Char :=
  let basic := text.filter (·.toNat < firstCode)
  let values := ((text.map Char.toNat).filter (firstCode ≤ ·)).eraseDups.mergeSort
  let written := if basic.isEmpty then [] else basic ++ ['-']
  (Encoder.placeAll text basic.length firstCode values ⟨written, 0, firstBias, basic.length⟩).written

/-- What a decoder has read: the characters in place, the value and the place that it has come to, the weight and the
position of the next digit, the place that the number began at, and the bias. -/
structure Decoder where
  read : List Char
  value : Nat
  place : Nat
  weight : Nat
  position : Nat
  start : Nat
  bias : Nat

/-- The places and weights of a decoder lie below this. -/
def wordBound : Nat :=
  Nat.pow 2 32

/-- The decoder reads a digit; the last one of a number puts a character in its place. -/
def Decoder.step? (d : Decoder) (c : Char) : Option Decoder := do
  let n ← value? c
  let place := d.place + n * d.weight
  let t := threshold d.bias d.position
  let weight := d.weight * (36 - t)
  if wordBound ≤ place ∨ (t ≤ n ∧ wordBound ≤ weight) then none
  else if t ≤ n then some { d with place := place, weight := weight, position := d.position + 36 }
  else
    let count := d.read.length + 1
    let value := d.value + place / count
    if 0x10FFFF < value ∨ (Char.ofNat value).toNat ≠ value then none
    else
      let spot := place % count
      some {
        read := d.read.take spot ++ Char.ofNat value :: d.read.drop spot
        value := value
        place := spot + 1
        weight := 1
        position := 36
        start := spot + 1
        bias := adapted (place - d.start) count (d.start = 0) }

/-- The text that is written in Punycode; no text begins with the hyphen that ends the ASCII characters. -/
def decode? (written : List Char) : Option (List Char) := do
  let tail := (written.reverse.takeWhile (· ≠ '-')).reverse
  let basic := written.take (written.length - tail.length - 1)
  if basic.isEmpty ∧ tail.length < written.length then none
  else
    let d ← tail.foldlM Decoder.step? ⟨basic, firstCode, 0, 1, 36, 0, firstBias⟩
    if d.position = 36 then some d.read else none

end ChannelWatch.Punycode
