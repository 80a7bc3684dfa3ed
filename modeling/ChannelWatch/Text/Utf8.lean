/-!
# UTF-8

Texts are written to files, hashed and percent-encoded as UTF-8 bytes. `encode` writes a text; `units` reads bytes back,
one entry per character or per ill-formed run, so that `decode?` can refuse a run and `decodeLossy` can show it as the
replacement character.

A run that is refused is the longest stretch of bytes that could still have become a character.
-/

namespace ChannelWatch.Utf8

/-- The bytes of a text. -/
def encode (text : List Char) : List UInt8 :=
  text.flatMap String.utf8EncodeChar

/-- The bytes of a string. -/
def ofString (s : String) : List UInt8 :=
  encode s.toList

/-- What a character still needs after some of its bytes: how many more, the range its next byte lies in, and the value
of the bits read so far. -/
structure Pending where
  needed : Nat
  low : Nat
  high : Nat
  bits : Nat

/-- The first byte of a longer character: the range of the byte after it excludes overlong forms, surrogates and
values past the last code point. -/
def lead? (b : Nat) : Option Pending :=
  if 0xC2 ≤ b ∧ b ≤ 0xDF then some ⟨1, 0x80, 0xBF, b - 0xC0⟩
  else if b = 0xE0 then some ⟨2, 0xA0, 0xBF, 0⟩
  else if b = 0xED then some ⟨2, 0x80, 0x9F, 0xD⟩
  else if 0xE1 ≤ b ∧ b ≤ 0xEF then some ⟨2, 0x80, 0xBF, b - 0xE0⟩
  else if b = 0xF0 then some ⟨3, 0x90, 0xBF, 0⟩
  else if 0xF1 ≤ b ∧ b ≤ 0xF3 then some ⟨3, 0x80, 0xBF, b - 0xF0⟩
  else if b = 0xF4 then some ⟨3, 0x80, 0x8F, 4⟩
  else none

/-- A reader between two bytes: what it has read so far, last first, and the character it is in the middle of. -/
structure Reader where
  read : List (Option Char)
  pending : Option Pending

/-- The reader takes a byte that begins a character, or none. -/
def Reader.start (read : List (Option Char)) (b : Nat) : Reader :=
  if b < 0x80 then ⟨some (Char.ofNat b) :: read, none⟩
  else match lead? b with
    | some p => ⟨read, some p⟩
    | none => ⟨none :: read, none⟩

/-- The reader takes one byte: one that cannot go on with the pending character ends it as ill-formed and starts anew. -/
def Reader.step (r : Reader) (byte : UInt8) : Reader :=
  let b := byte.toNat
  match r.pending with
  | none => Reader.start r.read b
  | some p =>
    if p.low ≤ b ∧ b ≤ p.high then
      let bits := p.bits * 64 + (b - 0x80)
      if p.needed ≤ 1 then ⟨some (Char.ofNat bits) :: r.read, none⟩
      else ⟨r.read, some ⟨p.needed - 1, 0x80, 0xBF, bits⟩⟩
    else Reader.start (none :: r.read) b

/-- The bytes have ended: a character still pending is ill-formed. -/
def Reader.finish (r : Reader) : List (Option Char) :=
  match r.pending with
  | none => r.read.reverse
  | some _ => (none :: r.read).reverse

/-- The characters of a byte string in order, `none` for every ill-formed run. -/
def units (bytes : List UInt8) : List (Option Char) :=
  (bytes.foldl Reader.step ⟨[], none⟩).finish

/-- The text of well-formed bytes. -/
def decode? (bytes : List UInt8) : Option (List Char) :=
  let us := units bytes
  if us.all Option.isSome then some (us.filterMap id) else none

/-- The text of any bytes, with U+FFFD for every ill-formed run. -/
def decodeLossy (bytes : List UInt8) : List Char :=
  (units bytes).map (·.getD '\uFFFD')

end ChannelWatch.Utf8
