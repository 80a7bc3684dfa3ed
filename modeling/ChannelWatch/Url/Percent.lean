import ChannelWatch.Text.Hex
import ChannelWatch.Text.Search
import ChannelWatch.Text.Utf8

/-!
# Percent-encoding

The bytes that a part of a URL may not hold are written as a percent sign and two uppercase digits. Each part has its own
set of ASCII characters to encode; bytes outside ASCII are always encoded.
-/

namespace ChannelWatch.Percent

/-- A control character or DEL. -/
def isControl (c : Char) : Bool :=
  c.toNat < 0x20 || c.toNat == 0x7F

/-- What a fragment encodes. -/
def inFragment (c : Char) : Bool :=
  isControl c || c = ' ' || c = '\x22' || c = '<' || c = '>' || c = '\x60'

/-- What a query encodes. -/
def inQuery (c : Char) : Bool :=
  isControl c || c = ' ' || c = '\x22' || c = '#' || c = '<' || c = '>'

/-- What the query of an http URL and its like encodes. -/
def inSpecialQuery (c : Char) : Bool :=
  inQuery c || c = '\x27'

/-- What a path encodes. -/
def inPath (c : Char) : Bool :=
  inFragment c || c = '#' || c = '?' || c = '\x7b' || c = '\x7d'

/-- What a user name or password encodes. -/
def inUserInfo (c : Char) : Bool :=
  inPath c || c = '/' || c = ':' || c = ';' || c = '=' || c = '@' || c = '[' || c = '\\' || c = ']' || c = '^'
    || c = '|'

/-- A byte as it stands in a part that encodes a set of characters. -/
def encodeByte (encodes : Char → Bool) (b : UInt8) : List Char :=
  let c := Char.ofNat b.toNat
  if b.toNat < 0x80 && !encodes c then [c] else '%' :: Hex.upperByte b

/-- A text as it stands in a part that encodes a set of characters. -/
def encode (encodes : Char → Bool) (text : List Char) : List Char :=
  (Utf8.encode text).flatMap (encodeByte encodes)

/-- The value of a hexadecimal digit given as a byte. -/
def digit? (b : UInt8) : Option Nat :=
  if b.toNat < 0x80 then Hex.value? (Char.ofNat b.toNat) else none

/-- The bytes with every percent sign and two digits put back into the byte they stand for; a percent sign without its
digits stands for itself. -/
def decodeBytes : List UInt8 → List UInt8
  | [] => []
  | [a] => [a]
  | [a, b] => [a, b]
  | a :: h :: l :: rest =>
    if a = 0x25 then
      match digit? h, digit? l with
      | some x, some y => UInt8.ofNat (x * 16 + y) :: decodeBytes rest
      | _, _ => a :: decodeBytes (h :: l :: rest)
    else a :: decodeBytes (h :: l :: rest)

/-- The bytes that a percent-encoded text stands for. -/
def decode (text : List Char) : List UInt8 :=
  decodeBytes (Utf8.encode text)

end ChannelWatch.Percent
