import ChannelWatch.Url.Percent

/-!
# Form encoding

The pairs of a query: `key=value` with `&` between pairs, a space as `+`, and everything but letters, digits and `*-._`
percent-encoded. Reading takes bytes that are no UTF-8 as the replacement character.
-/

namespace ChannelWatch.Form

/-- A character that stands for itself. -/
def isPlain (c : Char) : Bool :=
  Text.isLetter c || Text.isDigit c || c = '*' || c = '-' || c = '.' || c = '_'

/-- A byte as it stands in a key or a value. -/
def encodeByte (b : UInt8) : List Char :=
  if b = 0x20 then ['+'] else Percent.encodeByte (fun c => !isPlain c) b

/-- A key or value as it stands in a query. -/
def encode (text : List Char) : List Char :=
  (Utf8.encode text).flatMap encodeByte

/-- A pair as it stands in a query. -/
def encodePair (pair : String × String) : List Char :=
  encode pair.1.toList ++ '=' :: encode pair.2.toList

/-- A list of pairs as a query. -/
def encodePairs (pairs : List (String × String)) : List Char :=
  ['&'].intercalate (pairs.map encodePair)

/-- A key or value read from a query. -/
def decode (text : List Char) : List Char :=
  Utf8.decodeLossy (Percent.decode (text.map fun c => if c = '+' then ' ' else c))

/-- The pair that a part of a query stands for; a part without an equals sign is a key with an empty value. -/
def decodePair (part : List Char) : List Char × List Char :=
  let (key, value) := Text.cutAt '=' part
  (decode key, decode (value.getD []))

/-- The pairs of a query, empty parts passed over. -/
def decodePairs (query : List Char) : List (List Char × List Char) :=
  ((Text.splitOn (· = '&') query).filter (!·.isEmpty)).map decodePair

end ChannelWatch.Form
