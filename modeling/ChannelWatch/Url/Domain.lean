import ChannelWatch.Text.Composed
import ChannelWatch.Text.Utf8
import ChannelWatch.Url.Label
import ChannelWatch.Url.Punycode

/-!
# Domain names

A domain name is compared and sent in ASCII and in small letters. A label with other characters is sent in Punycode behind
`xn--`, and a label that comes like that has to be one that would be sent so.
-/

namespace ChannelWatch.Domain

/-- An ASCII character that no domain name holds. -/
def isForbidden (c : Char) : Bool :=
  c.toNat ≤ 0x20 || c.toNat == 0x7F || "%#/:<>?@[\\]^|".toList.contains c

/-- A text in the characters of names and in composed form; one in ASCII has no other form. -/
def normal? (text : List Char) : Option (List Char) :=
  if isAscii text then some (text.map Char.toLower) else (map? text).map Text.compose

/-- The beginning of a label in Punycode. -/
def mark : List Char :=
  "xn--".toList

/-- The most characters of a label behind that beginning. -/
def maxWritten : Nat :=
  2000

/-- The label that is written in Punycode: it has characters beyond ASCII and is in the form that all labels take. -/
def decoded? (written : List Char) : Option (List Char) :=
  if maxWritten < written.length ∨ !isAscii written then none
  else match Punycode.decode? written with
    | some label => if !isAscii label ∧ normal? label = some label then some label else none
    | none => none

/-- A label of a name as it is read. -/
def readLabel? (label : List Char) : Option (List Char) := do
  let label ← match Text.stripStart? mark label with
    | some written => decoded? written
    | none => some label
  if isAscii label ∨ isSound label then some label else none

/-- A label as it is sent. -/
def writeLabel (label : List Char) : List Char :=
  if isAscii label then label else mark ++ Punycode.encode label

/-- The name in ASCII, from the bytes it is given in. -/
def toAscii? (bytes : List UInt8) : Option (List Char) := do
  let name ← normal? (← Utf8.decode? bytes)
  let labels ← (Text.splitOn (· = '.') name).mapM readLabel?
  let name := ((labels.map writeLabel).intersperse ['.']).flatten
  if (labels.any (·.any Text.isRightToLeft) ∧ !labels.all keepsDirection) ∨ name.any isForbidden then none
  else some name

end ChannelWatch.Domain
