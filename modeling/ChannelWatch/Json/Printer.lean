import ChannelWatch.Json.Value
import ChannelWatch.Text.Hex

/-!
# Writing JSON

`Json.render` writes a value without white space. In strings a quotation mark, a backslash and the control characters
are escaped and everything else stands as it is; a literal that denotes no text is written as one.
-/

namespace ChannelWatch.Json

/-- A character as it stands in a string literal. -/
def escapeChar (c : Char) : List Char :=
  if c = '\x22' then ['\\', '\x22']
  else if c = '\\' then ['\\', '\\']
  else if c = '\n' then ['\\', 'n']
  else if c = '\r' then ['\\', 'r']
  else if c = '\t' then ['\\', 't']
  else if c = '\x08' then ['\\', 'b']
  else if c = '\x0c' then ['\\', 'f']
  else if c.toNat < 0x20 then
    ['\\', 'u', '0', '0', Hex.lowerDigit (c.toNat / 16), Hex.lowerDigit (c.toNat % 16)]
  else [c]

/-- A string literal. -/
def renderText : JsonText → String
  | some s => String.ofList ('\x22' :: s.toList.flatMap escapeChar ++ ['\x22'])
  | none => "\x22\\ud800\x22"

/-- A number literal. -/
def renderNumber (n : JsonNumber) : String :=
  (if n.negative then "-" else "") ++ Nat.repr n.whole ++ String.ofList n.tail

mutual

/-- The text of a value. -/
def render : Json → String
  | null => "null"
  | bool true => "true"
  | bool false => "false"
  | number n => renderNumber n
  | string s => renderText s
  | array items => "[" ++ renderItems items ++ "]"
  | object members => "\x7b" ++ renderMembers members ++ "\x7d"

/-- The values of an array, with commas between them. -/
def renderItems : List Json → String
  | [] => ""
  | [v] => render v
  | v :: w :: rest => render v ++ "," ++ renderItems (w :: rest)

/-- The members of an object, with commas between them. -/
def renderMembers : List (JsonText × Json) → String
  | [] => ""
  | [(k, v)] => renderText k ++ ":" ++ render v
  | (k, v) :: m :: rest => renderText k ++ ":" ++ render v ++ "," ++ renderMembers (m :: rest)

end

end ChannelWatch.Json
