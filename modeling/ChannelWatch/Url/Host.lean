import ChannelWatch.Url.Basic
import ChannelWatch.Url.Domain
import ChannelWatch.Url.Fault

/-!
# Hosts of URLs

The text of a host is an IPv6 address in brackets, an IPv4 address in any of its number forms, or a domain name. Only the
schemes of the web and their like have domain names; the host of another scheme is kept as it is written.
-/

namespace ChannelWatch.UrlHost

/-- The value of an IPv4 number: decimal, octal behind `0`, hexadecimal behind `0x`. -/
def ipv4Number? (part : List Char) : Option Nat :=
  let value (radix : Nat) (digits : List Char) : Option Nat :=
    digits.foldl (fun n c => do
      let n ← n
      let d ← Hex.value? c
      if d < radix then some (n * radix + d) else none) (some 0)
  match part with
  | [] => none
  | '0' :: 'x' :: digits => value 16 digits
  | '0' :: 'X' :: digits => value 16 digits
  | '0' :: d :: digits => value 8 (d :: digits)
  | digits => value 10 digits

/-- The parts of a name between its points, without an empty last one. -/
def labels (name : List Char) : List (List Char) :=
  let parts := Text.splitOn (· = '.') name
  if 1 < parts.length ∧ parts.getLast? = some [] then parts.dropLast else parts

/-- The name ends in a number and so has to be an IPv4 address. -/
def endsInNumber (name : List Char) : Bool :=
  match (labels name).getLast? with
  | some last => (!last.isEmpty && last.all Text.isDigit) || (ipv4Number? last).isSome
  | none => false

/-- The IPv4 address that a name stands for: up to four numbers, of which the last fills the bytes that are left. -/
def ipv4? (name : List Char) : Option Nat := do
  let numbers ← (labels name).mapM ipv4Number?
  let last ← numbers.getLast?
  let leading := numbers.dropLast
  if 3 < leading.length ∨ leading.any (255 < ·) ∨ Nat.pow 256 (4 - leading.length) ≤ last then none
  else some (leading.foldl (fun n octet => n * 256 + octet) 0 * Nat.pow 256 (4 - leading.length) + last)

/-- The groups of an IPv6 address in brackets. -/
def ipv6? (text : List Char) : Option (List Nat) :=
  if text.getLast? = some ']' then
    match Net.address6? (text.drop 1).dropLast with
    | some (groups, []) => some groups
    | _ => none
  else none

/-- The host of a URL of the web. -/
def ofText (text : List Char) : Except UrlFault UrlHost :=
  if text.head? = some '[' then
    match ipv6? text with
    | some groups => .ok (.ipv6 groups)
    | none => .error .badIpv6
  else
    match Domain.toAscii? (Percent.decode text) with
    | none => .error .badDomainName
    | some [] => .error .emptyHost
    | some name =>
      if endsInNumber name then
        match ipv4? name with
        | some value => .ok (.ipv4 value)
        | none => .error .badIpv4
      else .ok (.domain name)

/-- A character that the host of another scheme may not hold. -/
def isForbidden (c : Char) : Bool :=
  "\x00\t\n\r #/:<>?@[\\]^|".toList.contains c

/-- The host of a URL of another scheme. -/
def ofForeignText (text : List Char) : Except UrlFault UrlHost :=
  if text.head? = some '[' then
    match ipv6? text with
    | some groups => .ok (.ipv6 groups)
    | none => .error .badIpv6
  else if text.any isForbidden then .error .badDomainCharacter
  else if text.isEmpty then .ok .empty
  else .ok (.domain (Percent.encode Percent.isControl text))

end ChannelWatch.UrlHost
