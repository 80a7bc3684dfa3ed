import ChannelWatch.Text.Hex
import ChannelWatch.Text.Search

/-!
# Socket addresses

An IP address and a port, read from and written as text: `127.0.0.1:8080`, `[::1]:8080`, `[fe80::1%2]:80`. Reading takes
one address written in any of its forms; writing uses the shortest one, with the first longest run of zero groups left
out and an IPv4 tail only behind `::ffff:`.
-/

namespace ChannelWatch

/-- An IP address: the octets of version 4, or the groups of version 6 with the number of its zone. -/
inductive IpAddress
  | v4 (octets : List Nat)
  | v6 (groups : List Nat) (zone : Nat)
  deriving DecidableEq

/-- An IP address and a port. -/
structure SocketAddress where
  ip : IpAddress
  port : Nat
  deriving DecidableEq

namespace Net

/-- The text after an expected character. -/
def expect? (c : Char) : List Char → Option (List Char)
  | d :: rest => if d = c then some rest else none
  | [] => none

/-- A decimal number below `bound` with any number of digits, and the text after it. -/
def decimal? (bound : Nat) (text : List Char) : Option (Nat × List Char) :=
  let digits := text.takeWhile Text.isDigit
  let n := Text.decimal digits
  if digits.isEmpty ∨ bound ≤ n then none else some (n, text.drop digits.length)

/-- An octet in at most three decimal digits without a leading zero. -/
def octet? (text : List Char) : Option (Nat × List Char) :=
  let digits := text.takeWhile Text.isDigit
  if 3 < digits.length ∨ (1 < digits.length ∧ digits.head? = some '0') then none else decimal? 256 text

/-- The four octets of an IPv4 address. -/
def octets? (text : List Char) : Option (List Nat × List Char) := do
  let (a, rest) ← octet? text
  let (b, rest) ← (expect? '.' rest).bind octet?
  let (c, rest) ← (expect? '.' rest).bind octet?
  let (d, rest) ← (expect? '.' rest).bind octet?
  some ([a, b, c, d], rest)

/-- A group of an IPv6 address: at most four hexadecimal digits. -/
def group? (text : List Char) : Option (Nat × List Char) :=
  let digits := text.takeWhile fun c => (Hex.value? c).isSome
  if digits.isEmpty ∨ 4 < digits.length then none
  else some (digits.foldl (fun n c => n * 16 + (Hex.value? c).getD 0) 0, text.drop digits.length)

/-- The text after the colon that stands before every group but the first. -/
def separated? (first : Bool) (text : List Char) : Option (List Char) :=
  if first then some text else expect? ':' text

/-- At most `limit` groups with colons between them, of which the last two may be written as an IPv4 address; whether
they were, and the text after them. -/
def groups (first : Bool) : Nat → List Char → List Nat × Bool × List Char
  | 0, text => ([], false, text)
  | limit + 1, text =>
    let tail := if limit = 0 then none else (separated? first text).bind octets?
    match tail with
    | some ([a, b, c, d], rest) => ([a * 256 + b, c * 256 + d], true, rest)
    | _ =>
      match (separated? first text).bind group? with
      | some (g, rest) =>
        let (more, tailed, rest) := groups false limit rest
        (g :: more, tailed, rest)
      | none => ([], false, text)

/-- The eight groups of an IPv6 address; `::` stands for at least one group of zeros. -/
def address6? (text : List Char) : Option (List Nat × List Char) :=
  let (head, tailed, rest) := groups true 8 text
  if head.length = 8 then some (head, rest)
  else if tailed then none
  else
    match Text.stripStart? [':', ':'] rest with
    | none => none
    | some rest =>
      let (tail, _, rest) := groups true (7 - head.length) rest
      some (head ++ List.replicate (8 - head.length - tail.length) 0 ++ tail, rest)

/-- The number of a zone after its percent sign, zero if there is none, and the text after it. -/
def zone? : List Char → Option (Nat × List Char)
  | '%' :: rest => decimal? (Nat.pow 2 32) rest
  | text => some (0, text)

/-- A port after its colon, at the end of the text. -/
def port? (text : List Char) : Option Nat := do
  let (port, rest) ← (expect? ':' text).bind (decimal? 65536)
  if rest.isEmpty then some port else none

/-- The longest run of zero groups from each position on: the length of the run that begins a list. -/
def zeroRun : List Nat → Nat
  | 0 :: rest => zeroRun rest + 1
  | _ => 0

/-- The start and length of the first longest run of zero groups. -/
def longestZeros (groups : List Nat) : Nat × Nat :=
  (List.range groups.length).foldl
    (fun best i => let n := zeroRun (groups.drop i); if best.2 < n then (i, n) else best) (0, 0)

/-- The hexadecimal digits of a group, without leading zeros. -/
def renderGroup (g : Nat) : List Char :=
  let digits := [g / 4096 % 16, g / 256 % 16, g / 16 % 16, g % 16].dropWhile (· = 0)
  if digits.isEmpty then ['0'] else digits.map Hex.lowerDigit

/-- Groups with colons between them. -/
def renderGroups (groups : List Nat) : List Char :=
  [':'].intercalate (groups.map renderGroup)

/-- The groups of an IPv6 address with the first longest run of at least two zeros left out. -/
def renderShort (groups : List Nat) : List Char :=
  let (start, length) := longestZeros groups
  if length < 2 then renderGroups groups
  else renderGroups (groups.take start) ++ "::".toList ++ renderGroups (groups.drop (start + length))

/-- The octets of an IPv4 address with points between them. -/
def renderOctets (octets : List Nat) : List Char :=
  ['.'].intercalate (octets.map Text.ofNat)

/-- An IPv6 address: one that stands for an IPv4 address shows it. -/
def render6 (groups : List Nat) : List Char :=
  match groups with
  | [0, 0, 0, 0, 0, 0xffff, a, b] => "::ffff:".toList ++ renderOctets [a / 256, a % 256, b / 256, b % 256]
  | _ => renderShort groups

end Net

namespace SocketAddress

/-- The address that a text denotes. -/
def read? (text : String) : Option SocketAddress :=
  match text.toList with
  | '[' :: rest => do
    let (groups, rest) ← Net.address6? rest
    let (zone, rest) ← Net.zone? rest
    let port ← (Net.expect? ']' rest).bind Net.port?
    some ⟨.v6 groups zone, port⟩
  | chars => do
    let (octets, rest) ← Net.octets? chars
    let port ← Net.port? rest
    some ⟨.v4 octets, port⟩

/-- The address as text. -/
def render (a : SocketAddress) : String :=
  String.ofList <| match a.ip with
    | .v4 octets => Net.renderOctets octets ++ ':' :: Text.ofNat a.port
    | .v6 groups zone =>
      '[' :: Net.render6 groups ++ (if zone = 0 then [] else '%' :: Text.ofNat zone) ++ ']' :: ':' :: Text.ofNat a.port

/-- The address of the machine itself. -/
def isLoopback (a : SocketAddress) : Bool :=
  match a.ip with
  | .v4 octets => octets.head? = some 127
  | .v6 groups _ => groups = [0, 0, 0, 0, 0, 0, 0, 1]

end SocketAddress

end ChannelWatch
