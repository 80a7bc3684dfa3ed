import ChannelWatch.Text.Search
import ChannelWatch.Text.Utf8

/-!
# Request targets

What a request may ask for: a path and a query, a whole URI with a scheme and an authority, an authority alone, or `*`.
`Target.parse?` finds the path of a target, without query and fragment, or refuses it.
-/

namespace ChannelWatch.Http.Target

/-- The longest target. -/
def maxLength : Nat :=
  65534

/-- The longest name of a scheme. -/
def maxScheme : Nat :=
  64

/-- A byte between two others. -/
def within (low high : Nat) (b : UInt8) : Bool :=
  low ≤ b.toNat && b.toNat ≤ high

/-- A byte that a path may hold. -/
def inPath (b : UInt8) : Bool :=
  b = 0x21 || within 0x24 0x3B b || b = 0x3D || within 0x40 0x5F b || within 0x61 0x7A b || b = 0x7C || b = 0x7E
    || 0x80 ≤ b.toNat || b = 0x22 || b = 0x7B || b = 0x7D

/-- A byte that a query may hold. -/
def inQuery (b : UInt8) : Bool :=
  b = 0x21 || within 0x24 0x3B b || b = 0x3D || within 0x3F 0x7E b || 0x80 ≤ b.toNat

/-- A letter or digit. -/
def isAlphanumeric (b : UInt8) : Bool :=
  within 0x30 0x39 b || within 0x41 0x5A b || within 0x61 0x7A b

/-- A byte of a scheme's name. -/
def inScheme (b : UInt8) : Bool :=
  isAlphanumeric b || b = 0x2B || b = 0x2D || b = 0x2E || b = 0x7E

/-- A byte that an authority may hold. -/
def inAuthority (b : UInt8) : Bool :=
  isAlphanumeric b || ("!$&'()*+,-.:;=@[]_~".toList.any fun c => c.toNat = b.toNat)

/-- The path of a target's path and query; the fragment is cut off. -/
def path? (bytes : List UInt8) : Option (List UInt8) :=
  let path := bytes.takeWhile fun b => b ≠ 0x3F && b ≠ 0x23
  let rest := bytes.drop path.length
  let query := if rest.head? = some 0x3F then (rest.drop 1).takeWhile (· ≠ 0x23) else []
  if path.all inPath ∧ query.all inQuery then some path else none

/-- What has been seen of an authority: colons since the last at sign or bracket, brackets, percent signs, and whether an
at sign came last. -/
structure Seen where
  colons : Nat
  opened : Bool
  closed : Bool
  percent : Bool
  atEnd : Bool

/-- One more byte of an authority. -/
def Seen.step? (s : Seen) (b : UInt8) : Option Seen :=
  let s := { s with atEnd := b = 0x40 }
  if b = 0x3A then if 8 ≤ s.colons then none else some { s with colons := s.colons + 1 }
  else if b = 0x5B then if s.percent ∨ s.opened then none else some { s with opened := true }
  else if b = 0x5D then if !s.opened ∨ s.closed then none else some { s with closed := true, colons := 0, percent := false }
  else if b = 0x40 then some { s with colons := 0, percent := false }
  else if b = 0x25 then some { s with percent := true }
  else if inAuthority b then some s
  else none

/-- The authority that begins a text, and the text after it. -/
def authority? (bytes : List UInt8) : Option (List UInt8 × List UInt8) :=
  let authority := bytes.takeWhile fun b => b ≠ 0x2F && b ≠ 0x3F && b ≠ 0x23
  match authority.foldlM Seen.step? ⟨0, false, false, false, false⟩ with
  | none => none
  | some s =>
    if s.opened ≠ s.closed ∨ 1 < s.colons ∨ s.atEnd ∨ s.percent then none
    else some (authority, bytes.drop authority.length)

/-- What follows a scheme and `://`, if a text begins with them: `none` if the scheme is too long, `some none` if there is
no scheme. -/
def afterScheme? (bytes : List UInt8) : Option (Option (List UInt8)) :=
  let scheme := bytes.takeWhile inScheme
  match bytes.drop scheme.length with
  | 0x3A :: 0x2F :: 0x2F :: rest => if maxScheme < scheme.length then none else some (some rest)
  | _ => some none

/-- The path of a target: empty for an authority alone. -/
def parse? (bytes : List UInt8) : Option (List UInt8) :=
  if maxLength < bytes.length then none
  else match bytes with
    | [] => none
    | 0x2F :: _ => path? bytes
    | [0x2A] => some [0x2A]
    | _ =>
      match afterScheme? bytes with
      | none => none
      | some none =>
        match authority? bytes with
        | some (_, []) => some []
        | _ => none
      | some (some rest) =>
        match authority? rest with
        | some (_ :: _, rest) => (path? rest).map fun p => if p.isEmpty then [0x2F] else p
        | _ => none

/-- The path of a target given as text. -/
def ofText? (text : String) : Option (List UInt8) :=
  parse? (Utf8.ofString text)

end ChannelWatch.Http.Target
