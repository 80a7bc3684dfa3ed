import ChannelWatch.Text.Search

/-!
# JSON values

A value keeps what a text says and no more: an object's members stand in the order written, repeated keys included, and
a number keeps the form of its fraction and exponent. A string literal may escape a surrogate without its partner; it is
then well-formed JSON that denotes no text, and `none` stands for it.
-/

namespace ChannelWatch

/-- What a string literal denotes: a text, or nothing where an escaped surrogate stands alone. -/
abbrev JsonText := Option String

/-- A number literal: its sign, its integer part, and its fraction and exponent as written. -/
structure JsonNumber where
  negative : Bool
  whole : Nat
  tail : List Char
  deriving DecidableEq

/-- A JSON value. -/
inductive Json
  | null
  | bool (b : Bool)
  | number (n : JsonNumber)
  | string (s : JsonText)
  | array (items : List Json)
  | object (members : List (JsonText × Json))

namespace Json

/-- The value of a text. -/
def text (s : String) : Json :=
  string (some s)

/-- The value of a natural number. -/
def nat (n : Nat) : Json :=
  number ⟨false, n, []⟩

/-- The value of an integer. -/
def int (n : Int) : Json :=
  number ⟨n < 0, n.natAbs, []⟩

/-- The object with the given members. -/
def record (members : List (String × Json)) : Json :=
  object (members.map fun m => (some m.1, m.2))

/-- A text, or null. -/
def textOrNull : Option String → Json
  | some s => text s
  | none => null

/-- The text that a value is. -/
def asText? : Json → Option String
  | string s => s
  | _ => none

/-- The truth value that a value is. -/
def asBool? : Json → Option Bool
  | bool b => some b
  | _ => none

/-- The natural number below `bound` that a value is: written without sign, fraction and exponent. -/
def asNat? (bound : Nat) : Json → Option Nat
  | number ⟨false, n, []⟩ => if n < bound then some n else none
  | _ => none

/-- The signed 64-bit integer that a value is: written without fraction and exponent, and not as a negative zero. -/
def asInt64? : Json → Option Int
  | number ⟨false, n, []⟩ => if n < Nat.pow 2 63 then some n else none
  | number ⟨true, n, []⟩ => if 0 < n ∧ n ≤ Nat.pow 2 63 then some (-(n : Int)) else none
  | _ => none

/-- The values of a list. -/
def asArray? : Json → Option (List Json)
  | array items => some items
  | _ => none

end Json

end ChannelWatch
