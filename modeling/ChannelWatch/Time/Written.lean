import ChannelWatch.Text.Blank
import ChannelWatch.Time.Instant

/-!
# Reading times

Two grammars. `Instant.readStrict?` takes RFC 3339: every field at its full width, and a `Z` or an offset with its colon.
`Instant.readLoose?` takes more: white space before numbers and separators, shorter fields, signed years of any length,
`UTC` for the `Z`, and offsets without a colon or with white space. Both take a space for the `T` between date and time,
and any number of fraction digits, of which they keep nine.
-/

namespace ChannelWatch

namespace Written

/-- The text after an expected character. -/
def expect? (c : Char) : List Char → Option (List Char)
  | d :: rest => if d = c then some rest else none
  | [] => none

/-- A number of at least one and at most `width` digits, and the text after it. -/
def number? (width : Nat) (text : List Char) : Option (Nat × List Char) :=
  let digits := (text.take width).takeWhile Text.isDigit
  if digits.isEmpty then none else some (Text.decimal digits, text.drop digits.length)

/-- A number of exactly `width` digits, and the text after it. -/
def fixed? (width : Nat) (text : List Char) : Option (Nat × List Char) :=
  let digits := (text.take width).takeWhile Text.isDigit
  if digits.length = width then some (Text.decimal digits, text.drop width) else none

/-- A fraction in nanoseconds, zero if there is none: nine digits count and the rest are passed over. -/
def fraction? : List Char → Option (Nat × List Char)
  | '.' :: rest =>
    let digits := rest.takeWhile Text.isDigit
    if digits.isEmpty then none
    else some (Text.decimal ((digits ++ List.replicate 9 '0').take 9), rest.drop digits.length)
  | text => some (0, text)

/-- The sign of an offset: true if the clock runs behind UTC. The minus sign U+2212 is taken for a hyphen. -/
def offsetSign? : List Char → Option (Bool × List Char)
  | '+' :: rest => some (false, rest)
  | '-' :: rest => some (true, rest)
  | '\u2212' :: rest => some (true, rest)
  | _ => none

/-- An offset from UTC in seconds: `Z`, or a sign, hours, what `separator?` passes over, and minutes. -/
def offset? (separator? : List Char → Option (List Char)) (text : List Char) : Option (Int × List Char) :=
  match text with
  | 'Z' :: rest => some (0, rest)
  | 'z' :: rest => some (0, rest)
  | _ => do
    let (behind, rest) ← offsetSign? text
    let (hours, rest) ← fixed? 2 rest
    let rest ← separator? rest
    let (minutes, rest) ← fixed? 2 rest
    if 59 < minutes then none
    else
      let seconds : Int := (hours * 3600 + minutes * 60 : Nat)
      some (if behind then -seconds else seconds, rest)

/-- A strict date: year, month and day. -/
def strictDate? (text : List Char) : Option (Calendar.Date × List Char) := do
  let (year, rest) ← fixed? 4 text
  let rest ← expect? '-' rest
  let (month, rest) ← fixed? 2 rest
  let rest ← expect? '-' rest
  let (day, rest) ← fixed? 2 rest
  some (⟨year, month, day⟩, rest)

/-- The text after what divides date and time: a `T` in either case, or a space. -/
def divider? : List Char → Option (List Char)
  | 'T' :: rest => some rest
  | 't' :: rest => some rest
  | ' ' :: rest => some rest
  | _ => none

/-- A strict clock reading that is the whole text. -/
def strict? (text : List Char) : Option ClockReading := do
  let (date, rest) ← strictDate? text
  let rest ← divider? rest
  let (hour, rest) ← fixed? 2 rest
  let rest ← expect? ':' rest
  let (minute, rest) ← fixed? 2 rest
  let rest ← expect? ':' rest
  let (second, rest) ← fixed? 2 rest
  let (nanos, rest) ← fraction? rest
  let (offset, rest) ← offset? (expect? ':') rest
  if rest.isEmpty then some ⟨date, hour, minute, second, nanos, offset⟩ else none

/-- A loose number of at most two digits after white space. -/
def looseNumber? (text : List Char) : Option (Nat × List Char) :=
  number? 2 (Text.skipBlank text)

/-- The text after an expected character that may have white space before it. -/
def looseExpect? (c : Char) (text : List Char) : Option (List Char) :=
  expect? c (Text.skipBlank text)

/-- A loose year: at most four digits, or a sign and any number of digits. -/
def looseYear? (text : List Char) : Option (Int × List Char) :=
  match Text.skipBlank text with
  | '-' :: rest => (number? rest.length rest).map fun y => (-(y.1 : Int), y.2)
  | '+' :: rest => (number? rest.length rest).map fun y => ((y.1 : Int), y.2)
  | rest => (number? 4 rest).map fun y => ((y.1 : Int), y.2)

/-- A loose date. -/
def looseDate? (text : List Char) : Option (Calendar.Date × List Char) := do
  let (year, rest) ← looseYear? text
  let rest ← looseExpect? '-' rest
  let (month, rest) ← looseNumber? rest
  let rest ← looseExpect? '-' rest
  let (day, rest) ← looseNumber? rest
  some (⟨year, month, day⟩, rest)

/-- A loose offset: `UTC` in any case, or an offset with any colons and white space before its minutes. -/
def looseOffset? (text : List Char) : Option (Int × List Char) :=
  match Text.stripStart? "utc".toList ((text.take 3).map Char.toLower) with
  | some _ => some (0, text.drop 3)
  | none => offset? (fun rest => some (rest.dropWhile fun c => c = ':' || Text.isBlank c)) text

/-- A loose clock reading with nothing but white space after it. -/
def loose? (text : List Char) : Option ClockReading := do
  let (date, rest) ← looseDate? text
  let rest ← divider? rest
  let (hour, rest) ← looseNumber? rest
  let rest ← looseExpect? ':' rest
  let (minute, rest) ← looseNumber? rest
  let rest ← looseExpect? ':' rest
  let (second, rest) ← looseNumber? rest
  let (nanos, rest) ← fraction? rest
  let (offset, rest) ← looseOffset? (Text.skipBlank rest)
  if (Text.skipBlank rest).isEmpty then some ⟨date, hour, minute, second, nanos, offset⟩ else none

end Written

namespace Instant

/-- The instant of a text in RFC 3339. -/
def readStrict? (text : String) : Option Instant :=
  (Written.strict? text.toList).bind ClockReading.instant?

/-- The instant of a text in the loose grammar. -/
def readLoose? (text : String) : Option Instant :=
  (Written.loose? text.toList).bind ClockReading.instant?

end Instant

end ChannelWatch
