import ChannelWatch.Text.Search
import ChannelWatch.Time.Calendar

/-!
# Instants

A point in time is the number of seconds since 1970-01-01T00:00:00Z and the nanoseconds after it. The nanoseconds of a
leap second run from 1 000 000 000 to 1 999 999 999: it lies between the second it follows and the next one. Instants are
ordered by seconds, then nanoseconds, and written in UTC with a `Z`.
-/

namespace ChannelWatch

/-- A point in time. -/
structure Instant where
  seconds : Int
  nanos : Nat
  deriving DecidableEq

namespace Instant

/-- The first second that can be represented, the start of the year -262143. -/
def firstSecond : Int :=
  -8334601228800

/-- The last second that can be represented, the end of the year 262142. -/
def lastSecond : Int :=
  8210266876799

/-- The second can be represented. -/
def inRange (seconds : Int) : Bool :=
  firstSecond ≤ seconds && seconds ≤ lastSecond

/-- The instant a number of seconds after the epoch. -/
def ofSeconds? (seconds : Int) : Option Instant :=
  if inRange seconds then some ⟨seconds, 0⟩ else none

/-- The instant a number of nanoseconds after the epoch. -/
def ofNanos (nanos : Int) : Instant :=
  ⟨nanos / 1000000000, (nanos % 1000000000).toNat⟩

/-- One instant is not later than another. -/
def le (a b : Instant) : Bool :=
  a.seconds < b.seconds || (a.seconds == b.seconds && a.nanos ≤ b.nanos)

/-- A year: four digits, or a sign and at least four outside 0 to 9999. -/
def renderYear (year : Int) : List Char :=
  if 0 ≤ year ∧ year ≤ 9999 then Text.padded 4 year.natAbs
  else (if year < 0 then '-' else '+') :: Text.padded 4 year.natAbs

/-- The fraction of a second in nanoseconds, with the fewest of 0, 3, 6 or 9 digits that are exact. -/
def renderFraction (nanos : Nat) : List Char :=
  if nanos = 0 then []
  else if nanos % 1000000 = 0 then '.' :: Text.padded 3 (nanos / 1000000)
  else if nanos % 1000 = 0 then '.' :: Text.padded 6 (nanos / 1000)
  else '.' :: Text.padded 9 nanos

/-- An instant as it is written, a leap second as second 60. -/
def render (t : Instant) : String :=
  let date := Calendar.Date.ofDayNumber (t.seconds / 86400)
  let second := (t.seconds % 86400).toNat
  let leap := if t.nanos < 1000000000 then 0 else 1
  String.ofList (renderYear date.year ++ '-' :: Text.padded 2 date.month ++ '-' :: Text.padded 2 date.day
    ++ 'T' :: Text.padded 2 (second / 3600) ++ ':' :: Text.padded 2 (second / 60 % 60)
    ++ ':' :: Text.padded 2 (second % 60 + leap) ++ renderFraction (t.nanos % 1000000000) ++ ['Z'])

end Instant

/-- The fields of a written time before they are put together: a date, a time of day with a second up to 60, a fraction
in nanoseconds, and the seconds by which the clock runs ahead of UTC. -/
structure ClockReading where
  date : Calendar.Date
  hour : Nat
  minute : Nat
  second : Nat
  nanos : Nat
  offset : Int

/-- The date that the clock shows exists, and its own year can be represented, not only that of the instant in UTC. -/
def ClockReading.showsDate (r : ClockReading) : Bool :=
  -262143 ≤ r.date.year && r.date.year ≤ 262142 && r.date.isValid

/-- The instant of a clock reading whose fields are all in range. -/
def ClockReading.instant? (r : ClockReading) : Option Instant :=
  let (second, nanos) := if r.second = 60 then (59, r.nanos + 1000000000) else (r.second, r.nanos)
  let seconds := r.date.dayNumber * 86400 + (r.hour * 3600 + r.minute * 60 + second : Nat) - r.offset
  if r.showsDate ∧ r.hour ≤ 23 ∧ r.minute ≤ 59 ∧ r.second ≤ 60 ∧ -86400 < r.offset ∧ r.offset < 86400
      ∧ Instant.inRange seconds then
    some ⟨seconds, nanos⟩
  else none

end ChannelWatch
