import ChannelWatch.Text.Hex
import ChannelWatch.Text.Search

/-!
# Tables of characters

A property of characters is kept as a table of runs in ascending order, written as text. The text is cut into words at
white space; a word that ends in a colon heads the words up to the next such word. A run is its first and last character
in hexadecimal digits with a hyphen between them, or one character alone. A look-up halves the runs that are left.
-/

namespace ChannelWatch.Text

/-- A run of characters, given by their numbers, and what a table says of it. -/
structure Run (α : Type) where
  first : Nat
  last : Nat
  value : α

/-- Runs in ascending order, none of which overlap. -/
abbrev Table (α : Type) :=
  Array (Run α)

namespace Table

variable {α : Type}

/-- How many runs of a table begin at a number or before it, where all before the `low`-th do and none from the `high`-th
on does. -/
def countUpTo (t : Table α) (n low high : Nat) : Nat :=
  if low < high then
    let middle := (low + high) / 2
    match t[middle]? with
    | some run => if run.first ≤ n then countUpTo t n (middle + 1) high else countUpTo t n low middle
    | none => countUpTo t n low middle
  else low
termination_by high - low

/-- The run of a table that a number lies in. -/
def run? (t : Table α) (n : Nat) : Option (Run α) :=
  match t[countUpTo t n 0 t.size - 1]? with
  | some run => if run.first ≤ n ∧ n ≤ run.last then some run else none
  | none => none

/-- What a table says of a number. -/
def value? (t : Table α) (n : Nat) : Option α :=
  (t.run? n).map Run.value

/-- A table says something of a number. -/
def holds (t : Table α) (n : Nat) : Bool :=
  (t.run? n).isSome

/-- The table of some runs. -/
def ofRuns (runs : List (Run α)) : Table α :=
  (runs.mergeSort fun a b => decide (a.first ≤ b.first)).toArray

/-- A number in hexadecimal digits. -/
def number (digits : List Char) : Nat :=
  digits.foldl (fun n c => n * 16 + (Hex.value? c).getD 0) 0

/-- The run that a word writes. -/
def run (word : List Char) (value : α) : Run α :=
  let (first, last) := cutAt '-' word
  ⟨number first, number (last.getD first), value⟩

/-- The words of a text. -/
def words (text : String) : List (List Char) :=
  (splitOn (fun c => c = ' ' || c = '\n') text.toList).filter (!·.isEmpty)

/-- The words of a text under their heads. -/
def sections (text : String) : List (List Char × List (List Char)) :=
  let step (word : List Char) (rest : List (List Char) × List (List Char × List (List Char))) :=
    if word.getLast? = some ':' then ([], (word.dropLast, rest.1) :: rest.2) else (word :: rest.1, rest.2)
  ((words text).foldr step ([], [])).2

/-- The table of a text whose heads tell what the runs under them have in common. -/
def ofText (valueOf : List Char → α) (text : String) : Table α :=
  ofRuns ((sections text).flatMap fun s => s.2.map fun word => run word (valueOf s.1))

end Table

end ChannelWatch.Text
