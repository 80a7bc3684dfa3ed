/-!
# Searching and replacing in text

Plain text search: does a pattern occur, replace its first occurrence or all of them, cut off what a text begins or
ends with. Occurrences are taken from left to right and do not overlap, and what is put in is not searched again.
-/

namespace ChannelWatch.Text

/-- What follows a given beginning, if the text has it. -/
def stripStart? : List Char → List Char → Option (List Char)
  | [], text => some text
  | _ :: _, [] => none
  | p :: ps, c :: cs => if p = c then stripStart? ps cs else none

/-- The pattern begins the text. -/
def startsWith (pattern text : List Char) : Bool :=
  (stripStart? pattern text).isSome

/-- The pattern occurs somewhere in the text. -/
def contains (pattern : List Char) : List Char → Bool
  | [] => startsWith pattern []
  | c :: cs => startsWith pattern (c :: cs) || contains pattern cs

/-- The text with `skip` characters dropped and then every occurrence of the pattern replaced. -/
def replaceFrom (pattern new : List Char) : Nat → List Char → List Char
  | _, [] => []
  | skip + 1, _ :: cs => replaceFrom pattern new skip cs
  | 0, c :: cs =>
    if startsWith pattern (c :: cs) then new ++ replaceFrom pattern new (pattern.length - 1) cs
    else c :: replaceFrom pattern new 0 cs

/-- Every occurrence of a non-empty pattern replaced. -/
def replaceAll (pattern new text : List Char) : List Char :=
  replaceFrom pattern new 0 text

/-- The first occurrence of a non-empty pattern replaced. -/
def replaceFirst (pattern new : List Char) : List Char → List Char
  | [] => []
  | c :: cs =>
    match stripStart? pattern (c :: cs) with
    | some rest => new ++ rest
    | none => c :: replaceFirst pattern new cs

/-- The text without the characters of a class at its end. -/
def dropEndWhile (p : Char → Bool) (text : List Char) : List Char :=
  (text.reverse.dropWhile p).reverse

/-- The text without the characters of a class at both ends. -/
def trimWhile (p : Char → Bool) (text : List Char) : List Char :=
  dropEndWhile p (text.dropWhile p)

/-- The parts of a text between the characters of a class, from the last one back: `current` is the part being read. -/
def splitInto (p : Char → Bool) (current : List Char) (done : List (List Char)) : List Char → List (List Char)
  | [] => (current.reverse :: done).reverse
  | c :: cs =>
    if p c then splitInto p [] (current.reverse :: done) cs
    else splitInto p (c :: current) done cs

/-- The parts of a text between the characters of a class; there is one more part than separators. -/
def splitOn (p : Char → Bool) (text : List Char) : List (List Char) :=
  splitInto p [] [] text

/-- The text before the first occurrence of a character and, if it occurs, the text after it. -/
def cutAt (sep : Char) (text : List Char) : List Char × Option (List Char) :=
  match text.span (· ≠ sep) with
  | (before, []) => (before, none)
  | (before, _ :: after) => (before, some after)

/-- The text before the last occurrence of a character, if it occurs, and the text after it. -/
def cutAtLast (sep : Char) (text : List Char) : Option (List Char) × List Char :=
  match text.reverse.span (· ≠ sep) with
  | (after, []) => (none, after.reverse)
  | (after, _ :: before) => (some before.reverse, after.reverse)

/-- An ASCII digit. -/
def isDigit (c : Char) : Bool :=
  '0' ≤ c && c ≤ '9'

/-- An ASCII letter. -/
def isLetter (c : Char) : Bool :=
  ('a' ≤ c && c ≤ 'z') || ('A' ≤ c && c ≤ 'Z')

/-- The value of a run of decimal digits. -/
def decimal (digits : List Char) : Nat :=
  digits.foldl (fun n c => n * 10 + (c.toNat - 0x30)) 0

/-- The decimal digits of a number. -/
def ofNat (n : Nat) : List Char :=
  (Nat.repr n).toList

/-- The decimal digits of a number, padded with zeros on the left to a width. -/
def padded (width n : Nat) : List Char :=
  let digits := ofNat n
  List.replicate (width - digits.length) '0' ++ digits

end ChannelWatch.Text
