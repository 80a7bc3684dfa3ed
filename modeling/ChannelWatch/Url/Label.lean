import ChannelWatch.Text.Combining
import ChannelWatch.Text.Direction
import ChannelWatch.Text.Joining
import ChannelWatch.Url.Mapping

/-!
# Labels of domain names

A label is what stands between the points of a domain name. One with characters beyond ASCII does not begin with a mark,
has invisible joiners only where they show, and is not too long. In a name with writing from right to left no label
changes its direction, so that a name can be read in one way only.
-/

namespace ChannelWatch.Domain

/-- The ASCII characters. -/
def isAscii (text : List Char) : Bool :=
  text.all (·.toNat < 0x80)

/-- The most characters of a label that is not ASCII alone. -/
def maxLabel : Nat :=
  1000

/-- An invisible joiner or its opposite. -/
def isJoiner (c : Char) : Bool :=
  c = '\u200C' || c = '\u200D'

/-- A joiner shows between two texts, of which the one before stands last character first: behind a virama, or, if it keeps
letters apart, between two that would join. -/
def joinerShows (before : List Char) (joiner : Char) (after : List Char) : Bool :=
  match before with
  | [] => false
  | c :: _ =>
    Text.isVirama c
      || (joiner = '\u200C' && Text.joins [.left, .dual] before && Text.joins [.right, .dual] after)

/-- All joiners of a text show; what stands before it is given last character first. -/
def joinersShow (before : List Char) : List Char → Bool
  | [] => true
  | c :: rest => (!isJoiner c || joinerShows before c rest) && joinersShow (c :: before) rest

/-- A label with characters beyond ASCII may be in a name. -/
def isSound (label : List Char) : Bool :=
  label.length ≤ maxLabel && !(label.take 1).any Text.isMark && joinersShow [] label

/-- What follows the first letter of a label keeps its direction from left to right: it ends in a letter or digit, marks
apart. -/
def keepsLeft (rest : List Text.Direction) : Bool :=
  match rest.reverse.dropWhile (· = .mark) with
  | [] => true
  | last :: middle => (last = .left || last = .european) && middle.all fun d => d ≠ .right && d ≠ .arabic

/-- What follows the first letter of a label keeps its direction from right to left: it ends in a letter or digit, marks
apart, and has digits of one kind only. -/
def keepsRight (rest : List Text.Direction) : Bool :=
  match rest.reverse.dropWhile (· = .mark) with
  | [] => true
  | last :: middle =>
    (last = .right || last = .european || last = .arabic) && middle.all (· ≠ .left)
      && !((last :: middle).contains .european && (last :: middle).contains .arabic)

/-- A label begins with a letter and keeps its direction. -/
def keepsDirection (label : List Char) : Bool :=
  match label.map Text.Direction.of with
  | [] => true
  | .left :: rest => keepsLeft rest
  | .right :: rest => keepsRight rest
  | _ => false

end ChannelWatch.Domain
