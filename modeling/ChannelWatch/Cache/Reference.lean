import ChannelWatch.Json.Value

/-!
# Image references

What a client is given for an image: a local reference to a fresh or an expired cache file, the remote URL where nothing
is cached, or nothing where there is no image.
-/

namespace ChannelWatch

/-- A reference to an image. -/
inductive ImageRef
  | fresh (href : String)
  | stale (href : String)
  | remote (href : String)
  | missing
  deriving DecidableEq

namespace ImageRef

/-- The reference as a client loads it, empty if there is none. -/
def href : ImageRef → String
  | fresh h | stale h | remote h => h
  | missing => ""

/-- The reference points at a cache file. -/
def isLocal : ImageRef → Bool
  | fresh _ | stale _ => true
  | remote _ | missing => false

/-- The reference stands in for a fresh cache file. -/
def isFallback : ImageRef → Bool
  | stale _ | remote _ => true
  | fresh _ | missing => false

/-- The name of the reference's state. -/
def state : ImageRef → String
  | fresh _ => "fresh"
  | stale _ => "stale"
  | remote _ => "remote"
  | missing => "missing"

/-- The members of the reference's JSON object; a missing image has no `href`. -/
def members (r : ImageRef) : List (String × Json) :=
  ("state", .text r.state) :: match r with
    | missing => []
    | _ => [("href", .text r.href)]

/-- The reference as JSON. -/
def toJson (r : ImageRef) : Json :=
  .record r.members

end ImageRef

end ChannelWatch
