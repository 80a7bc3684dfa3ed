import ChannelWatch.Cache.Directory
import ChannelWatch.Cache.Name
import ChannelWatch.Cache.Reference
import ChannelWatch.Link
import ChannelWatch.Settings.Basic

/-!
# The state of the cache

Everything that the cache's running parts share: the directory, the permits of the download pool, the downloads with the
markers of those in flight, the calls that look images up, and the sweeps that remove expired files. Downloads, calls and
sweeps are known by their places in the order in which they began and stay in the state when they are over.

An image is looked up under its secure URL, so that both forms of a URL are one image.
-/

namespace ChannelWatch.Cache

/-- How the cache works: how long a file is fresh, in nanoseconds, what local references begin with, and how many
downloads run at once. -/
structure Policy where
  ttl : Nat
  urlStart : String
  permits : Nat

/-- The name of the file that holds the image behind a URL in either form. -/
def nameFor (url : String) : String :=
  fileName (Link.secure url)

/-- Nanoseconds in a second. -/
def nanosPerSecond : Nat :=
  1000000000

/-- The policy of the settings; the pool has at least one permit. -/
def Policy.ofSettings (s : CacheSettings) : Policy :=
  ⟨s.ttl * nanosPerSecond, s.urlStart, max 1 s.maxDownloads⟩

/-- The most permits that a pool can have. -/
def maxPermits : Nat :=
  Nat.pow 2 61 - 1

/-- Where a download stands. It is `spawned` when it is registered and `queued` once its task has run and asked for a permit. From
`admitted` to `leaving` it holds a permit; from `opened` to `fetching` it holds its temporary file open; its marker is gone from
`unmarked` on, and at `ended` those who wait for it have been told. -/
inductive Phase
  | spawned
  | queued
  | admitted
  | opened (file : Nat)
  | fetching (file : Nat) (body : List UInt8)
  | fetched (body : List UInt8)
  | cleaning
  | leaving
  | released
  | unmarked
  | ended
  deriving DecidableEq

namespace Phase

/-- The download holds a permit of the pool. -/
def holdsPermit : Phase → Bool
  | admitted | opened _ | fetching _ _ | fetched _ | cleaning | leaving => true
  | spawned | queued | released | unmarked | ended => false

/-- The download's marker is in place. -/
def isMarked : Phase → Bool
  | unmarked | ended => false
  | _ => true

/-- Those who wait for the download have been told that it is over. -/
def isDone : Phase → Bool
  | ended => true
  | _ => false

end Phase

/-- A download of the image behind a secure URL. -/
structure Download where
  url : String
  phase : Phase

/-- What a call is for: to give a reference to an image, or only to have it downloaded. -/
inductive Purpose
  | resolve
  | preload
  deriving DecidableEq

/-- Where a call stands: `looked` has seen no fresh file, `waiting` waits for a download that another call began,
`ready` looks again. -/
inductive Stage
  | looked
  | waiting (download : Nat)
  | ready
  | answered (ref : ImageRef)
  | finished
  deriving DecidableEq

/-- A call for the image behind a secure URL. -/
structure Call where
  purpose : Purpose
  url : String
  stage : Stage

/-- What a sweep has removed. -/
structure SweepReport where
  files : Nat
  bytes : Nat
  deriving DecidableEq

/-- Where a sweep stands: it has listed the names, then goes through them with the time taken once; a file found expired
is removed in a step of its own. -/
inductive SweepStage
  | listed (names : List String)
  | going (now : Int) (names : List String)
  | removing (now : Int) (names : List String) (name : String) (size : Nat)
  | over
  | refused (fault : IoFault)

/-- A sweep, with its report so far. -/
structure Sweep where
  stage : SweepStage
  report : SweepReport

/-- The state of the cache. `line` holds the downloads that wait for a permit, in the order in which they have asked for it; `asked`
and `delivered` record what was asked of the source and what it delivered whole, in order. -/
structure State where
  clock : Int
  directory : Directory
  freshFile : Nat
  closed : Bool
  free : Nat
  line : List Nat
  downloads : List Download
  markers : List (String × Nat)
  calls : List Call
  sweeps : List Sweep
  asked : List String
  delivered : List (String × List UInt8)

/-- A cache that nothing has happened to yet, over a directory. -/
def State.initial (p : Policy) (directory : Directory) (freshFile : Nat) : State where
  clock := 0
  directory := directory
  freshFile := freshFile
  closed := false
  free := p.permits
  line := []
  downloads := []
  markers := []
  calls := []
  sweeps := []
  asked := []
  delivered := []

/-- What a look at a cache file finds. -/
inductive Look
  | fresh
  | stale
  | absent
  deriving DecidableEq

/-- What a look at a name finds: an entry whose time lies in the future is not fresh. -/
def Directory.look (d : Directory) (ttl : Nat) (now : Int) (name : String) : Look :=
  match d.find? name with
  | none => .absent
  | some e => if 0 ≤ now - e.modified ∧ now - e.modified < ttl then .fresh else .stale

/-- The local reference to the image behind a secure URL. -/
def Policy.localRef (p : Policy) (url : String) : String :=
  p.urlStart ++ fileName url

/-- The reference that a look at the file of a secure URL gives. -/
def Policy.refer (p : Policy) (url : String) : Look → ImageRef
  | .fresh => .fresh (p.localRef url)
  | .stale => .stale (p.localRef url)
  | .absent => .remote url

namespace State

/-- What a look at the file of a secure URL finds now. -/
def look (p : Policy) (s : State) (url : String) : Look :=
  s.directory.look p.ttl s.clock (fileName url)

/-- The phase of a download. -/
def phase? (s : State) (d : Nat) : Option Phase :=
  (s.downloads[d]?).map (·.phase)

/-- The state with a download in another phase. -/
def setPhase (s : State) (d : Nat) (phase : Phase) : State :=
  { s with downloads := s.downloads.modify d fun x => { x with phase := phase } }

/-- The state with a call at another stage. -/
def setStage (s : State) (c : Nat) (stage : Stage) : State :=
  { s with calls := s.calls.modify c fun x => { x with stage := stage } }

/-- The state with a sweep as it is now. -/
def setSweep (s : State) (i : Nat) (sweep : Sweep) : State :=
  { s with sweeps := s.sweeps.set i sweep }

/-- The download that the marker of a secure URL names. -/
def marker? (s : State) (url : String) : Option Nat :=
  (s.markers.find? (·.1 = url)).map (·.2)

/-- How many downloads are in flight. -/
def inFlight (s : State) : Nat :=
  s.markers.length

end State

end ChannelWatch.Cache
