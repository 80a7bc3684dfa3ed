import ChannelWatch.Cache.Step

/-!
# Running to rest

A cache at rest has done all that it can do by itself: what is left waits for the source. `settle` takes a cache there
with a source whose replies are known: every download goes on in the order of registration as far as the source, then
those that the source lets through are served one after another, and at last the calls that have waited look again.
-/

namespace ChannelWatch.Cache

/-- How the source ends its work on an image. -/
inductive SourceEnding
  | whole
  | failure
  | crash
  deriving DecidableEq

/-- What the source does for an image: it writes some bytes and ends. -/
structure Reply where
  bytes : List UInt8
  ending : SourceEnding
  deriving DecidableEq

/-- The event with which the source ends its work on a download. -/
def SourceEnding.event (download : Nat) : SourceEnding → Event
  | whole => .deliver download
  | failure => .fail download
  | crash => .crash download

/-- How many downloads the source will still let through: all of them, or a number that grows when it is told so. -/
inductive Gate
  | unguarded
  | counted (permits : Nat)
  deriving DecidableEq

namespace Gate

/-- The gate after it has let a download through. -/
def pass? : Gate → Option Gate
  | unguarded => some unguarded
  | counted (permits + 1) => some (counted permits)
  | counted 0 => none

/-- The gate after it was told to let more downloads through. -/
def grant (n : Nat) : Gate → Gate
  | unguarded => unguarded
  | counted permits => counted (permits + n)

end Gate

/-- What a download does before it needs the source's reply. -/
def approach (download : Nat) : List Event :=
  [.queue download, .abandon download, .acquire download, .create download, .ask download]

/-- What a download does when it no longer needs the source. -/
def depart (download : Nat) : List Event :=
  [.rename download, .clean download, .release download, .unmark download, .signal download]

/-- What a download and the source do when the source replies. -/
def serve (download : Nat) (reply : Reply) : List Event :=
  .write download reply.bytes :: reply.ending.event download :: depart download

/-- What a waiting call does when its download is over. -/
def conclude (call : Nat) : List Event :=
  [.proceed call, .lookAgain call]

namespace State

/-- Every download goes on as far as it can without a reply, in the order of registration. -/
def advance (p : Policy) (s : State) : State :=
  s.attempt p ((List.range s.downloads.length).flatMap fun d => approach d ++ depart d)

/-- The first download that waits for the source's reply, with the URL it has asked for. -/
def firstAsking? (s : State) : Option (Nat × String) :=
  (s.downloads.zipIdx.find? fun x => match x.1.phase with
    | .fetching _ _ => true
    | _ => false).map fun x => (x.2, x.1.url)

/-- Downloads are served one after another while the gate lets them through, at most `rounds` of them. -/
def serveAll (p : Policy) (reply : String → Reply) : Nat → Gate → State → Gate × State
  | 0, gate, s => (gate, s.advance p)
  | rounds + 1, gate, s =>
    let s := s.advance p
    match s.firstAsking?, gate.pass? with
    | some (d, url), some gate => serveAll p reply rounds gate (s.attempt p (serve d (reply url)))
    | _, _ => (gate, s)

/-- The cache at rest, and what is left of the gate: each download is served once at most. -/
def settle (p : Policy) (reply : String → Reply) (gate : Gate) (s : State) : Gate × State :=
  let (gate, s) := s.serveAll p reply s.downloads.length gate
  (gate, s.attempt p ((List.range s.calls.length).flatMap conclude))

/-- Calls for some URLs are made at once: all look, then all register, and those that need not wait look again. The
places of the calls are given too. -/
def callAll (p : Policy) (s : State) (purpose : Purpose) (urls : List String) : List Nat × State :=
  let places := (List.range urls.length).map (s.calls.length + ·)
  (places, s.attempt p (urls.map (.call purpose) ++ places.map .register ++ places.map .lookAgain))

/-- The answer that a call has got. -/
def answer? (s : State) (call : Nat) : Option ImageRef :=
  match s.calls[call]? with
  | some ⟨_, _, .answered ref⟩ => some ref
  | _ => none

/-- A sweep from its beginning to its end: what it has removed, or why it could not list the directory. -/
def sweepAll (p : Policy) (s : State) : Except IoFault SweepReport × State :=
  let i := s.sweeps.length
  let names := s.directory.entries.length
  let s := s.attempt p (.sweep :: .takeTime i :: (List.replicate names [.inspect i, .remove i]).flatten ++ [.inspect i])
  (match s.sweeps[i]? with
    | some ⟨.refused fault, _⟩ => .error fault
    | some ⟨_, report⟩ => .ok report
    | none => .ok ⟨0, 0⟩, s)

end State

end ChannelWatch.Cache
