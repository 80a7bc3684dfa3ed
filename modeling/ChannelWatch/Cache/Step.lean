import ChannelWatch.Cache.State

/-!
# Steps of the cache

`State.step?` is the smallest thing that can happen in the cache: a call looks, registers or looks again, a download does
one thing to the directory, the pool or its marker, a sweep looks at one file or removes it, time passes. A step that is
not possible in a state gives `none`; the steps of different calls, downloads and sweeps may follow each other in any
order.

A registered download is a task of its own. When the task first runs, which may be later than that of a download registered after it,
it asks for a permit; permits are given out in the order in which they were asked for.

A download writes to a temporary file next to the final one and then renames it. However it ends, its permit goes back
first, then its marker goes, and then those who wait for it are told; only a source that crashes leaves the temporary
file behind.
-/

namespace ChannelWatch.Cache

/-- Something that can happen. Numbers are the places of downloads, calls and sweeps. -/
inductive Event
  | tick (nanos : Nat)
  | close
  | call (purpose : Purpose) (url : String)
  | register (call : Nat)
  | proceed (call : Nat)
  | lookAgain (call : Nat)
  | queue (download : Nat)
  | abandon (download : Nat)
  | acquire (download : Nat)
  | create (download : Nat)
  | ask (download : Nat)
  | write (download : Nat) (bytes : List UInt8)
  | deliver (download : Nat)
  | fail (download : Nat)
  | crash (download : Nat)
  | rename (download : Nat)
  | clean (download : Nat)
  | release (download : Nat)
  | unmark (download : Nat)
  | signal (download : Nat)
  | sweep
  | takeTime (sweep : Nat)
  | inspect (sweep : Nat)
  | remove (sweep : Nat)

namespace State

/-- A call begins with a look: a fresh file answers it at once, and no image needs no look. -/
def beginCall (p : Policy) (s : State) (purpose : Purpose) (url : String) : State :=
  let secured := Link.secure url
  let settled (ref : ImageRef) : Stage := match purpose with
    | .resolve => .answered ref
    | .preload => .finished
  let stage :=
    if url.isEmpty then settled .missing
    else if s.look p secured = .fresh then settled (.fresh (p.localRef secured))
    else .looked
  { s with calls := s.calls ++ [⟨purpose, secured, stage⟩] }

/-- A new download is spawned and marked. -/
def spawn (s : State) (url : String) : State :=
  { s with
    downloads := s.downloads ++ [⟨url, .spawned⟩]
    markers := (url, s.downloads.length) :: s.markers }

/-- A call that has looked joins the download in flight for its image, or begins one. -/
def register? (s : State) (c : Nat) : Option State :=
  match s.calls[c]? with
  | some ⟨purpose, url, .looked⟩ =>
    match s.marker? url, purpose with
    | some d, .resolve => some (s.setStage c (.waiting d))
    | some _, .preload => some (s.setStage c .finished)
    | none, .resolve => some ((s.spawn url).setStage c .ready)
    | none, .preload => some ((s.spawn url).setStage c .finished)
  | _ => none

/-- A waiting call goes on once it has been told that its download is over. -/
def proceed? (s : State) (c : Nat) : Option State :=
  match s.calls[c]? with
  | some ⟨_, _, .waiting d⟩ =>
    match s.phase? d with
    | some phase => if phase.isDone then some (s.setStage c .ready) else none
    | none => none
  | _ => none

/-- A call looks again and is answered with what it finds. -/
def lookAgain? (p : Policy) (s : State) (c : Nat) : Option State :=
  match s.calls[c]? with
  | some ⟨_, url, .ready⟩ => some (s.setStage c (.answered (p.refer url (s.look p url))))
  | _ => none

/-- A download asks for a permit and goes to the end of the line. -/
def queue? (s : State) (d : Nat) : Option State :=
  match s.phase? d with
  | some .spawned => some { s.setPhase d .queued with line := s.line ++ [d] }
  | _ => none

/-- A queued download gives up because the pool is closed. -/
def abandon? (s : State) (d : Nat) : Option State :=
  match s.phase? d with
  | some .queued =>
    if s.closed then some { s.setPhase d .released with line := s.line.filter (· ≠ d) } else none
  | _ => none

/-- The first download of the line gets a free permit. -/
def acquire? (s : State) (d : Nat) : Option State :=
  match s.phase? d, s.line, s.free with
  | some .queued, first :: line, free + 1 =>
    if first = d ∧ s.closed = false then some { s.setPhase d .admitted with free := free, line := line } else none
  | _, _, _ => none

/-- A download opens its temporary file, or is over if it cannot. -/
def create? (s : State) (d : Nat) : Option State :=
  match s.downloads[d]? with
  | some ⟨url, .admitted⟩ =>
    match s.directory.create? s.freshFile s.clock (tempName (fileName url)) with
    | some (directory, file) =>
      some { s.setPhase d (.opened file) with directory := directory, freshFile := s.freshFile + 1 }
    | none => some (s.setPhase d .leaving)
  | _ => none

/-- A download asks the source for the image. -/
def ask? (s : State) (d : Nat) : Option State :=
  match s.downloads[d]? with
  | some ⟨url, .opened file⟩ => some { s.setPhase d (.fetching file []) with asked := s.asked ++ [url] }
  | _ => none

/-- The source writes some more bytes. -/
def write? (s : State) (d : Nat) (bytes : List UInt8) : Option State :=
  match s.phase? d with
  | some (.fetching file body) => some {
      s.setPhase d (.fetching file (body ++ bytes)) with
      directory := s.directory.write file body.length bytes s.clock }
  | _ => none

/-- The source has delivered the whole image, and the temporary file is closed. -/
def deliver? (s : State) (d : Nat) : Option State :=
  match s.downloads[d]? with
  | some ⟨url, .fetching _ body⟩ =>
    some { s.setPhase d (.fetched body) with delivered := s.delivered ++ [(url, body)] }
  | _ => none

/-- The source fails, or the temporary file cannot be brought to the disk. -/
def fail? (s : State) (d : Nat) : Option State :=
  match s.phase? d with
  | some (.fetching _ _) => some (s.setPhase d .cleaning)
  | _ => none

/-- The source crashes: nobody is left to remove the temporary file. -/
def crash? (s : State) (d : Nat) : Option State :=
  match s.phase? d with
  | some (.fetching _ _) => some (s.setPhase d .leaving)
  | _ => none

/-- The temporary file becomes the image's file, or is to be removed if it cannot. -/
def rename? (s : State) (d : Nat) : Option State :=
  match s.downloads[d]? with
  | some ⟨url, .fetched _⟩ =>
    match s.directory.rename? (tempName (fileName url)) (fileName url) with
    | some directory => some { s.setPhase d .leaving with directory := directory }
    | none => some (s.setPhase d .cleaning)
  | _ => none

/-- The temporary file of a failed download is removed if it is there. -/
def clean? (s : State) (d : Nat) : Option State :=
  match s.downloads[d]? with
  | some ⟨url, .cleaning⟩ => some {
      s.setPhase d .leaving with
      directory := (s.directory.removeFile? (tempName (fileName url))).getD s.directory }
  | _ => none

/-- A download gives its permit back. -/
def release? (s : State) (d : Nat) : Option State :=
  match s.phase? d with
  | some .leaving => some { s.setPhase d .released with free := s.free + 1 }
  | _ => none

/-- A download removes the marker of its image. -/
def unmark? (s : State) (d : Nat) : Option State :=
  match s.downloads[d]? with
  | some ⟨url, .released⟩ => some { s.setPhase d .unmarked with markers := s.markers.filter (·.1 ≠ url) }
  | _ => none

/-- Those who wait for a download are told that it is over. -/
def signal? (s : State) (d : Nat) : Option State :=
  match s.phase? d with
  | some .unmarked => some (s.setPhase d .ended)
  | _ => none

/-- A sweep lists the directory. -/
def beginSweep (s : State) : State :=
  let stage : SweepStage := match s.directory.list with
    | .ok names => .listed names
    | .error fault => .refused fault
  { s with sweeps := s.sweeps ++ [⟨stage, ⟨0, 0⟩⟩] }

/-- A sweep takes the time. -/
def takeTime? (s : State) (i : Nat) : Option State :=
  match s.sweeps[i]? with
  | some ⟨.listed names, report⟩ => some (s.setSweep i ⟨.going s.clock names, report⟩)
  | _ => none

/-- A file is expired if it is older than the time to live; one from the future has no age. -/
def isExpired (ttl : Nat) (now modified : Int) : Bool :=
  ttl < max 0 (now - modified)

/-- A sweep looks at the next name: an expired file is to be removed, anything else is passed over. -/
def inspect? (p : Policy) (s : State) (i : Nat) : Option State :=
  match s.sweeps[i]? with
  | some ⟨.going _ [], report⟩ => some (s.setSweep i ⟨.over, report⟩)
  | some ⟨.going now (name :: names), report⟩ =>
    match s.directory.file? name with
    | some f =>
      if isExpired p.ttl now f.modified then
        some (s.setSweep i ⟨.removing now names name f.content.length, report⟩)
      else some (s.setSweep i ⟨.going now names, report⟩)
    | none => some (s.setSweep i ⟨.going now names, report⟩)
  | _ => none

/-- A sweep removes the file it has found expired, if a file of that name is still there. -/
def remove? (s : State) (i : Nat) : Option State :=
  match s.sweeps[i]? with
  | some ⟨.removing now names name size, report⟩ =>
    match s.directory.removeFile? name with
    | some directory => some {
        s.setSweep i ⟨.going now names, ⟨report.files + 1, report.bytes + size⟩⟩ with directory := directory }
    | none => some (s.setSweep i ⟨.going now names, report⟩)
  | _ => none

/-- The state after an event, if it is possible. -/
def step? (p : Policy) (s : State) : Event → Option State
  | .tick nanos => some { s with clock := s.clock + nanos }
  | .close => some { s with closed := true }
  | .call purpose url => some (s.beginCall p purpose url)
  | .register c => s.register? c
  | .proceed c => s.proceed? c
  | .lookAgain c => s.lookAgain? p c
  | .queue d => s.queue? d
  | .abandon d => s.abandon? d
  | .acquire d => s.acquire? d
  | .create d => s.create? d
  | .ask d => s.ask? d
  | .write d bytes => s.write? d bytes
  | .deliver d => s.deliver? d
  | .fail d => s.fail? d
  | .crash d => s.crash? d
  | .rename d => s.rename? d
  | .clean d => s.clean? d
  | .release d => s.release? d
  | .unmark d => s.unmark? d
  | .signal d => s.signal? d
  | .sweep => some s.beginSweep
  | .takeTime i => s.takeTime? i
  | .inspect i => s.inspect? p i
  | .remove i => s.remove? i

/-- The state after a list of events, if each is possible in its turn. -/
def steps? (p : Policy) : State → List Event → Option State
  | s, [] => some s
  | s, e :: es => (s.step? p e).bind fun next => steps? p next es

/-- The state after those of a list of events that are possible in their turn. -/
def attempt (p : Policy) : State → List Event → State
  | s, [] => s
  | s, e :: es => attempt p ((s.step? p e).getD s) es

end State

end ChannelWatch.Cache
