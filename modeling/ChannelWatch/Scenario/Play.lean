import ChannelWatch.Cache.Tree
import ChannelWatch.Scenario.State

/-!
# Playing a scenario

A scenario is played as a list of actions, each with an answer. An action happens a moment after the one before it, then
the scenario comes to rest, and only then the answer is read.
-/

namespace ChannelWatch

/-- Something that is done in a scenario. Paths are relative to the cache directory, ages are seconds. -/
inductive Action
  | update
  | snapshot
  | request (method target : String)
  | resolve (url : String)
  | resolveAll (urls : List String)
  | preload (url : String)
  | spawn (name url : String)
  | join (name : String)
  | grant (permits : Nat)
  | sweep
  | put (path : String) (content : List UInt8) (age : Int)
  | makeDirectory (path : String) (age : Int)
  | remove (path : String)
  | removeAll
  | listFiles
  | counts
  | setScript (script : Script)
  | startLoop (kind : LoopKind) (interval : Nat)
  | advance (seconds : Nat)
  | cancel
  | listCycles
  | askLoop

/-- What the loop that was started last is found to do; its end is told once. -/
inductive LoopReport
  | none
  | running
  | stopped
  | crashed
  deriving DecidableEq

/-- The answer to an action. -/
inductive Answer
  | nothing
  | update (result : Option (Except Fault Snapshot))
  | snapshot (current : Option Snapshot)
  | response (r : Option Api.Response)
  | reference (ref : Option ImageRef)
  | references (refs : List (Option ImageRef))
  | waiting (isWaiting : Bool)
  | swept (result : Option (Except IoFault Cache.SweepReport))
  | done (isDone : Bool)
  | files (entries : Option (List (String × Cache.Entry)))
  | counts (inFlight : Option Nat) (asked : List String)
  | cycles (outcomes : List CycleOutcome)
  | loop (report : LoopReport)

namespace Scenario

/-- Calls for some URLs are made at once; their places are given too. -/
def call (s : Scenario) (purpose : Cache.Purpose) (urls : List String) : List Nat × Scenario :=
  match s.service.cache with
  | none => ([], s)
  | some c =>
    let (places, state) := c.state.callAll c.policy purpose urls
    (places, { s with service := s.service.setCache state })

/-- The answer that a call has got. -/
def answerOf (s : Scenario) (call : Nat) : Option ImageRef :=
  s.service.cache.bind (·.state.answer? call)

/-- The directory of the cache. -/
def directory (s : Scenario) : Cache.Directory :=
  (s.service.cache.map (·.state.directory)).getD .absent

/-- The scenario after a change to the directory from outside, which may bring one new file, and whether it could be
made. -/
def alterDirectory (s : Scenario) (change : Cache.State → Option Cache.Directory) : Answer × Scenario :=
  match s.service.cache with
  | none => (.done false, s)
  | some c =>
    match change c.state with
    | none => (.done false, s)
    | some directory =>
      let state := { c.state with directory := directory, freshFile := c.state.freshFile + 1 }
      (.done true, { s with service := s.service.setCache state })

/-- The time that lies an age in seconds back. -/
def past (now age : Int) : Int :=
  now - age * Cache.nanosPerSecond

/-- The entries of the cache directory in the order of their names, if it is there. -/
def files (s : Scenario) : Option (List (String × Cache.Entry)) :=
  match s.directory with
  | .present entries => some (entries.mergeSort fun a b => decide (a.1 ≤ b.1))
  | .absent => none
  | .obstructed => none

/-- The URLs that the source has been asked for, in order of their texts. -/
def asked (s : Scenario) : List String :=
  ((s.service.cache.map (·.state.asked)).getD []).mergeSort fun a b => decide (a ≤ b)

/-- What the loop that was started last does; its end is told once. -/
def askLoop (s : Scenario) : LoopReport × Scenario :=
  if s.told then (.none, s)
  else match s.loops.getLast? with
    | none => (.none, s)
    | some .crashed => (.crashed, { s with told := true })
    | some (.active _ loop _) => if loop.phase = .ended then (.stopped, { s with told := true }) else (.running, s)

/-- The scenario with one more loop, which has just been started. -/
def startLoop (s : Scenario) (kind : LoopKind) (interval : Nat) : Scenario :=
  let background := match Loop.start? interval 0 s.cancelled with
    | some loop => Background.active kind loop 0
    | none => .crashed
  { s with loops := s.loops ++ [background], told := false }

/-- An update runs as far as it can. -/
def runUpdate (s : Scenario) : Answer × Scenario :=
  let i := s.service.updates.length
  let s := { s with service := s.service.beginUpdate s.network }.rest
  (.update ((s.service.updates[i]?).bind Update.result?), s)

/-- A look-up is left in the background under a name. -/
def runSpawn (s : Scenario) (name url : String) : Answer × Scenario :=
  let (places, s) := s.call .resolve [url]
  let s := { s with spawned := places.map (fun c => (name, c)) ++ s.spawned }.rest
  (.waiting (places.any fun c => (s.answerOf c).isNone), s)

/-- Images are looked up at once. -/
def runResolve (s : Scenario) (urls : List String) : List (Option ImageRef) × Scenario :=
  let (places, s) := s.call .resolve urls
  let s := s.rest
  (places.map s.answerOf, s)

/-- The answer to an action, and the scenario at rest after it. -/
def perform (s : Scenario) : Action → Answer × Scenario
  | .update => s.runUpdate
  | .snapshot => (.snapshot s.service.snapshot, s)
  | .request method target => (.response (s.service.respond? method target), s)
  | .resolve url =>
    let (refs, s) := s.runResolve [url]
    (.reference refs.head?.join, s)
  | .resolveAll urls =>
    let (refs, s) := s.runResolve urls
    (.references refs, s)
  | .preload url => (.nothing, (s.call .preload [url]).2.rest)
  | .spawn name url => s.runSpawn name url
  | .join name => (.reference ((s.spawned.find? (·.1 = name)).bind fun x => s.answerOf x.2), s)
  | .grant permits => (.nothing, { s with gate := s.gate.grant permits }.rest)
  | .sweep =>
    let (result, s) := s.sweep
    (.swept result, s)
  | .put path content age => s.alterDirectory fun c =>
    c.directory.put? c.freshFile c.clock path content (past c.clock age)
  | .makeDirectory path age => s.alterDirectory fun c =>
    c.directory.makeDirectory? c.clock path (past c.clock age)
  | .remove path => s.alterDirectory fun c => c.directory.removeAt? c.clock path
  | .removeAll => s.alterDirectory fun c => c.directory.removeAll?
  | .listFiles => (.files s.files, s)
  | .counts => (.counts s.service.inFlight? s.asked, s)
  | .setScript script => (.nothing, { s with script := script })
  | .startLoop kind interval => (.nothing, (s.startLoop kind interval).rest)
  | .advance seconds => (.nothing, (s.loopEvent (.pass seconds)).rest)
  | .cancel => (.nothing, ({ s with cancelled := true }.loopEvent .cancel).rest)
  | .listCycles => (.cycles s.outcomes, s)
  | .askLoop =>
    let (report, s) := s.askLoop
    (.loop report, s)

/-- The answers to a list of actions, a nanosecond apart. -/
def play : Scenario → List Action → List Answer
  | _, [] => []
  | s, a :: rest =>
    let (answer, s) := { s with service := s.service.tick 1 }.perform a
    answer :: play s rest

end Scenario

end ChannelWatch
