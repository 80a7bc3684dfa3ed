import ChannelWatch.Scenario.Script
import ChannelWatch.Service.Loop
import ChannelWatch.Service.Start
import ChannelWatch.Service.Step

/-!
# Scenarios

A service in a world of its own: a network, a scripted image source behind a gate, a cache directory, and the loops in the
background that have been started. `Scenario.rest` lets everything happen that can happen by itself.
-/

namespace ChannelWatch

/-- What a loop does in its cycles. -/
inductive LoopKind
  | refresh
  | sweep
  deriving DecidableEq

/-- A loop in the background. A running refresh cycle is the update with the given place. -/
inductive Background
  | crashed
  | active (kind : LoopKind) (loop : Loop) (update : Nat)

/-- A service and the world around it. `spawned` names calls that were left waiting; `loops` holds the loops in the order
in which they were started, `outcomes` how the refresh cycles of all of them ended; `told` says that the end of the last
loop has been told. -/
structure Scenario where
  service : Service
  network : Http.Network
  gate : Cache.Gate
  script : Script
  spawned : List (String × Nat)
  loops : List Background
  outcomes : List CycleOutcome
  cancelled : Bool
  told : Bool

namespace Scenario

/-- A scenario that begins, with the cache directory made if it can be: none if the cache cannot be built. -/
def begin? (videos : VideoSettings) (cache : Option CacheSettings) (directory : Cache.Directory) (network : Http.Network)
    (gate : Cache.Gate) (script : Script) (clock : Int) : Option Scenario :=
  match Service.build videos cache (directory.ensured clock) clock with
  | .ready service => some {
      service := service
      network := network
      gate := gate
      script := script
      spawned := []
      loops := []
      outcomes := []
      cancelled := false
      told := false }
  | .refused _ => none
  | .crashed => none

/-- The cache runs to rest. -/
def settle (s : Scenario) : Scenario :=
  match s.service.cache with
  | none => s
  | some c =>
    let (gate, state) := c.state.settle c.policy s.script.reply s.gate
    { s with gate := gate, service := s.service.setCache state }

/-- Updates whose images have been looked up are completed. -/
def completeUpdates (s : Scenario) : Scenario :=
  { s with service := s.service.attempt ((List.range s.service.updates.length).flatMap Service.complete) }

/-- The outcome of a refresh cycle. -/
def outcome : Except Fault Snapshot → CycleOutcome
  | .ok snapshot => if 0 < snapshot.failedSources then .partly else .full
  | .error _ => .failed

end Scenario

/-- The loop after an event, if that is possible. -/
def Background.after (e : Loop.Event) : Background → Background
  | crashed => crashed
  | active kind loop update => active kind ((loop.step? e).getD loop) update

namespace Scenario

/-- The scenario with all its loops after an event. -/
def loopEvent (s : Scenario) (e : Loop.Event) : Scenario :=
  { s with loops := s.loops.map (Background.after e) }

/-- The scenario with the loop at another place. -/
def setLoop (s : Scenario) (i : Nat) (b : Background) : Scenario :=
  { s with loops := s.loops.set i b }

/-- The cycle of a loop ends when its update is over. -/
def endCycle (s : Scenario) (i : Nat) : Scenario :=
  match s.loops[i]? with
  | some (.active .refresh loop update) =>
    match (s.service.updates[update]?).bind Update.result? with
    | some result =>
      match loop.step? (.finish (outcome result)) with
      | some loop =>
        { s.setLoop i (.active .refresh loop update) with outcomes := s.outcomes ++ [outcome result] }
      | none => s
    | none => s
  | _ => s

/-- A sweep of the cache: what it has removed, or why it could not; nothing without a cache. -/
def sweep (s : Scenario) : Option (Except IoFault Cache.SweepReport) × Scenario :=
  match s.service.cache with
  | none => (none, s)
  | some c =>
    let (result, state) := c.state.sweepAll c.policy
    (some result, { s with service := s.service.setCache state })

/-- What a loop that has begun a cycle does in it. A sweep is over at once, and however it ends the loop goes on. -/
def runCycle (s : Scenario) (i : Nat) (kind : LoopKind) (loop : Loop) : Scenario :=
  match kind with
  | .refresh =>
    { s.setLoop i (.active .refresh loop s.service.updates.length) with service := s.service.beginUpdate s.network }
  | .sweep =>
    let (result, s) := s.sweep
    let finish := Loop.Event.finish (match result with
      | some (.error _) => .failed
      | _ => .full)
    s.setLoop i ((Background.active .sweep loop 0).after finish)

/-- A loop that waits stops if it is cancelled, or runs a cycle if a tick is due. -/
def turn (s : Scenario) (i : Nat) : Scenario :=
  match s.loops[i]? with
  | some (.active kind loop update) =>
    match loop.step? .stop, loop.step? .begin with
    | some ended, _ => s.setLoop i (.active kind ended update)
    | none, some begun => s.runCycle i kind begun
    | none, none => s
  | _ => s

/-- The loops do something one after another, in the order in which they were started. -/
def inTurn (s : Scenario) (act : Scenario → Nat → Scenario) : Scenario :=
  (List.range s.loops.length).foldl act s

/-- Downloads, calls, updates and running cycles go on as far as they can. -/
def proceed (s : Scenario) : Scenario :=
  s.settle.completeUpdates.inTurn endCycle

/-- Everything happens that can happen by itself: each loop begins at most one cycle. -/
def rest (s : Scenario) : Scenario :=
  (s.proceed.inTurn turn).proceed

end Scenario

end ChannelWatch
