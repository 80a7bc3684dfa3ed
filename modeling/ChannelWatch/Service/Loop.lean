/-!
# Loops

A loop runs a cycle at once and then one in every interval, until it is cancelled. The next tick is due one interval after
the last one was taken, so that a late tick delays those that follow. Times are whole seconds. Where a tick is due and the
loop is cancelled, either may be seen first.
-/

namespace ChannelWatch

/-- How a refresh cycle ended. -/
inductive CycleOutcome
  | full
  | partly
  | failed
  deriving DecidableEq

/-- The name of an outcome. -/
def CycleOutcome.name : CycleOutcome → String
  | full => "ok"
  | partly => "partial"
  | failed => "failed"

/-- Where a loop stands. -/
inductive LoopPhase
  | waiting
  | cycling
  | ended
  deriving DecidableEq

/-- A loop: the time, when its next tick is due, and when its cycles began and how they ended. -/
structure Loop where
  interval : Nat
  now : Nat
  due : Nat
  phase : LoopPhase
  cancelled : Bool
  begun : List Nat
  outcomes : List CycleOutcome
  deriving DecidableEq

namespace Loop

/-- A loop that begins now: its first tick is due at once. An interval of zero makes it crash. -/
def start? (interval now : Nat) (cancelled : Bool) : Option Loop :=
  if interval = 0 then none
  else some {
    interval := interval
    now := now
    due := now
    phase := .waiting
    cancelled := cancelled
    begun := []
    outcomes := [] }

/-- Something that can happen to a loop. -/
inductive Event
  | pass (seconds : Nat)
  | begin
  | finish (outcome : CycleOutcome)
  | cancel
  | stop
  deriving DecidableEq

/-- The next tick is due. -/
def isDue (l : Loop) : Bool :=
  l.due ≤ l.now

/-- The loop after an event, if it is possible: a cycle begins with a tick that is due, however the one before ended, and
a cancelled loop stops between cycles. -/
def step? (l : Loop) : Event → Option Loop
  | .pass seconds => some { l with now := l.now + seconds }
  | .begin =>
    if l.phase = .waiting ∧ l.isDue then
      some { l with phase := .cycling, due := l.now + l.interval, begun := l.begun ++ [l.now] }
    else none
  | .finish outcome =>
    if l.phase = .cycling then some { l with phase := .waiting, outcomes := l.outcomes ++ [outcome] } else none
  | .cancel => some { l with cancelled := true }
  | .stop => if l.phase = .waiting ∧ l.cancelled then some { l with phase := .ended } else none

/-- The loop after a list of events, if each is possible in its turn. -/
def steps? : Loop → List Event → Option Loop
  | l, [] => some l
  | l, e :: es => (l.step? e).bind fun next => steps? next es

/-- How long the loop still waits for its next tick. -/
def remaining (l : Loop) : Nat :=
  l.due - l.now

/-- A cycle of some length that begins now, and the wait for the next tick. -/
def cycle? (l : Loop) (seconds : Nat) (outcome : CycleOutcome) : Option Loop :=
  (l.steps? [.begin, .pass seconds, .finish outcome]).bind fun l => l.step? (.pass l.remaining)

/-- Cycles of some lengths, one after another, each as soon as its tick is due. -/
def cycles? : Loop → List (Nat × CycleOutcome) → Option Loop
  | l, [] => some l
  | l, (seconds, outcome) :: rest => (l.cycle? seconds outcome).bind fun next => cycles? next rest

end Loop

end ChannelWatch
