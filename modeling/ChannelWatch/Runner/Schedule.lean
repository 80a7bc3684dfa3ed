/-!
# Schedules

When the tasks of a job run, in seconds from its dispatch: each begins as soon as all before it have begun and a permit is
free. The permits that are out are known by the seconds at which they come back.
-/

namespace ChannelWatch.Runner

/-- When a task runs: it begins in second `start` and is over in second `stop`. -/
structure Span where
  start : Nat
  stop : Nat
  deriving DecidableEq

/-- The spans of the tasks with the given durations, for `permits` permits of which those in `out` come back at the given
seconds. -/
def place (permits : Nat) (out : List Nat) : List Nat → List Span
  | [] => []
  | duration :: rest =>
    if out.length < permits then ⟨0, duration⟩ :: place permits (duration :: out) rest
    else
      let start := out.min?.getD 0
      ⟨start, start + duration⟩ :: place permits ((start + duration) :: out.erase start) rest

/-- The spans of a job's tasks. -/
def spans (permits : Nat) (durations : List Nat) : List Span :=
  place permits [] durations

/-- How many tasks run in a second. -/
def runningAt (spans : List Span) (second : Nat) : Nat :=
  spans.countP fun s => s.start ≤ second && second < s.stop

/-- The largest number of tasks that run at once: it is reached when some task begins. -/
def peak (spans : List Span) : Nat :=
  ((spans.map fun s => runningAt spans s.start).max?).getD 0

end ChannelWatch.Runner
