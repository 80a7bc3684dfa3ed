import ChannelWatch.Fault

/-!
# Fetch jobs

A job runs a list of tasks with a limited number of workers and gives one outcome per task, in the order of the tasks. A
task that crashes has a fault for its outcome and harms no other. Only a job without tasks or without workers fails as a
whole, before any task has begun.

`Run` follows a job while its tasks begin and end: they begin in order, as workers are free, and end in any order.
-/

namespace ChannelWatch.Runner

/-- How a task ends. -/
inductive Ending (α : Type)
  | value (a : α)
  | fault (f : Fault)
  | crash

/-- A task: how long it takes, in seconds, and how it ends. -/
structure Task (α : Type) where
  duration : Nat
  ending : Ending α

/-- The outcome that a task's ending gives. -/
def Ending.outcome {α : Type} : Ending α → Except Fault α
  | value a => .ok a
  | fault f => .error f
  | crash => .error (.taskFailed "task panicked")

/-- What keeps a job from being dispatched: having no tasks comes first. -/
def dispatchFault? {α : Type} (workers : Nat) (tasks : List α) : Option Fault :=
  if tasks.isEmpty then some .emptyJob
  else if workers = 0 then some (.config "fetch job needs at least one worker" (some "workers"))
  else none

/-- How many tasks of a job may run at once. -/
def slots (workers total : Nat) : Nat :=
  min workers total

/-- The outcomes of a job's tasks, in the order of the tasks. -/
def execute {α : Type} (workers : Nat) (tasks : List (Task α)) : Except Fault (List (Except Fault α)) :=
  match dispatchFault? workers tasks with
  | some f => .error f
  | none => .ok (tasks.map (·.ending.outcome))

/-- A job in the middle of its run: the tasks that wait, each with its place, the tasks that run, the outcomes so far and
the permits that are free. -/
structure Run (α : Type) where
  waiting : List (Nat × Task α)
  running : List (Nat × Task α)
  outcomes : List (Option (Except Fault α))
  free : Nat

/-- What may happen next in a run. -/
inductive Event
  | start
  | finish (place : Nat)

/-- A job that has just been dispatched. -/
def Run.initial {α : Type} (workers : Nat) (tasks : List (Task α)) : Run α where
  waiting := (List.range tasks.length).zip tasks
  running := []
  outcomes := List.replicate tasks.length none
  free := slots workers tasks.length

/-- The run after an event: the first waiting task begins, or a running task ends, fills its place and gives its permit
back. -/
def Run.step? {α : Type} (r : Run α) : Event → Option (Run α)
  | .start =>
    match r.waiting, r.free with
    | t :: rest, free + 1 => some { r with waiting := rest, running := t :: r.running, free := free }
    | _, _ => none
  | .finish place =>
    match r.running.find? (·.1 = place) with
    | some t => some {
        r with
        running := r.running.filter (·.1 ≠ place)
        outcomes := r.outcomes.set place (some t.2.ending.outcome)
        free := r.free + 1 }
    | none => none

/-- The run after a list of events. -/
def Run.steps? {α : Type} : Run α → List Event → Option (Run α)
  | r, [] => some r
  | r, e :: es => (r.step? e).bind (·.steps? es)

/-- Every task has ended. -/
def Run.isOver {α : Type} (r : Run α) : Bool :=
  r.waiting.isEmpty && r.running.isEmpty

end ChannelWatch.Runner
