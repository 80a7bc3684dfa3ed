import ChannelWatch.Proofs.Runner.Attribution
import ChannelWatch.Proofs.Runner.Spans
import Mathlib.Data.List.Nodup

/-!
# Jobs on a clock

A job on a clock (`Timed`) is a job's run together with the second it is in. The tasks begin in order, each of them ends in no
other second than that in which its duration is over, and a second passes only when nothing else can happen. The spans of a
job are what every such run does (`schedule_kept`): each task begins and ends in the seconds that its span names, whatever
the order of the events within a second, and whether the tasks succeed, fail or crash.

The invariant (`Timed.IsOnTime`) compares the second with the spans: those of the tasks that wait begin later, and those of
the tasks that run are over later. With it the number of tasks that run can be read from the spans
(`IsOnTime.runningAt_begun`), and the next task begins exactly when this number leaves a permit.
-/

namespace ChannelWatch.Runner

variable {α : Type} {workers : Nat} {tasks : List (Task α)}

/-- A job's run on a clock: the second it is in, and the seconds in which its tasks have begun and have ended, each with the
task's place. -/
structure Timed (α : Type) where
  run : Run α
  now : Nat
  begun : List (Nat × Nat)
  ended : List (Nat × Nat)

/-- What may happen next on a clock: something in the run, or a second passes. -/
inductive Tick
  | event (e : Event)
  | second

/-- The spans of a job's tasks. -/
def taskSpans (workers : Nat) (tasks : List (Task α)) : List Span :=
  Runner.spans (slots workers tasks.length) (tasks.map (·.duration))

/-- The second in which the last of the spans is over. -/
def lastStop (spans : List Span) : Nat :=
  (spans.map (·.stop)).max?.getD 0

namespace Timed

variable {c c' : Timed α} {tick : Tick} {ticks : List Tick}

/-- A job that is dispatched in second zero. -/
def dispatched (workers : Nat) (tasks : List (Task α)) : Timed α :=
  ⟨Run.initial workers tasks, 0, [], []⟩

/-- The task has run for its duration. -/
def isDue (c : Timed α) (t : Nat × Task α) : Bool :=
  c.begun.any fun b => b.1 = t.1 && b.2 + t.2.duration ≤ c.now

/-- The clock allows an event: a task ends when it is due. -/
def allows (c : Timed α) : Event → Bool
  | .start => true
  | .finish place => c.run.running.any fun t => t.1 = place && c.isDue t

/-- Nothing can happen in this second any more, and some task has not ended. -/
def isIdle (c : Timed α) : Bool :=
  (c.run.step? .start).isNone && c.run.running.all (!c.isDue ·) && !c.run.isOver

/-- The clock after a tick. -/
def step? (c : Timed α) : Tick → Option (Timed α)
  | .event e =>
    if c.allows e then
      (c.run.step? e).map fun r =>
        ⟨r, c.now, c.begun ++ (c.run.begins e).map (·, c.now), c.ended ++ e.ends.map (·, c.now)⟩
    else none
  | .second => if c.isIdle then some { c with now := c.now + 1 } else none

/-- The clock after a list of ticks. -/
def steps? : Timed α → List Tick → Option (Timed α)
  | c, [] => some c
  | c, tick :: ticks => (c.step? tick).bind (·.steps? ticks)

/-- Where the second stands between the spans of the tasks: the tasks begin in order, each as its span does, those that have
ended have done so as their spans do, and the spans of those that wait or run are still to begin or to be over. -/
structure IsOnTime (workers : Nat) (tasks : List (Task α)) (c : Timed α) : Prop where
  follows : c.run.Follows workers tasks
  order : c.begun.map (·.1) ++ c.run.waiting.map (·.1) = List.range tasks.length
  parts : (c.begun.map (·.1)).Perm (c.ended.map (·.1) ++ c.run.running.map (·.1))
  begun : ∀ b ∈ c.begun, ∃ s, (taskSpans workers tasks)[b.1]? = some s ∧ b.2 = s.start ∧ s.start ≤ c.now
  ended : ∀ b ∈ c.ended, ∃ s, (taskSpans workers tasks)[b.1]? = some s ∧ b.2 = s.stop ∧ s.stop ≤ c.now
  running : ∀ t ∈ c.run.running, ∃ s, (taskSpans workers tasks)[t.1]? = some s ∧ c.now ≤ s.stop
  waiting : ∀ t ∈ c.run.waiting, ∃ s, (taskSpans workers tasks)[t.1]? = some s ∧ c.now ≤ s.start
  early : c.now = 0 ∨ ∃ s ∈ taskSpans workers tasks, c.now ≤ s.stop

/-- What a job on a clock has done after some ticks: no more tasks run than there are permits, those that have begun are the
first ones and have begun in order, each in the second in which its span begins, and those that have ended have done so in
the seconds in which their spans are over. Until every task has ended something can happen, and it does after finitely many
ticks. -/
structure Keeps (workers : Nat) (tasks : List (Task α)) (ticks : List Tick) (c : Timed α) : Prop where
  width : c.run.running.length ≤ min workers tasks.length
  begun : c.begun = (List.range c.begun.length).zip ((taskSpans workers tasks).map (·.start))
  ended : ∀ b ∈ c.ended, b ∈ (List.range tasks.length).zip ((taskSpans workers tasks).map (·.stop))
  onward : c.run.isOver = false → ∃ tick c', c.step? tick = some c'
  bounded : ticks.length ≤ 2 * tasks.length + lastStop (taskSpans workers tasks)
  complete : c.run.isOver → c.begun = (List.range tasks.length).zip ((taskSpans workers tasks).map (·.start)) ∧
    c.ended.Perm ((List.range tasks.length).zip ((taskSpans workers tasks).map (·.stop)))

theorem event_eq_some_iff {e : Event} : c.step? (.event e) = some c' ↔ c.allows e ∧ ∃ r, c.run.step? e = some r ∧
    c' = ⟨r, c.now, c.begun ++ (c.run.begins e).map (·, c.now), c.ended ++ e.ends.map (·, c.now)⟩ := by
  simp only [step?, Option.ite_none_right_eq_some, Option.map_eq_some_iff, eq_comm (a := c')]

theorem second_eq_some_iff : c.step? .second = some c' ↔ c.isIdle ∧ c' = { c with now := c.now + 1 } := by
  simp only [step?, Option.ite_none_right_eq_some, Option.some_inj, eq_comm (a := c')]

theorem isIdle_iff : c.isIdle ↔
    c.run.step? .start = none ∧ (∀ t ∈ c.run.running, c.isDue t = false) ∧ c.run.isOver = false := by
  simp [isIdle, and_assoc]

theorem isDue_iff {t : Nat × Task α} :
    c.isDue t ↔ ∃ b ∈ c.begun, b.1 = t.1 ∧ b.2 + t.2.duration ≤ c.now := by
  simp [isDue]

/-- Until every task has ended, something can happen: a task begins, one that is due ends, or a second passes. -/
theorem onward (hover : c.run.isOver = false) : ∃ tick c', c.step? tick = some c' := by
  cases hstart : c.run.step? .start with
  | some r => exact ⟨.event .start, _, event_eq_some_iff.mpr ⟨rfl, r, hstart, rfl⟩⟩
  | none =>
    by_cases hdue : ∃ t ∈ c.run.running, c.isDue t
    · obtain ⟨t, ht, hdue⟩ := hdue
      have hallow : c.allows (.finish t.1) := List.any_eq_true.mpr ⟨t, ht, by simp [hdue]⟩
      obtain ⟨x, hx⟩ := Option.isSome_iff_exists.mp
        (List.find?_isSome.mpr ⟨t, ht, decide_eq_true rfl⟩ : (c.run.running.find? (·.1 = t.1)).isSome)
      exact ⟨.event (.finish t.1), _, event_eq_some_iff.mpr ⟨hallow, _, Run.finish_eq_some_iff.mpr ⟨x, hx, rfl⟩, rfl⟩⟩
    · have hidle : c.isIdle := isIdle_iff.mpr ⟨hstart, fun t ht => by simpa using fun hd => hdue ⟨t, ht, hd⟩, hover⟩
      exact ⟨.second, _, second_eq_some_iff.mpr ⟨hidle, rfl⟩⟩

/-- Each tick of the clock is one event less to come, or one second more. -/
theorem length_le (hs : c.steps? ticks = some c') : ticks.length + c'.run.left + c.now ≤ c.run.left + c'.now := by
  induction ticks generalizing c with
  | nil =>
    obtain rfl := Option.some.inj hs
    simp
  | cons tick ticks ih =>
    obtain ⟨m, hm, hticks⟩ := Option.bind_eq_some_iff.mp hs
    have hrest := ih hticks
    rw [List.length_cons]
    cases tick with
    | event e =>
      obtain ⟨-, r, hr, rfl⟩ := event_eq_some_iff.mp hm
      have := Run.left_step hr
      dsimp only at hrest
      omega
    | second =>
      obtain ⟨-, rfl⟩ := second_eq_some_iff.mp hm
      dsimp only at hrest
      omega

end Timed

/-- The first part of a list of numbers in order is itself one, and all numbers of the other part come later. -/
theorem range_of_append {l₁ l₂ : List Nat} {n : Nat} (h : l₁ ++ l₂ = List.range n) :
    l₁ = List.range l₁.length ∧ ∀ x ∈ l₂, l₁.length ≤ x := by
  have hlen : l₁.length ≤ n := by
    have := congrArg List.length h
    rw [List.length_append, List.length_range] at this
    omega
  have hfirst : l₁ = List.range l₁.length := by
    have htake := congrArg (List.take l₁.length) h
    rwa [List.take_left, List.take_range, Nat.min_eq_left hlen] at htake
  refine ⟨hfirst, fun x hx => Nat.le_of_not_lt fun hlt => ?_⟩
  have hnodup : (l₁ ++ l₂).Nodup := h ▸ List.nodup_range
  have hmem : x ∈ l₁ := by
    rw [hfirst]
    exact List.mem_range.mpr hlt
  exact (List.nodup_append.mp hnodup).2.2 x hmem x hx rfl

/-- The keys of pairs that all have the same second component. -/
theorem map_fst_pair (l : List Nat) (now : Nat) : (l.map (·, now)).map (·.1) = l := by
  rw [List.map_map]
  exact List.map_id l

/-- A list of pairs whose keys are the first numbers, and whose values are those of another list at their keys, is the first
part of that list with its places. -/
theorem eq_zip_of_keys {l : List (Nat × Nat)} {values : List Nat} (hkeys : l.map (·.1) = List.range l.length)
    (hvalues : ∀ b ∈ l, values[b.1]? = some b.2) : l = (List.range l.length).zip values := by
  have hkey : ∀ (i : Nat) (b : Nat × Nat), l[i]? = some b → b.1 = i := fun i b hb => by
    have hget : (List.range l.length)[i]? = some b.1 := by
      rw [← hkeys, List.getElem?_map, hb]
      rfl
    obtain ⟨_, hval⟩ := List.getElem?_eq_some_iff.mp hget
    rw [← hval, List.getElem_range]
  refine List.ext_getElem? fun i => Option.ext fun b => ?_
  rw [List.getElem?_zip_eq_some]
  constructor
  · intro hb
    have hi := hkey i b hb
    have hlt := (List.getElem?_eq_some_iff.mp hb).1
    refine ⟨?_, hi ▸ hvalues b (List.mem_of_getElem? hb)⟩
    rw [List.getElem?_range hlt, hi]
  · rintro ⟨hrange, hval⟩
    have hlt : i < l.length := by
      have := (List.getElem?_eq_some_iff.mp hrange).1
      rwa [List.length_range] at this
    have hb := List.getElem?_eq_getElem hlt
    have hi := hkey i _ hb
    have hvals := hvalues _ (List.mem_of_getElem? hb)
    rw [List.getElem?_range hlt] at hrange
    rw [hi, hval] at hvals
    rw [hb]
    exact congrArg some (Prod.ext (hi.trans (Option.some.inj hrange)) (Option.some.inj hvals).symm)

/-- No span is over after the last. -/
theorem stop_le_lastStop {spans : List Span} {s : Span} (hs : s ∈ spans) : s.stop ≤ lastStop spans := by
  have hmem : s.stop ∈ spans.map (·.stop) := List.mem_map_of_mem hs
  obtain ⟨last, hlast⟩ := Option.ne_none_iff_exists'.mp fun hnone =>
    List.ne_nil_of_mem hmem (List.max?_eq_none_iff.mp hnone)
  rw [lastStop, hlast, Option.getD_some]
  exact (List.max?_eq_some_iff.mp hlast).2 _ hmem

/-- How many of the first tasks run in a second can be counted over their places. -/
theorem runningAt_take (spans : List Span) (k second : Nat) : runningAt (spans.take k) second =
    (List.range k).countP fun place => (spans[place]?).any fun s => s.start ≤ second && second < s.stop := by
  induction k with
  | zero => rfl
  | succ k ih =>
    rw [List.take_add_one, runningAt_append, ih, List.range_succ, List.countP_append, List.countP_singleton]
    cases spans[k]? with
    | none => rfl
    | some s =>
      rw [Option.toList_some, runningAt_singleton]
      simp

theorem length_taskSpans (workers : Nat) (tasks : List (Task α)) : (taskSpans workers tasks).length = tasks.length := by
  rw [taskSpans, length_spans, List.length_map]

theorem stop_taskSpans {place : Nat} {t : Task α} {s : Span} (ht : tasks[place]? = some t)
    (hs : (taskSpans workers tasks)[place]? = some s) : s.stop = s.start + t.duration :=
  stop_spans (by rw [List.getElem?_map, ht]; rfl) hs

/-- The spans of a job with permits are each the next after those before it. -/
theorem successive_taskSpans (hslots : slots workers tasks.length ≠ 0) :
    Successive (slots workers tasks.length) (taskSpans workers tasks) :=
  successive_spans hslots _

theorem slots_ne_zero (hw : workers ≠ 0) (hne : tasks ≠ []) : slots workers tasks.length ≠ 0 := by
  have := List.length_pos_iff.mpr hne
  rw [slots]
  omega

namespace Timed.IsOnTime

variable {c c' : Timed α} {tick : Tick} {ticks : List Tick}

/-- The clock starts in time. -/
theorem dispatched (workers : Nat) (tasks : List (Task α)) :
    (Timed.dispatched workers tasks).IsOnTime workers tasks where
  follows := Run.Follows.initial workers tasks
  order := List.map_fst_zip (Nat.le_of_eq List.length_range)
  parts := List.Perm.refl _
  begun := fun b hb => absurd hb List.not_mem_nil
  ended := fun b hb => absurd hb List.not_mem_nil
  running := fun t ht => absurd ht List.not_mem_nil
  waiting := fun t ht => by
    have hlt := (List.getElem?_eq_some_iff.mp ((Run.Follows.initial workers tasks).waiting t ht)).1
    rw [← length_taskSpans workers] at hlt
    exact ⟨_, List.getElem?_eq_getElem hlt, Nat.zero_le _⟩
  early := Or.inl rfl

section

variable (h : c.IsOnTime workers tasks)
include h

/-- The tasks that have begun are the first ones. -/
theorem begun_eq : c.begun.map (·.1) = List.range c.begun.length := by
  have := (range_of_append h.order).1
  rwa [List.length_map] at this

/-- A task that runs has begun, as its span does. -/
theorem begun_of_running {t : Nat × Task α} (ht : t ∈ c.run.running) :
    ∃ s, (taskSpans workers tasks)[t.1]? = some s ∧ (t.1, s.start) ∈ c.begun ∧ s.start ≤ c.now := by
  obtain ⟨b, hb, hbt⟩ := List.mem_map.mp
    (h.parts.mem_iff.mpr (List.mem_append_right _ (List.mem_map_of_mem ht)))
  obtain ⟨s, hs, hstart, hle⟩ := h.begun b hb
  refine ⟨s, hbt ▸ hs, ?_, hle⟩
  rwa [← hbt, ← hstart]

/-- How many of the tasks that have begun run in this second, by their spans: they are among those that run. -/
theorem runningAt_begun : runningAt ((taskSpans workers tasks).take c.begun.length) c.now =
    c.run.running.countP fun t => ((taskSpans workers tasks)[t.1]?).any fun s => c.now < s.stop := by
  rw [runningAt_take, ← h.begun_eq, h.parts.countP_eq, List.countP_append, List.countP_map, List.countP_map]
  have hended : c.ended.countP ((fun place => ((taskSpans workers tasks)[place]?).any
      fun s => s.start ≤ c.now && c.now < s.stop) ∘ (·.1)) = 0 := by
    refine List.countP_eq_zero.mpr fun b hb => ?_
    obtain ⟨s, hs, -, hstop⟩ := h.ended b hb
    simp [hs]
    omega
  rw [hended, Nat.zero_add]
  refine List.countP_congr fun t ht => ?_
  obtain ⟨s, hs, -, hstart⟩ := h.begun_of_running ht
  simp [hs, hstart]

/-- A task that can begin does so in the second in which its span begins. -/
theorem start_eq_now (hslots : slots workers tasks.length ≠ 0) {t : Nat × Task α} {rest : List (Nat × Task α)}
    {free : Nat} (hwait : c.run.waiting = t :: rest) (hfree : c.run.free = free + 1) :
    ∃ s, (taskSpans workers tasks)[t.1]? = some s ∧ s.start = c.now := by
  have hplace : t.1 = c.begun.length := by
    have hget : (List.range tasks.length)[c.begun.length]? = some t.1 := by
      rw [← h.order]
      simp [hwait]
    obtain ⟨hlt, hval⟩ := List.getElem?_eq_some_iff.mp hget
    rw [← hval, List.getElem_range]
  obtain ⟨s, hs, hnow⟩ := h.waiting t (hwait ▸ List.mem_cons_self)
  refine ⟨s, hs, Nat.le_antisymm (Nat.le_of_not_lt fun hlt => ?_) hnow⟩
  -- were it too early, all permits would be out
  have hbusy := (successive_taskSpans hslots _ s hs).busy c.now hlt
  rw [hplace, h.runningAt_begun] at hbusy
  have hle : c.run.running.countP (fun t => ((taskSpans workers tasks)[t.1]?).any fun s => c.now < s.stop) ≤
      c.run.running.length := List.countP_le_length
  have := h.follows.permits
  omega

/-- A task that is due ends in the second in which its span is over. -/
theorem stop_eq_now {t : Nat × Task α} (ht : t ∈ c.run.running) (hdue : c.isDue t) :
    ∃ s, (taskSpans workers tasks)[t.1]? = some s ∧ s.stop = c.now := by
  obtain ⟨s, hs, hnow⟩ := h.running t ht
  obtain ⟨b, hb, hbt, hover⟩ := isDue_iff.mp hdue
  obtain ⟨s', hs', hstart, -⟩ := h.begun b hb
  rw [hbt, hs] at hs'
  obtain rfl := Option.some.inj hs'
  have := stop_taskSpans (h.follows.running t ht) hs
  exact ⟨s, hs, by omega⟩

/-- A task that runs and is not due is over later. -/
theorem now_lt_stop {t : Nat × Task α} (ht : t ∈ c.run.running) (hdue : c.isDue t = false) :
    ∃ s, (taskSpans workers tasks)[t.1]? = some s ∧ c.now < s.stop := by
  obtain ⟨s, hs, hb, -⟩ := h.begun_of_running ht
  refine ⟨s, hs, Nat.lt_of_not_le fun hle => ?_⟩
  rw [stop_taskSpans (h.follows.running t ht) hs] at hle
  rw [isDue_iff.mpr ⟨_, hb, rfl, hle⟩] at hdue
  nomatch hdue

/-- When no task can begin and one waits, all permits are out. -/
theorem length_running (hwait : c.run.waiting ≠ []) (hstart : c.run.step? .start = none) :
    c.run.running.length = slots workers tasks.length := by
  have := h.follows.permits
  obtain ⟨t, rest, hwait⟩ := List.exists_cons_of_ne_nil hwait
  cases hfree : c.run.free with
  | zero => omega
  | succ free =>
    rw [Run.start_eq_some_iff.mpr ⟨t, rest, free, hwait, hfree, rfl⟩] at hstart
    nomatch hstart

/-- A task that waits while nothing can happen begins later. -/
theorem now_lt_start (hslots : slots workers tasks.length ≠ 0) (hidle : c.isIdle) {t : Nat × Task α}
    (ht : t ∈ c.run.waiting) : ∃ s, (taskSpans workers tasks)[t.1]? = some s ∧ c.now < s.start := by
  obtain ⟨hstart, hdue, -⟩ := isIdle_iff.mp hidle
  obtain ⟨s, hs, -⟩ := h.waiting t ht
  refine ⟨s, hs, Nat.lt_of_not_le fun hle => ?_⟩
  have hfree := (successive_taskSpans hslots _ s hs).free c.now hle
  -- the tasks before it that have begun and still run are all that run, so a permit would be free
  have hbegun : c.begun.length ≤ t.1 := by
    have := (range_of_append h.order).2 t.1 (List.mem_map_of_mem ht)
    rwa [List.length_map] at this
  have hprefix : runningAt ((taskSpans workers tasks).take c.begun.length) c.now ≤
      runningAt ((taskSpans workers tasks).take t.1) c.now :=
    (List.take_sublist_take_left hbegun).countP_le
  have hrunning : c.run.running.countP (fun t => ((taskSpans workers tasks)[t.1]?).any fun s => c.now < s.stop) =
      c.run.running.length := by
    refine List.countP_eq_length.mpr fun x hx => ?_
    obtain ⟨s, hs, hlt⟩ := h.now_lt_stop hx (hdue x hx)
    simp [hs, hlt]
  rw [h.runningAt_begun, hrunning, h.length_running (List.ne_nil_of_mem ht) hstart] at hprefix
  omega

/-- Whatever happens in a run, the tasks begin in order. -/
theorem order_event {e : Event} (hs : c.step? (.event e) = some c') :
    c'.begun.map (·.1) ++ c'.run.waiting.map (·.1) = List.range tasks.length := by
  obtain ⟨-, r, hr, rfl⟩ := event_eq_some_iff.mp hs
  rw [List.map_append, map_fst_pair, List.append_assoc, Run.begun_step hr, h.order]

/-- Whatever happens in a run, the tasks that have begun are those that have ended and those that run. -/
theorem parts_event {e : Event} (hs : c.step? (.event e) = some c') :
    (c'.begun.map (·.1)).Perm (c'.ended.map (·.1) ++ c'.run.running.map (·.1)) := by
  obtain ⟨-, r, hr, rfl⟩ := event_eq_some_iff.mp hs
  rw [List.map_append, List.map_append, map_fst_pair, map_fst_pair, List.append_assoc]
  calc (c.begun.map (·.1) ++ c.run.begins e)
    _ |>.Perm ((c.ended.map (·.1) ++ c.run.running.map (·.1)) ++ c.run.begins e) := h.parts.append_right _
    _ |>.Perm (c.ended.map (·.1) ++ (c.run.begins e ++ c.run.running.map (·.1))) := by
      rw [List.append_assoc]
      exact List.perm_append_comm.append_left _
    _ |>.Perm (c.ended.map (·.1) ++ (e.ends ++ r.running.map (·.1))) :=
      (Run.ended_step h.follows.apart hr).append_left _

/-- A task that begins keeps the clock in time. -/
theorem start (hslots : slots workers tasks.length ≠ 0) (hs : c.step? (.event .start) = some c') :
    c'.IsOnTime workers tasks := by
  have horder := h.order_event hs
  have hparts := h.parts_event hs
  obtain ⟨-, r, hr, rfl⟩ := event_eq_some_iff.mp hs
  have hfollows := h.follows.step hr
  obtain ⟨t, rest, free, hwait, hfree, rfl⟩ := Run.start_eq_some_iff.mp hr
  obtain ⟨s, hspan, hnow⟩ := h.start_eq_now hslots hwait hfree
  have hbegins : c.run.begins .start = [t.1] := by simp [Run.begins, hwait]
  refine {
    follows := hfollows
    order := horder
    parts := hparts
    begun := fun b hb => ?begun
    ended := fun b hb => h.ended b (by simpa [Event.ends] using hb)
    running := fun x hx => ?running
    waiting := fun x hx => h.waiting x (hwait ▸ List.mem_cons_of_mem t hx)
    early := h.early }
  case begun =>
    rcases List.mem_append.mp hb with hb | hb
    · exact h.begun b hb
    · rw [hbegins] at hb
      obtain rfl := List.mem_singleton.mp hb
      exact ⟨s, hspan, hnow.symm, Nat.le_of_eq hnow⟩
  case running =>
    rcases List.mem_cons.mp hx with rfl | hx
    · have hstop := stop_taskSpans (h.follows.waiting x (hwait ▸ List.mem_cons_self)) hspan
      exact ⟨s, hspan, by show c.now ≤ s.stop; omega⟩
    · exact h.running x hx

/-- A task that ends keeps the clock in time. -/
theorem finish {place : Nat} (hs : c.step? (.event (.finish place)) = some c') : c'.IsOnTime workers tasks := by
  have horder := h.order_event hs
  have hparts := h.parts_event hs
  obtain ⟨hallow, r, hr, rfl⟩ := event_eq_some_iff.mp hs
  have hfollows := h.follows.step hr
  obtain ⟨t, ht, hplace, hdue⟩ : ∃ t ∈ c.run.running, t.1 = place ∧ c.isDue t := by simpa [allows] using hallow
  obtain ⟨s, hspan, hnow⟩ := h.stop_eq_now ht hdue
  obtain ⟨x, -, rfl⟩ := Run.finish_eq_some_iff.mp hr
  refine {
    follows := hfollows
    order := horder
    parts := hparts
    begun := fun b hb => h.begun b (by simpa [Run.begins] using hb)
    ended := fun b hb => ?ended
    running := fun x hx => h.running x (List.mem_filter.mp hx).1
    waiting := h.waiting
    early := h.early }
  rcases List.mem_append.mp hb with hb | hb
  · exact h.ended b hb
  · obtain rfl := List.mem_singleton.mp hb
    exact ⟨s, hplace ▸ hspan, hnow.symm, Nat.le_of_eq hnow⟩

/-- A second that passes keeps the clock in time. -/
theorem second (hslots : slots workers tasks.length ≠ 0) (hs : c.step? .second = some c') : c'.IsOnTime workers tasks := by
  obtain ⟨hidle, rfl⟩ := second_eq_some_iff.mp hs
  obtain ⟨hstart, hdue, hover⟩ := isIdle_iff.mp hidle
  have hrunning : ∀ t ∈ c.run.running, ∃ s, (taskSpans workers tasks)[t.1]? = some s ∧ c.now < s.stop :=
    fun t ht => h.now_lt_stop ht (hdue t ht)
  refine { h with
    begun := fun b hb => ?begun
    ended := fun b hb => ?ended
    running := hrunning
    waiting := fun t ht => h.now_lt_start hslots hidle ht
    early := Or.inr ?early }
  case begun =>
    obtain ⟨s, hs, hb, hle⟩ := h.begun b hb
    exact ⟨s, hs, hb, Nat.le_succ_of_le hle⟩
  case ended =>
    obtain ⟨s, hs, hb, hle⟩ := h.ended b hb
    exact ⟨s, hs, hb, Nat.le_succ_of_le hle⟩
  case early =>
    have hne : c.run.running ≠ [] := fun hnil => by
      by_cases hwait : c.run.waiting = []
      · simp [Run.isOver, hwait, hnil] at hover
      · have := h.length_running hwait hstart
        rw [hnil] at this
        exact hslots this.symm
    obtain ⟨t, rest, ht⟩ := List.exists_cons_of_ne_nil hne
    obtain ⟨s, hs, hlt⟩ := hrunning t (ht ▸ List.mem_cons_self)
    exact ⟨s, List.mem_of_getElem? hs, hlt⟩

/-- Every tick keeps the clock in time. -/
theorem step (hslots : slots workers tasks.length ≠ 0) (hs : c.step? tick = some c') : c'.IsOnTime workers tasks := by
  cases tick with
  | second => exact h.second hslots hs
  | event e =>
    cases e with
    | start => exact h.start hslots hs
    | finish place => exact h.finish hs

/-- Every run of the clock keeps it in time. -/
theorem steps (hslots : slots workers tasks.length ≠ 0) (hs : c.steps? ticks = some c') : c'.IsOnTime workers tasks := by
  induction ticks generalizing c with
  | nil =>
    obtain rfl := Option.some.inj hs
    exact h
  | cons tick ticks ih =>
    obtain ⟨m, hm, hticks⟩ := Option.bind_eq_some_iff.mp hs
    exact ih (h.step hslots hm) hticks

/-- The tasks that have begun have done so as their spans do. -/
theorem begun_eq_zip : c.begun = (List.range c.begun.length).zip ((taskSpans workers tasks).map (·.start)) := by
  refine eq_zip_of_keys h.begun_eq fun b hb => ?_
  obtain ⟨s, hs, hstart, -⟩ := h.begun b hb
  rw [List.getElem?_map, hs, hstart]
  rfl

/-- The tasks that have ended have done so as their spans do. -/
theorem ended_mem_zip {b : Nat × Nat} (hb : b ∈ c.ended) :
    b ∈ (List.range tasks.length).zip ((taskSpans workers tasks).map (·.stop)) := by
  obtain ⟨s, hs, hstop, -⟩ := h.ended b hb
  have hlt := (List.getElem?_eq_some_iff.mp hs).1
  rw [length_taskSpans] at hlt
  refine List.mem_iff_getElem?.mpr ⟨b.1, List.getElem?_zip_eq_some.mpr ⟨List.getElem?_range hlt, ?_⟩⟩
  rw [List.getElem?_map, hs, hstop]
  rfl

/-- When every task has ended, each has begun and has ended as its span does. -/
theorem complete (hover : c.run.isOver = true) :
    c.begun = (List.range tasks.length).zip ((taskSpans workers tasks).map (·.start)) ∧
    c.ended.Perm ((List.range tasks.length).zip ((taskSpans workers tasks).map (·.stop))) := by
  obtain ⟨hwait, hrun⟩ := List.append_eq_nil_iff.mp (Run.isOver_iff.mp hover)
  have hbegun : c.begun.map (·.1) = List.range tasks.length := by
    have := h.order
    rwa [hwait, List.append_nil] at this
  have hlen : c.begun.length = tasks.length := by
    have := congrArg List.length hbegun
    rwa [List.length_map, List.length_range] at this
  refine ⟨hlen ▸ h.begun_eq_zip, ?_⟩
  have hended : (List.range tasks.length).Perm (c.ended.map (·.1)) := by
    have := h.parts
    rwa [hbegun, hrun, List.append_nil] at this
  have hnodup : c.ended.Nodup := List.Nodup.of_map _ (hended.nodup_iff.mp List.nodup_range)
  refine (List.subperm_of_subset hnodup fun b hb => h.ended_mem_zip hb).perm_of_length_le ?_
  have := hended.length_eq
  rw [List.length_map] at this
  rw [List.length_zip, ← this]
  exact Nat.min_le_left _ _

/-- The clock does not run beyond the last of the spans. -/
theorem now_le_lastStop : c.now ≤ lastStop (taskSpans workers tasks) := by
  rcases h.early with hzero | ⟨s, hs, hle⟩
  · omega
  · exact Nat.le_trans hle (stop_le_lastStop hs)

end

end Timed.IsOnTime

/-- What the spans of a job are: one for each task, in the order in which they begin, and each as long as its task takes. No
more of them overlap than there are permits, as long as some task has not begun all permits are out, and they all are out at
some time. -/
structure IsSchedule (workers : Nat) (tasks : List (Task α)) (spans : List Span) : Prop where
  length : spans.length = tasks.length
  ordered : spans.Pairwise fun s s' => s.start ≤ s'.start
  extent : ∀ (place : Nat) (t : Task α) (s : Span), tasks[place]? = some t → spans[place]? = some s →
    s.stop = s.start + t.duration
  bounded : ∀ second, runningAt spans second ≤ min workers tasks.length
  busy : ∀ s ∈ spans, ∀ second, second < s.start → runningAt spans second = min workers tasks.length
  peak : peak spans = min workers tasks.length

/-- The spans of a job whose tasks all take their time. -/
theorem isSchedule_taskSpans (hw : workers ≠ 0) (hne : tasks ≠ []) (hd : ∀ t ∈ tasks, 1 ≤ t.duration) :
    IsSchedule workers tasks (taskSpans workers tasks) := by
  have hslots := slots_ne_zero hw hne
  have hnext := successive_taskSpans hslots
  have hlen := length_taskSpans workers tasks
  refine {
    length := hlen
    ordered := List.pairwise_iff_getElem.mpr fun i j hi hj hij =>
      hnext.starts_le (List.getElem?_eq_getElem hi) (List.getElem?_eq_getElem hj) (Nat.le_of_lt hij)
    extent := fun place t s ht hs => stop_taskSpans ht hs
    bounded := hnext.runningAt_le
    busy := fun s hs second hlt => hnext.runningAt_eq hs hlt
    peak := hnext.peak_eq ?_ hslots (hlen ▸ Nat.min_le_right _ _) fun s hs => ?_ }
  · intro hnil
    rw [hnil] at hlen
    exact hne (List.eq_nil_of_length_eq_zero hlen.symm)
  · obtain ⟨place, hplace⟩ := List.mem_iff_getElem?.mp hs
    have hlt := (List.getElem?_eq_some_iff.mp hplace).1
    rw [hlen] at hlt
    have hstop := stop_taskSpans (List.getElem?_eq_getElem hlt) hplace
    have := hd _ (List.getElem_mem hlt)
    omega

/-- What a job with tasks and workers has done on its clock, whatever its tasks take. -/
theorem keeps_of_steps {c : Timed α} {ticks : List Tick} (hw : workers ≠ 0) (hne : tasks ≠ [])
    (hs : (Timed.dispatched workers tasks).steps? ticks = some c) : c.Keeps workers tasks ticks := by
  have h := (Timed.IsOnTime.dispatched workers tasks).steps (slots_ne_zero hw hne) hs
  refine ⟨?width, h.begun_eq_zip, fun b hb => h.ended_mem_zip hb, Timed.onward, ?bounded, h.complete⟩
  case width =>
    have := h.follows.permits
    rw [slots] at this
    omega
  case bounded =>
    have hlen := Timed.length_le hs
    have hleft : (Timed.dispatched workers tasks).run.left = 2 * tasks.length := by
      simp [Timed.dispatched, Run.left, Run.initial]
    have hnow : (Timed.dispatched workers tasks).now = 0 := rfl
    have := h.now_le_lastStop
    omega

/-- The schedule of a job with tasks and workers, whose tasks all take their time. Its spans begin in order, are as long as
the tasks take, never overlap more than there are permits and leave no permit free as long as a task has not begun; and every
run of the job on a clock does what they say, also when its tasks end in any other way. -/
theorem schedule_kept (hw : workers ≠ 0) (hne : tasks ≠ []) (hd : ∀ t ∈ tasks, 1 ≤ t.duration) :
    IsSchedule workers tasks (taskSpans workers tasks) ∧
    (∀ ticks c, (Timed.dispatched workers tasks).steps? ticks = some c → c.Keeps workers tasks ticks) ∧
    ∀ tasks' : List (Task α), tasks'.map (·.duration) = tasks.map (·.duration) →
      ∀ ticks c ticks' c', (Timed.dispatched workers tasks).steps? ticks = some c → c.run.isOver →
        (Timed.dispatched workers tasks').steps? ticks' = some c' → c'.run.isOver →
        c'.begun = c.begun ∧ c'.ended.Perm c.ended := by
  refine ⟨isSchedule_taskSpans hw hne hd, fun ticks c hs => keeps_of_steps hw hne hs, ?_⟩
  intro tasks' hdurations ticks c ticks' c' hs hover hs' hover'
  have hlen : tasks'.length = tasks.length := by
    have := congrArg List.length hdurations
    rwa [List.length_map, List.length_map] at this
  have hne' : tasks' ≠ [] := fun hnil => by
    rw [hnil] at hlen
    exact hne (List.eq_nil_of_length_eq_zero hlen.symm)
  have hspans : taskSpans workers tasks' = taskSpans workers tasks := by
    rw [taskSpans, taskSpans, hlen, hdurations]
  obtain ⟨hbegun, hended⟩ := (keeps_of_steps hw hne hs).complete hover
  obtain ⟨hbegun', hended'⟩ := (keeps_of_steps hw hne' hs').complete hover'
  rw [hspans, hlen] at hbegun' hended'
  exact ⟨hbegun'.trans hbegun.symm, hended'.trans hended.symm⟩

/-- The third task begins in the second in which the second one crashes, and is over together with the first. -/
theorem schedule_kept_mixed :
    taskSpans 2 mixed = [⟨0, 3⟩, ⟨0, 1⟩, ⟨1, 3⟩] ∧ IsSchedule 2 mixed (taskSpans 2 mixed) ∧
    ∃ ticks c, (Timed.dispatched 2 mixed).steps? ticks = some c ∧ c.run.isOver ∧ c.ended = [(1, 1), (2, 3), (0, 3)] ∧
      c.Keeps 2 mixed ticks := by
  obtain ⟨hschedule, hkeeps, -⟩ := @schedule_kept Nat 2 mixed (by decide) (by simp [mixed]) (by simp [mixed])
  let ticks : List Tick := [.event .start, .event .start, .second, .event (.finish 1), .event .start, .second, .second,
    .event (.finish 2), .event (.finish 0)]
  obtain ⟨c, hs, hover, hended⟩ : ∃ c, (Timed.dispatched 2 mixed).steps? ticks = some c ∧ c.run.isOver ∧
      c.ended = [(1, 1), (2, 3), (0, 3)] := ⟨_, rfl, rfl, rfl⟩
  exact ⟨by decide, hschedule, ticks, c, hs, hover, hended, hkeeps ticks c hs⟩

end ChannelWatch.Runner
