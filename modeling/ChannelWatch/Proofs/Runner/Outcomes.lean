import ChannelWatch.Proofs.Places
import ChannelWatch.Runner.Job

/-!
# What a job's run gives

However the tasks of a job begin and end, a run that has come to its end has the outcome of every task in the task's own
place (`outcomes_of_atEnd`), and a run comes to its end after two events for each task. The invariant (`Follows`) says where
every task is: it waits, it runs, or its outcome is in its place.
-/

namespace ChannelWatch.Runner

variable {α : Type} {workers : Nat} {tasks : List (Task α)} {r r' : Run α} {e : Event}

/-- The places of the tasks that have not ended. -/
def Run.pending (r : Run α) : List Nat :=
  r.waiting.map (·.1) ++ r.running.map (·.1)

/-- Where the tasks of a job are in its run: those that wait or run have their own places, no two the same, every other place
holds the outcome of its task, and every permit is free or with a task that runs. -/
structure Run.Follows (workers : Nat) (tasks : List (Task α)) (r : Run α) : Prop where
  waiting : ∀ x ∈ r.waiting, tasks[x.1]? = some x.2
  running : ∀ x ∈ r.running, tasks[x.1]? = some x.2
  apart : r.pending.Nodup
  length : r.outcomes.length = tasks.length
  ended : ∀ place t, tasks[place]? = some t → place ∉ r.pending → r.outcomes[place]? = some (some t.ending.outcome)
  permits : r.running.length + r.free = slots workers tasks.length

/-- The run cannot go on. -/
def Run.AtEnd (r : Run α) : Prop :=
  ∀ e, r.step? e = none

/-- How many events a run has still before it. -/
def Run.left (r : Run α) : Nat :=
  2 * r.waiting.length + r.running.length

/-- The first waiting task begins exactly when there is one and a permit is free. -/
theorem Run.start_eq_some_iff : r.step? .start = some r' ↔ ∃ t rest free, r.waiting = t :: rest ∧ r.free = free + 1 ∧
    r' = { r with waiting := rest, running := t :: r.running, free := free } := by
  simp only [step?]
  constructor
  · intro h
    split at h
    · rename_i t rest free hw hf
      exact ⟨t, rest, free, hw, hf, (Option.some.inj h).symm⟩
    · nomatch h
  · rintro ⟨t, rest, free, hw, hf, rfl⟩
    rw [hw, hf]

/-- A task ends exactly when it runs. -/
theorem Run.finish_eq_some_iff {place : Nat} : r.step? (.finish place) = some r' ↔
    ∃ t, r.running.find? (·.1 = place) = some t ∧ r' = {
      r with
      running := r.running.filter (·.1 ≠ place)
      outcomes := r.outcomes.set place (some t.2.ending.outcome)
      free := r.free + 1 } := by
  simp only [step?]
  constructor
  · intro h
    split at h
    · rename_i t ht
      exact ⟨t, ht, (Option.some.inj h).symm⟩
    · nomatch h
  · rintro ⟨t, ht, rfl⟩
    rw [ht]

namespace Run.Follows

/-- All tasks of a job that has just been dispatched wait. -/
theorem initial (workers : Nat) (tasks : List (Task α)) : (Run.initial workers tasks).Follows workers tasks := by
  have places : (Run.initial workers tasks).pending = List.range tasks.length := by
    simp only [Run.pending, Run.initial, List.map_nil, List.append_nil]
    exact List.map_fst_zip (Nat.le_of_eq List.length_range)
  refine ⟨fun x hx => ?_, fun x hx => absurd hx List.not_mem_nil, places ▸ List.nodup_range, List.length_replicate,
    fun place t ht hnot => ?_, Nat.zero_add _⟩
  · obtain ⟨j, hj⟩ := List.mem_iff_getElem?.mp hx
    obtain ⟨hplace, htask⟩ := List.getElem?_zip_eq_some.mp hj
    obtain ⟨hlt, hval⟩ := List.getElem?_eq_some_iff.mp hplace
    rw [← hval, List.getElem_range]
    exact htask
  · rw [places, List.mem_range] at hnot
    exact absurd (List.getElem?_eq_some_iff.mp ht).1 hnot

/-- The first waiting task that begins runs in its own place. -/
theorem start (h : r.Follows workers tasks) (hs : r.step? .start = some r') : r'.Follows workers tasks := by
  obtain ⟨t, rest, free, hw, hf, rfl⟩ := Run.start_eq_some_iff.mp hs
  have hpending : r.pending.Perm (rest.map (·.1) ++ t.1 :: r.running.map (·.1)) := by
    rw [Run.pending, hw]
    exact List.perm_middle.symm
  refine ⟨fun x hx => ?_, fun x hx => ?_, hpending.nodup_iff.mp h.apart, h.length, fun place x hx hnot => ?_, ?_⟩
  · exact h.waiting x (hw ▸ List.mem_cons_of_mem _ hx)
  · rcases List.mem_cons.mp hx with rfl | hx
    · exact h.waiting x (hw ▸ List.mem_cons_self)
    · exact h.running x hx
  · exact h.ended place x hx fun hmem => hnot (hpending.mem_iff.mp hmem)
  · have := h.permits
    show (t :: r.running).length + free = _
    rw [List.length_cons]
    omega

/-- A task that ends leaves its outcome in its own place. -/
theorem finish (h : r.Follows workers tasks) {place : Nat} (hs : r.step? (.finish place) = some r') :
    r'.Follows workers tasks := by
  obtain ⟨t, ht, rfl⟩ := Run.finish_eq_some_iff.mp hs
  have hplace : t.1 = place := by simpa using List.find?_some ht
  have hmem := List.mem_of_find?_eq_some ht
  subst hplace
  -- the task that ends is the only one in its place
  have perm := perm_cons_filter (List.nodup_append.mp h.apart).2.1 hmem
  have hpending : r.pending.Perm (t.1 :: (r.waiting.map (·.1) ++ (r.running.filter (·.1 ≠ t.1)).map (·.1))) :=
    ((perm.map (·.1)).append_left _).trans List.perm_middle
  refine ⟨h.waiting, fun x hx => h.running x (List.mem_filter.mp hx).1,
    (List.nodup_cons.mp (hpending.nodup_iff.mp h.apart)).2, List.length_set.trans h.length, fun place x hx hnot => ?_, ?_⟩
  · have htask := h.running t hmem
    have hlt : t.1 < r.outcomes.length := h.length ▸ (List.getElem?_eq_some_iff.mp htask).1
    rw [getElem?_set_of_eq_some (List.getElem?_eq_getElem hlt)]
    by_cases hp : place = t.1
    · subst hp
      rw [htask] at hx
      rw [if_pos rfl, Option.some.inj hx]
    · rw [if_neg hp]
      refine h.ended place x hx fun hmem => hnot ?_
      exact (List.mem_cons.mp (hpending.mem_iff.mp hmem)).resolve_left hp
  · have := h.permits
    have hlen := perm.length_eq
    rw [List.length_cons] at hlen
    show (r.running.filter (·.1 ≠ t.1)).length + (r.free + 1) = _
    omega

theorem step (h : r.Follows workers tasks) (hs : r.step? e = some r') : r'.Follows workers tasks := by
  cases e with
  | start => exact h.start hs
  | finish place => exact h.finish hs

/-- Every run keeps the tasks in their places. -/
theorem steps {es : List Event} (h : r.Follows workers tasks) (hs : r.steps? es = some r') : r'.Follows workers tasks := by
  induction es generalizing r with
  | nil =>
    obtain rfl := Option.some.inj hs
    exact h
  | cons e es ih =>
    obtain ⟨m, hm, hes⟩ := Option.bind_eq_some_iff.mp hs
    exact ih (h.step hm) hes

/-- With a worker, a run that cannot go on has nothing more to do. -/
theorem pending_eq_nil (h : r.Follows workers tasks) (hw : workers ≠ 0) (he : r.AtEnd) : r.pending = [] := by
  have hrunning : r.running = [] := by
    cases hr : r.running with
    | nil => rfl
    | cons t rest =>
      have hfind : r.running.find? (·.1 = t.1) = some t := by
        rw [hr]
        exact List.find?_cons_of_pos (decide_eq_true rfl)
      have hnone := he (.finish t.1)
      rw [Run.finish_eq_some_iff.mpr ⟨t, hfind, rfl⟩] at hnone
      nomatch hnone
  have hwaiting : r.waiting = [] := by
    cases hq : r.waiting with
    | nil => rfl
    | cons t rest =>
      have hlt : t.1 < tasks.length := (List.getElem?_eq_some_iff.mp (h.waiting t (hq ▸ List.mem_cons_self))).1
      have hfree := h.permits
      rw [hrunning, List.length_nil, Nat.zero_add, slots] at hfree
      obtain ⟨free, hf⟩ : ∃ free, r.free = free + 1 := ⟨r.free - 1, by omega⟩
      have hnone := he .start
      rw [Run.start_eq_some_iff.mpr ⟨t, rest, free, hq, hf, rfl⟩] at hnone
      nomatch hnone
  rw [Run.pending, hwaiting, hrunning]
  rfl

end Run.Follows

/-- Each event of a run is one less to come. -/
theorem Run.left_step (hs : r.step? e = some r') : r'.left < r.left := by
  cases e with
  | start =>
    obtain ⟨t, rest, free, hw, -, rfl⟩ := Run.start_eq_some_iff.mp hs
    simp only [left, hw, List.length_cons]
    omega
  | finish place =>
    obtain ⟨t, ht, rfl⟩ := Run.finish_eq_some_iff.mp hs
    have hlt : (r.running.filter (·.1 ≠ place)).length < r.running.length := by
      have hplace : t.1 = place := by simpa using List.find?_some ht
      exact List.length_filter_lt_length_iff_exists.mpr ⟨t, List.mem_of_find?_eq_some ht, by simp [hplace]⟩
    show 2 * r.waiting.length + (r.running.filter (·.1 ≠ place)).length < 2 * r.waiting.length + r.running.length
    omega

/-- A run has at most the events that are still before it. -/
theorem Run.length_le_left {es : List Event} (hs : r.steps? es = some r') : es.length + r'.left ≤ r.left := by
  induction es generalizing r with
  | nil =>
    obtain rfl := Option.some.inj hs
    exact Nat.le_of_eq (Nat.zero_add _)
  | cons e es ih =>
    obtain ⟨m, hm, hes⟩ := Option.bind_eq_some_iff.mp hs
    have h1 := Run.left_step hm
    have h2 := ih hes
    rw [List.length_cons]
    omega

/-- However the tasks of a job begin and end: its run has at most two events for each task, and when it cannot go on every
task has its own outcome in its place. -/
theorem outcomes_of_atEnd {es : List Event} (hw : workers ≠ 0) (hs : (Run.initial workers tasks).steps? es = some r) :
    es.length ≤ 2 * tasks.length ∧ (r.AtEnd → r.outcomes = tasks.map fun t => some t.ending.outcome) := by
  have hlen := Run.length_le_left hs
  have hfollows := (Run.Follows.initial workers tasks).steps hs
  refine ⟨?_, fun he => List.ext_getElem? fun place => ?_⟩
  · have hleft : (Run.initial workers tasks).left = 2 * tasks.length := by
      simp [Run.left, Run.initial]
    omega
  · have hnil := hfollows.pending_eq_nil hw he
    rw [List.getElem?_map]
    cases ht : tasks[place]? with
    | none => exact List.getElem?_eq_none (hfollows.length ▸ List.getElem?_eq_none_iff.mp ht)
    | some t => exact hfollows.ended place t ht (hnil ▸ List.not_mem_nil)

end ChannelWatch.Runner
