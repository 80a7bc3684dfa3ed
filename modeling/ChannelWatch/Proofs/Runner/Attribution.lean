import ChannelWatch.Proofs.Runner.Outcomes

/-!
# Whose outcome a slot holds

The tasks of a job may ask for their permits in any order and end in any order. Whatever happens, every slot is filled by
the task of its own place and by no other, each task begins once and ends once, and the outcomes collected at the end are
those that `execute` gives (`slots_attributed`). A task that is replaced by another, with any duration and any ending, leaves
the slots of all others as they were.

The count of what happens is one equation for each event (`begun_step`, `ended_step`): a task that begins leaves the queue,
and a task that ends has begun.
-/

namespace ChannelWatch.Runner

variable {α : Type} {workers : Nat} {tasks : List (Task α)} {order : List (Nat × Task α)} {r r' : Run α} {e : Event}
  {es : List Event}

/-- What a task may leave in its slot, by how it ends. -/
inductive Ending.Yields : Ending α → Except Fault α → Prop
  | value (a : α) : Yields (.value a) (.ok a)
  | fault (f : Fault) : Yields (.fault f) (.error f)
  | crash (message : String) : Yields .crash (.error (.taskFailed message))

/-- A job that has just been dispatched, with its tasks asking for their permits in the given order. -/
def Run.queued (workers : Nat) (tasks : List (Task α)) (order : List (Nat × Task α)) : Run α :=
  { Run.initial workers tasks with waiting := order }

/-- The places of the tasks that begin with an event. -/
def Run.begins (r : Run α) : Event → List Nat
  | .start => (r.waiting.map (·.1)).take 1
  | .finish _ => []

/-- The places of the tasks that begin in a run, in the order in which they do. -/
def Run.begun : Run α → List Event → List Nat
  | _, [] => []
  | r, e :: es => r.begins e ++ (r.step? e).elim [] (·.begun es)

/-- The places of the tasks that end with an event. -/
def Event.ends : Event → List Nat
  | start => []
  | finish place => [place]

/-- The slots of the tasks that have not ended are blank. -/
def Run.IsBlank (r : Run α) : Prop :=
  ∀ place ∈ r.pending, r.outcomes[place]? = some none

/-- What a run of a job has done with the job's tasks, where `outs` are the outcomes that the job gives: as many as there are
tasks, each as its own task yields it, and the slots filled so far hold them. Until every task has ended something can
happen, and then every task has begun once and ended once and the slots give `outs`. -/
structure Run.Attributed (tasks : List (Task α)) (start : Run α) (es : List Event) (r : Run α)
    (outs : List (Except Fault α)) : Prop where
  length : outs.length = tasks.length
  own : ∀ (place : Nat) (t : Task α), tasks[place]? = some t → ∃ out, outs[place]? = some out ∧ t.ending.Yields out
  slots : r.outcomes.length = tasks.length
  filled : ∀ (place : Nat) (out : Except Fault α), r.outcomes[place]? = some (some out) → outs[place]? = some out
  onward : r.isOver = false → ∃ e r', r.step? e = some r'
  bounded : es.length ≤ 2 * tasks.length
  begun : r.isOver → (start.begun es).Perm (List.range tasks.length)
  ended : r.isOver → (es.flatMap (·.ends)).Perm (List.range tasks.length)
  collected : r.isOver → r.outcomes.mapM id = some outs

/-- What the model gives for an ending is what a task that ends so may leave. -/
theorem Ending.yields_outcome (ending : Ending α) : ending.Yields ending.outcome := by
  cases ending with
  | value a => exact .value a
  | fault f => exact .fault f
  | crash => exact .crash "task panicked"

/-- A job without tasks fails as a whole, whatever its workers. -/
theorem execute_nil (workers : Nat) : execute workers ([] : List (Task α)) = .error .emptyJob :=
  rfl

theorem execute_zero (hne : tasks ≠ []) :
    execute 0 tasks = .error (.config "fetch job needs at least one worker" (some "workers")) := by
  obtain ⟨t, rest, rfl⟩ := List.exists_cons_of_ne_nil hne
  rfl

/-- Every other job gives the outcomes of its tasks. -/
theorem execute_eq_ok (hne : tasks ≠ []) (hw : workers ≠ 0) :
    execute workers tasks = .ok (tasks.map fun t => t.ending.outcome) := by
  obtain ⟨t, rest, rfl⟩ := List.exists_cons_of_ne_nil hne
  simp [execute, dispatchFault?, hw]

namespace Run

/-- In whatever order the tasks of a job ask for their permits, they have their own places. -/
theorem Follows.queued (hq : order.Perm (Run.initial workers tasks).waiting) :
    (Run.queued workers tasks order).Follows workers tasks := by
  have h := Follows.initial workers tasks
  have hpending : (Run.queued workers tasks order).pending.Perm (Run.initial workers tasks).pending :=
    (hq.map (·.1)).append_right _
  exact ⟨fun x hx => h.waiting x (hq.mem_iff.mp hx), h.running, hpending.nodup_iff.mpr h.apart, h.length,
    fun place t ht hnot => h.ended place t ht fun hmem => hnot (hpending.mem_iff.mpr hmem), h.permits⟩

theorem queued_places (hq : order.Perm (Run.initial workers tasks).waiting) :
    (order.map (·.1)).Perm (List.range tasks.length) := by
  refine (hq.map (·.1)).trans (List.Perm.of_eq ?_)
  exact List.map_fst_zip (Nat.le_of_eq List.length_range)

theorem isOver_iff : r.isOver = true ↔ r.pending = [] := by
  simp [isOver, pending]

/-- A task that begins is the first in the queue. -/
theorem begun_step (hs : r.step? e = some r') : r.begins e ++ r'.waiting.map (·.1) = r.waiting.map (·.1) := by
  cases e with
  | start =>
    obtain ⟨t, rest, free, hw, -, rfl⟩ := start_eq_some_iff.mp hs
    simp [begins, hw]
  | finish place =>
    obtain ⟨t, -, rfl⟩ := finish_eq_some_iff.mp hs
    rfl

/-- The tasks begin in the order of the queue. -/
theorem begun_steps (hs : r.steps? es = some r') : r.begun es ++ r'.waiting.map (·.1) = r.waiting.map (·.1) := by
  induction es generalizing r with
  | nil =>
    obtain rfl := Option.some.inj hs
    rfl
  | cons e es ih =>
    obtain ⟨m, hm, hes⟩ := Option.bind_eq_some_iff.mp hs
    rw [begun, hm, Option.elim_some, List.append_assoc, ih hes, begun_step hm]

/-- A task that begins runs, and a task that ends was running. -/
theorem ended_step (h : r.pending.Nodup) (hs : r.step? e = some r') :
    (r.begins e ++ r.running.map (·.1)).Perm (e.ends ++ r'.running.map (·.1)) := by
  cases e with
  | start =>
    obtain ⟨t, rest, free, hw, -, rfl⟩ := start_eq_some_iff.mp hs
    simp [begins, Event.ends, hw]
  | finish place =>
    obtain ⟨t, ht, rfl⟩ := finish_eq_some_iff.mp hs
    obtain rfl : t.1 = place := by simpa using List.find?_some ht
    exact (perm_cons_filter (List.nodup_append.mp h).2.1 (List.mem_of_find?_eq_some ht)).map (·.1)

/-- The tasks that have begun are those that have ended and those that still run. -/
theorem ended_steps (h : r.Follows workers tasks) (hs : r.steps? es = some r') :
    (r.begun es ++ r.running.map (·.1)).Perm (es.flatMap (·.ends) ++ r'.running.map (·.1)) := by
  induction es generalizing r with
  | nil =>
    obtain rfl := Option.some.inj hs
    exact List.Perm.refl _
  | cons e es ih =>
    obtain ⟨m, hm, hes⟩ := Option.bind_eq_some_iff.mp hs
    rw [begun, hm, Option.elim_some, List.flatMap_cons, List.append_assoc, List.append_assoc]
    calc r.begins e ++ (m.begun es ++ r.running.map (·.1))
      _ |>.Perm (m.begun es ++ (r.begins e ++ r.running.map (·.1))) := by
        simpa only [List.append_assoc] using (List.perm_append_comm).append_right (r.running.map (·.1))
      _ |>.Perm (m.begun es ++ (e.ends ++ m.running.map (·.1))) := (ended_step h.apart hm).append_left _
      _ |>.Perm (e.ends ++ (m.begun es ++ m.running.map (·.1))) := by
        simpa only [List.append_assoc] using (List.perm_append_comm).append_right (m.running.map (·.1))
      _ |>.Perm (e.ends ++ (es.flatMap (·.ends) ++ r'.running.map (·.1))) := (ih (h.step hm) hes).append_left _

/-- As long as some task has not ended, one that runs can end or the next can begin: a task that crashes gives its permit
back like any other. -/
theorem Follows.onward (h : r.Follows workers tasks) (hw : workers ≠ 0) (hover : r.isOver = false) :
    ∃ e r', r.step? e = some r' := by
  refine Classical.byContradiction fun hnone => ?_
  have hend : r.AtEnd := fun e => Option.eq_none_iff_forall_ne_some.mpr fun r' hs => hnone ⟨e, r', hs⟩
  rw [isOver_iff.mpr (h.pending_eq_nil hw hend)] at hover
  nomatch hover

/-- The slots of the tasks that have not ended are blank when a job has been dispatched. -/
theorem IsBlank.queued (hq : order.Perm (Run.initial workers tasks).waiting) : (Run.queued workers tasks order).IsBlank := by
  intro place hplace
  have hmem : place ∈ order.map (·.1) := by simpa [pending, Run.queued, Run.initial] using hplace
  have hlt : place < tasks.length := List.mem_range.mp ((queued_places hq).mem_iff.mp hmem)
  simp [Run.queued, Run.initial, hlt]

/-- The slots of the tasks that have not ended stay blank. -/
theorem IsBlank.step (hb : r.IsBlank) (h : r.Follows workers tasks) (hs : r.step? e = some r') : r'.IsBlank := by
  cases e with
  | start =>
    obtain ⟨t, rest, free, hw, -, rfl⟩ := start_eq_some_iff.mp hs
    refine fun place hplace => hb place ?_
    simp only [pending, hw, List.map_cons, List.mem_append, List.mem_cons] at hplace ⊢
    rcases hplace with hrest | hself | hrun
    · exact Or.inl (Or.inr hrest)
    · exact Or.inl (Or.inl hself)
    · exact Or.inr hrun
  | finish place =>
    obtain ⟨t, ht, rfl⟩ := finish_eq_some_iff.mp hs
    obtain rfl : t.1 = place := by simpa using List.find?_some ht
    have hmem : t.1 ∈ r.running.map (·.1) := List.mem_map_of_mem (List.mem_of_find?_eq_some ht)
    intro other hother
    have hne : other ≠ t.1 := by
      rintro rfl
      rcases List.mem_append.mp hother with hwait | hrun
      · exact (List.nodup_append.mp h.apart).2.2 _ hwait _ hmem rfl
      · obtain ⟨x, hx, hxt⟩ := List.mem_map.mp hrun
        simpa [hxt] using (List.mem_filter.mp hx).2
    rw [getElem?_set_of_eq_some (hb t.1 (List.mem_append_right _ hmem)), if_neg hne]
    refine hb other (List.mem_append.mpr ((List.mem_append.mp hother).imp_right fun hrun => ?_))
    obtain ⟨x, hx, rfl⟩ := List.mem_map.mp hrun
    exact List.mem_map_of_mem (List.mem_filter.mp hx).1

/-- In every run the slots of the tasks that have not ended are blank. -/
theorem IsBlank.steps (hb : r.IsBlank) (h : r.Follows workers tasks) (hs : r.steps? es = some r') : r'.IsBlank := by
  induction es generalizing r with
  | nil =>
    obtain rfl := Option.some.inj hs
    exact hb
  | cons e es ih =>
    obtain ⟨m, hm, hes⟩ := Option.bind_eq_some_iff.mp hs
    exact ih (hb.step h hm) (h.step hm) hes

/-- A filled slot holds the outcome of the task in its place. -/
theorem Follows.filled (h : r.Follows workers tasks) (hb : r.IsBlank) {place : Nat} {out : Except Fault α}
    (hout : r.outcomes[place]? = some (some out)) : (tasks.map fun t => t.ending.outcome)[place]? = some out := by
  have hlt : place < tasks.length := h.length ▸ (List.getElem?_eq_some_iff.mp hout).1
  have ht := List.getElem?_eq_getElem hlt
  have hended := h.ended place _ ht fun hmem => by
    rw [hb place hmem] at hout
    nomatch hout
  rw [hout, Option.some_inj, Option.some_inj] at hended
  rw [List.getElem?_map, ht, hended]
  rfl

/-- When every task has ended, the slots are those of the tasks' endings. -/
theorem Follows.collected (h : r.Follows workers tasks) (hover : r.isOver = true) :
    r.outcomes = tasks.map fun t => some t.ending.outcome := by
  have hnil := isOver_iff.mp hover
  refine List.ext_getElem? fun place => ?_
  rw [List.getElem?_map]
  cases ht : tasks[place]? with
  | none => exact List.getElem?_eq_none (h.length ▸ List.getElem?_eq_none_iff.mp ht)
  | some t => exact h.ended place t ht (hnil ▸ List.not_mem_nil)

/-- A job without tasks or without workers has no permits, so nothing can happen in it. -/
theorem steps_eq_nil (hq : order.Perm (Run.initial workers tasks).waiting) (hnone : tasks = [] ∨ workers = 0)
    (hs : (Run.queued workers tasks order).steps? es = some r) : es = [] := by
  cases es with
  | nil => rfl
  | cons e es =>
    obtain ⟨m, hm, -⟩ := Option.bind_eq_some_iff.mp hs
    cases e with
    | start =>
      obtain ⟨t, rest, free, -, hf, -⟩ := start_eq_some_iff.mp hm
      have hfree : slots workers tasks.length = free + 1 := hf
      rcases hnone with rfl | rfl <;> simp [slots] at hfree
    | finish place =>
      obtain ⟨t, ht, -⟩ := finish_eq_some_iff.mp hm
      cases ht

end Run

/-- The run of a job with tasks and workers gives every slot to its own task. -/
theorem attributed_of_steps (hw : workers ≠ 0) (hq : order.Perm (Run.initial workers tasks).waiting)
    (hs : (Run.queued workers tasks order).steps? es = some r) :
    (Run.queued workers tasks order).Attributed tasks es r (tasks.map fun t => t.ending.outcome) := by
  have hfirst := Run.Follows.queued hq
  have hfollows := hfirst.steps hs
  have hbegun := Run.begun_steps hs
  have hended := Run.ended_steps hfirst hs
  have hplaces := Run.queued_places hq
  have hover : r.isOver = true → r.waiting.map (·.1) = [] ∧ r.running.map (·.1) = [] := fun ho =>
    List.append_eq_nil_iff.mp (Run.isOver_iff.mp ho)
  have hall : r.isOver = true → (Run.queued workers tasks order).begun es = order.map (·.1) := fun ho => by
    rw [(hover ho).1, List.append_nil] at hbegun
    exact hbegun
  refine {
    length := List.length_map _
    own := fun place t ht => ⟨t.ending.outcome, by rw [List.getElem?_map, ht]; rfl, t.ending.yields_outcome⟩
    slots := hfollows.length
    filled := fun place out => hfollows.filled ((Run.IsBlank.queued hq).steps hfirst hs)
    onward := hfollows.onward hw
    bounded := ?bounded
    begun := fun ho => hall ho ▸ hplaces
    ended := fun ho => ?ended
    collected := fun ho => ?collected }
  case bounded =>
    have hlen := Run.length_le_left hs
    have hqueue : (Run.queued workers tasks order).left = 2 * tasks.length := by
      have := hplaces.length_eq
      simp only [List.length_map, List.length_range] at this
      simp [Run.left, Run.queued, Run.initial, this]
    omega
  case ended =>
    rw [(hover ho).2, hall ho, List.append_nil] at hended
    exact (hended.symm.trans (List.Perm.of_eq (List.append_nil _))).trans hplaces
  case collected =>
    rw [hfollows.collected ho, mapM_eq_some_iff, List.map_map, List.map_map]
    rfl

/-- Whose outcome a slot holds, for every order in which the tasks of a job ask for their permits and every order in which
they end. A job without tasks, and else one without workers, fails as a whole and nothing happens in it. Every other job
gives every slot to its own task, and so does the job in which one task has been replaced by another, with the same outcomes
in all other slots. -/
theorem slots_attributed (hq : order.Perm (Run.initial workers tasks).waiting)
    (hs : (Run.queued workers tasks order).steps? es = some r) :
    (tasks = [] → execute workers tasks = .error .emptyJob ∧ es = []) ∧
    (tasks ≠ [] → workers = 0 →
      execute workers tasks = .error (.config "fetch job needs at least one worker" (some "workers")) ∧ es = []) ∧
    (tasks ≠ [] → workers ≠ 0 → ∃ outs, execute workers tasks = .ok outs ∧
      (Run.queued workers tasks order).Attributed tasks es r outs ∧
      ∀ place t, ∃ outs', execute workers (tasks.set place t) = .ok outs' ∧
        (∀ other, other ≠ place → outs'[other]? = outs[other]?) ∧
        ∀ order' es' r', order'.Perm (Run.initial workers (tasks.set place t)).waiting →
          (Run.queued workers (tasks.set place t) order').steps? es' = some r' →
          (Run.queued workers (tasks.set place t) order').Attributed (tasks.set place t) es' r' outs') := by
  refine ⟨?empty, ?unstaffed, fun hne hw => ⟨_, execute_eq_ok hne hw, attributed_of_steps hw hq hs, fun place t => ?_⟩⟩
  case empty =>
    rintro rfl
    exact ⟨execute_nil workers, Run.steps_eq_nil hq (Or.inl rfl) hs⟩
  case unstaffed =>
    rintro hne rfl
    exact ⟨execute_zero hne, Run.steps_eq_nil hq (Or.inr rfl) hs⟩
  have hne' : tasks.set place t ≠ [] := by simpa using hne
  refine ⟨_, execute_eq_ok hne' hw, fun other hother => ?_, fun order' es' r' hq' hs' => attributed_of_steps hw hq' hs'⟩
  rw [List.getElem?_map, List.getElem?_map, List.getElem?_set_ne (Ne.symm hother)]

/-- A job of three tasks for two workers, of which the second crashes and the third fails. -/
def mixed : List (Task Nat) :=
  [⟨3, .value 5⟩, ⟨1, .crash⟩, ⟨2, .fault .emptyJob⟩]

/-- The third task gets the second permit, and the second task the permit that the third gives back; they all end in another
order than they have begun. -/
theorem slots_attributed_mixed :
    ∃ order es r, (Run.queued 2 mixed order).steps? es = some r ∧ r.isOver = true ∧
      (Run.queued 2 mixed order).begun es = [0, 2, 1] ∧ es.flatMap (·.ends) = [2, 1, 0] ∧
      (Run.queued 2 mixed order).Attributed mixed es r
        [.ok 5, .error (.taskFailed "task panicked"), .error .emptyJob] := by
  let order : List (Nat × Task Nat) := [(0, ⟨3, .value 5⟩), (2, ⟨2, .fault .emptyJob⟩), (1, ⟨1, .crash⟩)]
  let es : List Event := [.start, .start, .finish 2, .start, .finish 1, .finish 0]
  have hq : order.Perm (Run.initial 2 mixed).waiting := (List.Perm.swap _ _ _).cons _
  obtain ⟨r, hs, hover⟩ : ∃ r, (Run.queued 2 mixed order).steps? es = some r ∧ r.isOver = true := ⟨_, rfl, rfl⟩
  obtain ⟨outs, houts, hall, -⟩ := (slots_attributed hq hs).2.2 (by simp [mixed]) (by decide)
  obtain rfl := Except.ok.inj houts
  exact ⟨order, es, r, hs, hover, rfl, rfl, hall⟩

end ChannelWatch.Runner
