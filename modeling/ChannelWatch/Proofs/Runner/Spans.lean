import ChannelWatch.Runner.Schedule
import Mathlib.Data.List.Count

/-!
# What the spans of a job are

Every span is the next after those before it (`successive_spans`): its task begins once all of these have begun, and as soon as
one of the permits is free. That is all that decides how many tasks run in a second: never more than there are permits
(`Successive.runningAt_le`), and all of the permits are out as long as some task has not begun (`Successive.runningAt_eq`).

The invariant of `place` (`Placed`) says that the list of permits that are out tells the spans placed so far: from the second
in which the next task begins, those still running are those whose permits come back later.
-/

namespace ChannelWatch.Runner

variable {permits : Nat} {done all : List Span} {out durations : List Nat} {s : Span}

/-- The second in which the next task begins, for the permits that are out. -/
def nextStart (permits : Nat) (out : List Nat) : Nat :=
  if out.length < permits then 0 else out.min?.getD 0

/-- When the permits come back that are out after the next task has begun. -/
def nextOut (permits : Nat) (out : List Nat) (duration : Nat) : List Nat :=
  (nextStart permits out + duration) :: if out.length < permits then out else out.erase (nextStart permits out)

/-- A span is the next after those of `done`: none of these begins after it, and a permit is free from its start on and not
before. -/
structure Span.IsNext (permits : Nat) (done : List Span) (s : Span) : Prop where
  after : ∀ x ∈ done, x.start ≤ s.start
  busy : ∀ second, second < s.start → runningAt done second = permits
  free : ∀ second, s.start ≤ second → runningAt done second < permits

/-- Every span is the next after those before it. -/
def Successive (permits : Nat) (all : List Span) : Prop :=
  ∀ (k : Nat) (s : Span), all[k]? = some s → s.IsNext permits (all.take k)

/-- What the list of the permits that are out tells of the spans that have been placed. -/
structure Placed (permits : Nat) (done : List Span) (out : List Nat) : Prop where
  length : out.length ≤ permits
  begun : ∀ x ∈ done, x.start ≤ nextStart permits out
  busy : ∀ second, second < nextStart permits out → runningAt done second = permits
  later : ∀ second, nextStart permits out ≤ second → runningAt done second = out.countP (second < ·)

theorem place_cons (permits : Nat) (out : List Nat) (duration : Nat) (rest : List Nat) :
    place permits out (duration :: rest) = ⟨nextStart permits out, nextStart permits out + duration⟩ ::
      place permits (nextOut permits out duration) rest := by
  rw [place, nextOut, nextStart]
  split <;> simp

theorem runningAt_append (l₁ l₂ : List Span) (second : Nat) :
    runningAt (l₁ ++ l₂) second = runningAt l₁ second + runningAt l₂ second :=
  List.countP_append

theorem runningAt_singleton (s : Span) (second : Nat) :
    runningAt [s] second = if s.start ≤ second ∧ second < s.stop then 1 else 0 := by
  simp [runningAt, List.countP_singleton]

theorem runningAt_eq_zero {second : Nat} (h : ∀ x ∈ done, second < x.start) : runningAt done second = 0 := by
  refine List.countP_eq_zero.mpr fun x hx => ?_
  have := h x hx
  simp only [Bool.and_eq_true, decide_eq_true_eq, not_and]
  omega

/-- When all permits are out, the next task begins in a second in which one of them comes back, and none comes back before. -/
theorem nextStart_spec (hp : permits ≠ 0) (hfull : permits ≤ out.length) :
    nextStart permits out ∈ out ∧ ∀ stop ∈ out, nextStart permits out ≤ stop := by
  have hne : out ≠ [] := fun hnil => by
    rw [hnil, List.length_nil] at hfull
    omega
  obtain ⟨a, ha⟩ := Option.ne_none_iff_exists'.mp fun hnone => hne (List.min?_eq_none_iff.mp hnone)
  rw [nextStart, if_neg (Nat.not_lt.mpr hfull), ha, Option.getD_some]
  exact List.min?_eq_some_iff.mp ha

/-- The permit that the next task takes has come back by then, so the others are those that come back later. -/
theorem countP_nextOut {second : Nat} (hsecond : nextStart permits out ≤ second) (duration : Nat) :
    (nextOut permits out duration).countP (second < ·) =
      out.countP (second < ·) + if second < nextStart permits out + duration then 1 else 0 := by
  rw [nextOut, List.countP_cons]
  have hrest : (if out.length < permits then out else out.erase (nextStart permits out)).countP (second < ·) =
      out.countP (second < ·) := by
    split
    · rfl
    · rw [List.countP_erase, if_neg (by simp; omega), Nat.sub_zero]
  rw [hrest]
  simp

namespace Placed

theorem nil (permits : Nat) : Placed permits [] [] := by
  have hzero : nextStart permits [] = 0 := by simp [nextStart]
  exact ⟨Nat.zero_le _, fun x hx => absurd hx List.not_mem_nil, fun second hlt => by omega, fun second _ => rfl⟩

/-- A task is placed next. -/
theorem isNext (h : Placed permits done out) (hp : permits ≠ 0) (duration : Nat) :
    Span.IsNext permits done ⟨nextStart permits out, nextStart permits out + duration⟩ := by
  refine ⟨h.begun, h.busy, fun second hsecond => ?_⟩
  rw [h.later second hsecond]
  rcases Nat.lt_or_ge out.length permits with hlt | hge
  · exact Nat.lt_of_le_of_lt List.countP_le_length hlt
  · -- the permit that comes back for this task is not out any more
    have hback := (nextStart_spec hp hge).1
    have hlt : out.countP (second < ·) < out.length :=
      List.countP_lt_length_iff.mpr ⟨_, hback, decide_eq_false (Nat.not_lt.mpr hsecond)⟩
    exact Nat.lt_of_lt_of_le hlt h.length

/-- The next task takes one of the permits. -/
theorem length_nextOut_le (hp : permits ≠ 0) (hlen : out.length ≤ permits) (duration : Nat) :
    (nextOut permits out duration).length ≤ permits := by
  rw [nextOut, List.length_cons]
  split
  · omega
  · rename_i hge
    rw [List.length_erase_of_mem (nextStart_spec hp (Nat.not_lt.mp hge)).1]
    omega

/-- The tasks begin one after the other. -/
theorem nextStart_le_nextOut (hp : permits ≠ 0) (duration : Nat) :
    nextStart permits out ≤ nextStart permits (nextOut permits out duration) := by
  rcases Nat.lt_or_ge out.length permits with hlt | hge
  · rw [nextStart, if_pos hlt]
    exact Nat.zero_le _
  · have hback := nextStart_spec hp hge
    have hlen : permits ≤ (nextOut permits out duration).length := by
      rw [nextOut, if_neg (Nat.not_lt.mpr hge), List.length_cons, List.length_erase_of_mem hback.1]
      omega
    have hmem := (nextStart_spec hp hlen).1
    rw [nextOut, if_neg (Nat.not_lt.mpr hge)] at hmem
    rcases List.mem_cons.mp hmem with heq | hmem
    · rw [nextOut, if_neg (Nat.not_lt.mpr hge), heq]
      exact Nat.le_add_right _ _
    · rw [nextOut, if_neg (Nat.not_lt.mpr hge)]
      exact hback.2 _ (List.mem_of_mem_erase hmem)

/-- The list of the permits that are out still tells the spans when one more task has been placed. -/
theorem step (h : Placed permits done out) (hp : permits ≠ 0) (duration : Nat) :
    Placed permits (done ++ [⟨nextStart permits out, nextStart permits out + duration⟩]) (nextOut permits out duration) := by
  have hmono : nextStart permits out ≤ nextStart permits (nextOut permits out duration) :=
    nextStart_le_nextOut hp duration
  -- from the start of this task on, it runs beside those that ran before
  have hlater : ∀ second, nextStart permits out ≤ second →
      runningAt (done ++ [⟨nextStart permits out, nextStart permits out + duration⟩]) second =
        (nextOut permits out duration).countP (second < ·) := by
    intro second hsecond
    rw [runningAt_append, h.later second hsecond, countP_nextOut hsecond, runningAt_singleton]
    simp [hsecond]
  refine ⟨length_nextOut_le hp h.length duration, ?begun, fun second hsecond => ?busy,
    fun second hsecond => hlater second (Nat.le_trans hmono hsecond)⟩
  case begun =>
    intro x hx
    rcases List.mem_append.mp hx with hx | hx
    · exact Nat.le_trans (h.begun x hx) hmono
    · rw [List.mem_singleton.mp hx]
      exact hmono
  case busy =>
    rcases Nat.lt_or_ge second (nextStart permits out) with hlt | hge
    · rw [runningAt_append, h.busy second hlt, runningAt_singleton, if_neg (by simp; omega), Nat.add_zero]
    · -- all permits are out, and they come back after this second
      rw [hlater second hge]
      have hfull : permits ≤ (nextOut permits out duration).length := by
        by_contra hlt
        rw [nextStart, if_pos (Nat.not_le.mp hlt)] at hsecond
        exact absurd hsecond (Nat.not_lt_zero _)
      have hall : (nextOut permits out duration).countP (second < ·) = (nextOut permits out duration).length :=
        List.countP_eq_length.mpr fun stop hstop =>
          decide_eq_true (Nat.lt_of_lt_of_le hsecond ((nextStart_spec hp hfull).2 stop hstop))
      exact hall.trans (Nat.le_antisymm (length_nextOut_le hp h.length duration) hfull)

/-- Every task that is placed is the next after those before it. -/
theorem isNext_place (h : Placed permits done out) (hp : permits ≠ 0) {k : Nat}
    (hs : (place permits out durations)[k]? = some s) : s.IsNext permits (done ++ (place permits out durations).take k) := by
  induction durations generalizing done out k with
  | nil => nomatch hs
  | cons duration rest ih =>
    rw [place_cons] at hs ⊢
    cases k with
    | zero =>
      obtain rfl := Option.some.inj hs
      rw [List.take_zero, List.append_nil]
      exact h.isNext hp duration
    | succ k =>
      rw [List.take_succ_cons, List.append_cons]
      exact ih (h.step hp duration) hs

end Placed

/-- The spans of a job are each the next after those before it. -/
theorem successive_spans (hp : permits ≠ 0) (durations : List Nat) : Successive permits (spans permits durations) :=
  fun _ _ hs => (Placed.nil permits).isNext_place hp hs

/-- There is one span for each task. -/
theorem length_spans : (spans permits durations).length = durations.length := by
  suffices h : ∀ out, (place permits out durations).length = durations.length from h []
  intro out
  induction durations generalizing out with
  | nil => rfl
  | cons duration rest ih => rw [place_cons, List.length_cons, ih, List.length_cons]

/-- A task is over when it has run for its duration. -/
theorem stop_spans {k duration : Nat} (hd : durations[k]? = some duration) (hs : (spans permits durations)[k]? = some s) :
    s.stop = s.start + duration := by
  suffices h : ∀ out, (place permits out durations)[k]? = some s → s.stop = s.start + duration from h [] hs
  clear hs
  intro out hs
  induction durations generalizing out k with
  | nil => nomatch hd
  | cons first rest ih =>
    rw [place_cons] at hs
    cases k with
    | zero =>
      obtain rfl := Option.some.inj hs
      obtain rfl := Option.some.inj hd
      rfl
    | succ k => exact ih hd _ hs

namespace Successive

/-- Spans of which each is the next begin in order. -/
theorem starts_le (h : Successive permits all) {i j : Nat} {s t : Span} (hs : all[i]? = some s) (ht : all[j]? = some t)
    (hij : i ≤ j) :
    s.start ≤ t.start := by
  rcases Nat.lt_or_eq_of_le hij with hlt | rfl
  · refine (h j t ht).after s (List.mem_iff_getElem?.mpr ⟨i, ?_⟩)
    rw [List.getElem?_take_of_lt hlt, hs]
  · rw [hs] at ht
    exact Nat.le_of_eq (congrArg Span.start (Option.some.inj ht))

/-- Of the spans that are each the next, no more overlap than there are permits. -/
theorem runningAt_le (h : Successive permits all) (second : Nat) : runningAt all second ≤ permits := by
  suffices htake : ∀ k, runningAt (all.take k) second ≤ permits by
    have := htake all.length
    rwa [List.take_length] at this
  intro k
  induction k with
  | zero => exact Nat.zero_le _
  | succ k ih =>
    rw [List.take_add_one, runningAt_append]
    cases hs : all[k]? with
    | none => exact ih
    | some s =>
      rw [Option.toList_some, runningAt_singleton]
      rcases Nat.lt_or_ge second s.start with hlt | hge
      · rw [if_neg (by omega)]
        exact ih
      · have := (h k s hs).free second hge
        split <;> omega

/-- As long as a task has not begun, all permits are out. -/
theorem runningAt_eq (h : Successive permits all) (hs : s ∈ all) {second : Nat} (hlt : second < s.start) :
    runningAt all second = permits := by
  obtain ⟨k, hk⟩ := List.mem_iff_getElem?.mp hs
  have hrest : runningAt (all.drop k) second = 0 := by
    refine runningAt_eq_zero fun x hx => ?_
    obtain ⟨j, hj⟩ := List.mem_iff_getElem?.mp hx
    rw [List.getElem?_drop] at hj
    exact Nat.lt_of_lt_of_le hlt (h.starts_le hk hj (Nat.le_add_right k j))
  rw [← List.take_append_drop k all, runningAt_append, hrest, (h k s hk).busy second hlt, Nat.add_zero]

/-- As long as there are permits, the tasks begin at once. -/
theorem start_eq_zero (h : Successive permits all) {k : Nat} (hk : k < permits) (hs : all[k]? = some s) : s.start = 0 := by
  by_contra hne
  have hbusy := (h k s hs).busy 0 (Nat.pos_of_ne_zero hne)
  have hle : runningAt (all.take k) 0 ≤ (all.take k).length := List.countP_le_length
  have := List.length_take_le k all
  omega

/-- When every task takes its time and there are no more permits than tasks, all permits are out at the start. -/
theorem runningAt_zero (h : Successive permits all) (hlen : permits ≤ all.length) (hstop : ∀ s ∈ all, s.start < s.stop) :
    runningAt all 0 = permits := by
  refine Nat.le_antisymm (h.runningAt_le 0) ?_
  have hfirst : runningAt (all.take permits) 0 = permits := by
    refine (List.countP_eq_length.mpr fun s hs => ?_).trans (List.length_take_of_le hlen)
    obtain ⟨k, hk⟩ := List.mem_iff_getElem?.mp hs
    have hlt : k < permits := Nat.lt_of_lt_of_le (List.getElem?_eq_some_iff.mp hk).1 (List.length_take_le permits all)
    rw [List.getElem?_take_of_lt hlt] at hk
    have hzero := h.start_eq_zero hlt hk
    have := hstop s (List.mem_of_getElem? hk)
    simp only [Bool.and_eq_true, decide_eq_true_eq]
    omega
  rw [← List.take_append_drop permits all, runningAt_append, hfirst]
  exact Nat.le_add_right _ _

/-- The peak is the number of permits. -/
theorem peak_eq (h : Successive permits all) (hne : all ≠ []) (hp : permits ≠ 0) (hlen : permits ≤ all.length)
    (hstop : ∀ s ∈ all, s.start < s.stop) :
    peak all = permits := by
  obtain ⟨s, rest, rfl⟩ := List.exists_cons_of_ne_nil hne
  have hzero := h.start_eq_zero (Nat.pos_of_ne_zero hp) rfl
  have hmax : ((s :: rest).map fun t => runningAt (s :: rest) t.start).max? = some permits := by
    refine List.max?_eq_some_iff.mpr ⟨List.mem_map.mpr ⟨s, List.mem_cons_self, ?_⟩, fun n hn => ?_⟩
    · rw [hzero]
      exact h.runningAt_zero hlen hstop
    · obtain ⟨t, -, rfl⟩ := List.mem_map.mp hn
      exact h.runningAt_le t.start
  rw [peak, hmax]
  rfl

end Successive

end ChannelWatch.Runner
