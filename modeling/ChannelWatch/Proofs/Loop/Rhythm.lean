import ChannelWatch.Proofs.Loop.Runs
import Mathlib.Algebra.GroupWithZero.Nat

/-!
# The rhythm of a loop

Each cycle of a loop that is not cancelled begins one interval after the one before began, or when this one is over if it takes
longer (`rhythm_kept`). What the events of a run tell of the cycles is read off them alone (`CycleLog`); the invariant
`Loop.InRhythm` says where the loop stands by the log, and the time at which a cycle begins is a sum over the lengths of all
before it (`Loop.beginning`).
-/

namespace ChannelWatch.Loop

/-! ## What the events tell of the cycles -/

/-- How long each cycle that is over took and how it ended, and how long the running one has taken so far. -/
structure CycleLog where
  past : List (Nat × CycleOutcome)
  running : Option Nat

/-- How long the cycles that are over took. -/
def CycleLog.lengths (log : CycleLog) : List Nat :=
  log.past.map (·.1)

/-- The log after an event. -/
def CycleLog.next (log : CycleLog) : Event → CycleLog
  | .begin => { log with running := some 0 }
  | .pass seconds => { log with running := log.running.map (· + seconds) }
  | .finish outcome => ⟨log.past ++ (log.running.map fun length => (length, outcome)).toList, none⟩
  | .cancel | .stop => log

/-- The log of a list of events. -/
def cycleLog (events : List Event) : CycleLog :=
  events.foldl CycleLog.next ⟨[], none⟩

theorem cycleLog_snoc (events : List Event) (e : Event) : cycleLog (events ++ [e]) = (cycleLog events).next e := by
  rw [cycleLog, List.foldl_append]
  rfl

/-! ## When the cycles begin -/

/-- When the next cycle begins after cycles of some lengths. -/
def beginning (interval start : Nat) (lengths : List Nat) : Nat :=
  start + (lengths.map (max interval)).sum

/-- When each of some cycles begins. -/
def beginnings (interval start : Nat) (lengths : List Nat) : List Nat :=
  (List.range lengths.length).map fun k => beginning interval start (lengths.take k)

variable {interval start : Nat}

theorem beginning_snoc (lengths : List Nat) (length : Nat) :
    beginning interval start (lengths ++ [length]) = beginning interval start lengths + max interval length := by
  simp [beginning, Nat.add_assoc]

/-- One more cycle changes nothing about when those before it begin. -/
theorem beginnings_snoc (lengths : List Nat) (length : Nat) :
    beginnings interval start (lengths ++ [length]) =
      beginnings interval start lengths ++ [beginning interval start lengths] := by
  have hbefore : ∀ k ∈ List.range lengths.length, beginning interval start ((lengths ++ [length]).take k) =
      beginning interval start (lengths.take k) := by
    intro k hk
    rw [List.take_append_of_le_length (Nat.le_of_lt (List.mem_range.mp hk))]
  simp only [beginnings, List.length_append, List.length_singleton, List.range_succ, List.map_append, List.map_cons,
    List.map_nil]
  rw [List.map_congr_left hbefore, List.take_left]

/-- A cycle begins an interval after the one before it, or at its end. -/
theorem beginning_take_succ {lengths : List Nat} {k length : Nat} (h : lengths[k]? = some length) :
    beginning interval start (lengths.take (k + 1)) = beginning interval start (lengths.take k) + max interval length := by
  rw [List.take_add_one, h]
  exact beginning_snoc _ _

/-! ## The invariant -/

/-- Where a loop that began at some time stands after the events that a log tells of. -/
structure InRhythm (interval start : Nat) (log : CycleLog) (l : Loop) : Prop where
  paced : l.interval = interval
  wanted : l.cancelled = false
  outcomes : l.outcomes = log.past.map (·.2)
  waiting : log.running = none → l.phase = .waiting ∧ l.begun = beginnings interval start log.lengths ∧
    max l.due l.now = beginning interval start log.lengths
  cycling : ∀ length, log.running = some length → l.phase = .cycling ∧
    l.begun = beginnings interval start log.lengths ++ [beginning interval start log.lengths] ∧
    l.now = beginning interval start log.lengths + length ∧ l.due = beginning interval start log.lengths + interval

namespace InRhythm

variable {log : CycleLog} {l l' : Loop}

/-- A loop that has just been started is in rhythm. -/
theorem of_start {first : Loop} (h : start? interval start false = some first) : InRhythm interval start ⟨[], none⟩ first := by
  simp only [start?] at h
  split at h
  · nomatch h
  · obtain rfl := Option.some.inj h
    exact ⟨rfl, rfl, rfl, fun _ => ⟨rfl, rfl, Nat.max_self start⟩, nofun⟩

theorem running_eq_none (h : InRhythm interval start log l) (hphase : l.phase = .waiting) : log.running = none := by
  cases hr : log.running with
  | none => rfl
  | some length => nomatch hphase.symm.trans (h.cycling length hr).1

theorem running_eq_some (h : InRhythm interval start log l) (hphase : l.phase = .cycling) :
    ∃ length, log.running = some length := by
  cases hr : log.running with
  | none => nomatch hphase.symm.trans (h.waiting hr).1
  | some length => exact ⟨length, rfl⟩

/-- Time that passes promptly never passes the next beginning. -/
theorem pass (h : InRhythm interval start log l) {seconds : Nat} (hprompt : l.IsPrompt (.pass seconds)) :
    InRhythm interval start (log.next (.pass seconds)) { l with now := l.now + seconds } where
  paced := h.paced
  wanted := h.wanted
  outcomes := h.outcomes
  waiting := by
    intro hr
    obtain ⟨hphase, hbegun, hnext⟩ := h.waiting (Option.map_eq_none_iff.mp hr)
    refine ⟨hphase, hbegun, hnext ▸ ?_⟩
    rcases isPrompt_pass_iff.mp hprompt hphase with rfl | ⟨-, hdue⟩
    · rfl
    · simp only
      omega
  cycling := by
    intro length hr
    obtain ⟨sofar, hsofar, rfl⟩ := Option.map_eq_some_iff.mp hr
    obtain ⟨hphase, hbegun, hnow, hdue⟩ := h.cycling sofar hsofar
    exact ⟨hphase, hbegun, by simp only [hnow, Nat.add_assoc]; rfl, hdue⟩

/-- The next cycle begins when it has to. -/
theorem begin (h : InRhythm interval start log l) (hs : l.step? .begin = some l') :
    InRhythm interval start (log.next .begin) l' := by
  obtain ⟨hphase, hdue, rfl⟩ := begin_eq_some_iff.mp hs
  obtain ⟨-, hbegun, hnext⟩ := h.waiting (h.running_eq_none hphase)
  have hnow : l.now = beginning interval start log.lengths := (Nat.max_eq_right hdue).symm.trans hnext
  refine ⟨h.paced, h.wanted, h.outcomes, nofun, fun length hr => ?_⟩
  obtain rfl : 0 = length := Option.some.inj hr
  exact ⟨rfl, by rw [hbegun, hnow]; rfl, hnow, by rw [hnow, h.paced]; rfl⟩

/-- The end of a cycle is when the next one has to begin, if the interval is over by then. -/
theorem finish (h : InRhythm interval start log l) {outcome : CycleOutcome} (hs : l.step? (.finish outcome) = some l') :
    InRhythm interval start (log.next (.finish outcome)) l' := by
  obtain ⟨hphase, rfl⟩ := finish_eq_some_iff.mp hs
  obtain ⟨length, hr⟩ := h.running_eq_some hphase
  obtain ⟨-, hbegun, hnow, hdue⟩ := h.cycling length hr
  have hpast : (log.next (.finish outcome)).past = log.past ++ [(length, outcome)] := by simp [CycleLog.next, hr]
  have hlengths : (log.next (.finish outcome)).lengths = log.lengths ++ [length] := by simp [CycleLog.lengths, hpast]
  refine ⟨h.paced, h.wanted, by simp [hpast, h.outcomes], fun _ => ⟨rfl, ?_, ?_⟩, nofun⟩
  · rw [hlengths, beginnings_snoc, hbegun]
  · rw [hlengths, beginning_snoc, hnow, hdue]
    exact (Nat.add_max_add_left ..)

/-- Every prompt step but cancelling keeps the loop in rhythm. -/
theorem step (h : InRhythm interval start log l) {e : Event} (hprompt : l.IsPrompt e) (hs : l.step? e = some l')
    (hcancel : e ≠ .cancel) : InRhythm interval start (log.next e) l' := by
  cases e with
  | pass seconds =>
    obtain rfl := Option.some.inj hs
    exact h.pass hprompt
  | begin => exact h.begin hs
  | finish outcome => exact h.finish hs
  | cancel => exact absurd rfl hcancel
  | stop =>
    obtain ⟨-, hcancelled, -⟩ := stop_eq_some_iff.mp hs
    nomatch h.wanted.symm.trans hcancelled

end InRhythm

/-- A prompt run of a loop that is not cancelled keeps it in rhythm. -/
theorem Runs.inRhythm {first l : Loop} {events : List Event} (h : first.Runs events l)
    (hfirst : InRhythm interval start ⟨[], none⟩ first) (hcancel : Event.cancel ∉ events) :
    InRhythm interval start (cycleLog events) l := by
  induction h with
  | nil => exact hfirst
  | snoc _ prompt step ih =>
    rw [cycleLog_snoc]
    refine (ih fun hmem => hcancel (List.mem_append_left _ hmem)).step prompt step ?_
    rintro rfl
    exact hcancel (List.mem_append_right _ (List.mem_singleton_self _))

/-! ## Cycles one after another -/

variable {l : Loop}

theorem due_le_remaining (l : Loop) : l.due ≤ l.now + l.remaining := by
  rw [remaining]
  omega

/-- The wait for the next tick passes promptly. -/
theorem isPrompt_remaining (hwanted : l.cancelled = false) : l.IsPrompt (.pass l.remaining) := by
  refine isPrompt_pass_iff.mpr fun _ => ?_
  by_cases hlate : l.due ≤ l.now
  · exact Or.inl (Nat.sub_eq_zero_of_le hlate)
  · exact Or.inr ⟨hwanted, by rw [remaining]; omega⟩

theorem le_remaining {seconds : Nat} (hphase : l.phase = .waiting) (h : l.IsPrompt (.pass seconds)) :
    seconds ≤ l.remaining := by
  rw [remaining]
  rcases isPrompt_pass_iff.mp h hphase with rfl | ⟨-, hdue⟩
  · exact Nat.zero_le _
  · omega

/-- Between cycles, a loop that is not cancelled runs a cycle of any length as soon as its tick is due, and then waits for the
next tick. -/
theorem cycle?_runs (hphase : l.phase = .waiting) (hdue : l.due ≤ l.now) (hwanted : l.cancelled = false) (length : Nat)
    (outcome : CycleOutcome) : ∃ wait l', l.cycle? length outcome = some l' ∧
      l.Runs [.begin, .pass length, .finish outcome, .pass wait] l' ∧ l'.phase = .waiting ∧ l'.due ≤ l'.now ∧
      l'.cancelled = false := by
  let begun : Loop := { l with phase := .cycling, due := l.now + l.interval, begun := l.begun ++ [l.now] }
  let idle : Loop := { begun with now := l.now + length, phase := .waiting, outcomes := l.outcomes ++ [outcome] }
  have hbegin : l.step? .begin = some begun := begin_eq_some_iff.mpr ⟨hphase, hdue, rfl⟩
  have hpass : begun.IsPrompt (.pass length) := isPrompt_pass_iff.mpr nofun
  have hfinish : ({ begun with now := l.now + length } : Loop).step? (.finish outcome) = some idle :=
    finish_eq_some_iff.mpr ⟨rfl, rfl⟩
  refine ⟨idle.remaining, { idle with now := idle.now + idle.remaining }, ?_, ?_, rfl, due_le_remaining idle, hwanted⟩
  · simp only [cycle?, steps?, hbegin, Option.bind_some]
    rfl
  · have hcycle := ((Runs.single (e := .begin) trivial hbegin).snoc hpass rfl).snoc (e := .finish outcome) trivial hfinish
    exact hcycle.snoc (isPrompt_remaining hwanted) rfl

/-- Cycles of any lengths, ended in any way, follow one another in a prompt run, which tells of them. -/
theorem cycles?_runs (cycles : List (Nat × CycleOutcome)) (hphase : l.phase = .waiting) (hdue : l.due ≤ l.now)
    (hwanted : l.cancelled = false) (past : List (Nat × CycleOutcome)) : ∃ events l', l.cycles? cycles = some l' ∧
      l.Runs events l' ∧ Event.cancel ∉ events ∧ events.foldl CycleLog.next ⟨past, none⟩ = ⟨past ++ cycles, none⟩ := by
  induction cycles generalizing l past with
  | nil => exact ⟨[], l, rfl, .nil, nofun, by simp⟩
  | cons cycle rest ih =>
    obtain ⟨length, outcome⟩ := cycle
    obtain ⟨wait, m, hcycle, hruns, hphase', hdue', hwanted'⟩ := cycle?_runs hphase hdue hwanted length outcome
    obtain ⟨events, l', hcycles, hrest, hcancel, hlog⟩ := ih hphase' hdue' hwanted' (past ++ [(length, outcome)])
    refine ⟨_, l', ?_, hruns.append hrest, by simpa using hcancel, ?_⟩
    · rw [cycles?, hcycle, Option.bind_some, hcycles]
    · rw [List.foldl_append]
      simpa [CycleLog.next] using hlog

/-! ## The rhythm -/

/-- What a loop that began at some time has done by the end of a run, and what it does next. -/
structure KeepsRhythm (interval start : Nat) (events : List Event) (l : Loop) : Prop where
  /-- However a cycle ends, the loop goes on. -/
  lasts : l.phase ≠ .ended
  outcomes : l.outcomes = (cycleLog events).past.map (·.2)
  /-- A cycle begins only when all before it are over. -/
  alone : l.begun.length = (cycleLog events).past.length + if l.phase = .cycling then 1 else 0
  first : ∀ time, l.begun[0]? = some time → time = start
  /-- A cycle begins an interval after the one before, or at its end if it takes longer. -/
  spaced : ∀ k time next, l.begun[k]? = some time → l.begun[k + 1]? = some next →
    ∃ length, (cycleLog events).lengths[k]? = some length ∧ next = time + max interval length
  /-- Between cycles the loop waits for a time after which the next cycle begins, and no more time passes before it does. -/
  resumes : l.phase = .waiting → ∃ wait, (∃ next, l.Runs [.pass wait, .begin] next) ∧
    ∀ seconds, l.IsPrompt (.pass seconds) → seconds ≤ wait

namespace InRhythm

variable {log : CycleLog}

/-- The cycles of a loop in rhythm are those that are over and the running one, and each has begun when it had to. -/
theorem begun_eq (h : InRhythm interval start log l) {k time : Nat} (hk : l.begun[k]? = some time) :
    k ≤ log.lengths.length ∧ time = beginning interval start (log.lengths.take k) := by
  have hall : l.begun = beginnings interval start log.lengths ∨ l.begun = beginnings interval start (log.lengths ++ [0]) := by
    rw [beginnings_snoc]
    cases hr : log.running with
    | none => exact Or.inl (h.waiting hr).2.1
    | some length => exact Or.inr (h.cycling length hr).2.1
  have hat : ∀ lengths : List Nat, (beginnings interval start lengths)[k]? = some time →
      k < lengths.length ∧ time = beginning interval start (lengths.take k) := by
    intro lengths hget
    obtain ⟨j, hj, rfl⟩ := Option.map_eq_some_iff.mp (List.getElem?_map .. ▸ hget)
    obtain ⟨hlt, rfl⟩ := List.getElem?_eq_some_iff.mp hj
    simp only [List.length_range] at hlt
    simpa using hlt
  rcases hall with heq | heq
  · obtain ⟨hlt, htime⟩ := hat _ (heq ▸ hk)
    exact ⟨Nat.le_of_lt hlt, htime⟩
  · obtain ⟨hlt, htime⟩ := hat _ (heq ▸ hk)
    rw [List.length_append, List.length_singleton] at hlt
    rw [List.take_append_of_le_length (Nat.le_of_lt_succ hlt)] at htime
    exact ⟨Nat.le_of_lt_succ hlt, htime⟩

/-- A loop in rhythm has begun one cycle more than are over while a cycle runs. -/
theorem length_begun (h : InRhythm interval start log l) :
    l.begun.length = log.past.length + if l.phase = .cycling then 1 else 0 := by
  have hlengths : (beginnings interval start log.lengths).length = log.past.length := by simp [beginnings, CycleLog.lengths]
  cases hr : log.running with
  | none =>
    obtain ⟨hphase, hbegun, -⟩ := h.waiting hr
    simp [hphase, hbegun, hlengths]
  | some length =>
    obtain ⟨hphase, hbegun, -⟩ := h.cycling length hr
    simp [hphase, hbegun, hlengths]

/-- Where the loop is in rhythm by the log of some events, it has kept the rhythm and goes on to keep it. -/
theorem keepsRhythm {events : List Event} (h : InRhythm interval start (cycleLog events) l) :
    l.KeepsRhythm interval start events where
  lasts := by
    cases hr : (cycleLog events).running with
    | none => exact fun hended => nomatch hended.symm.trans (h.waiting hr).1
    | some length => exact fun hended => nomatch hended.symm.trans (h.cycling length hr).1
  outcomes := h.outcomes
  alone := h.length_begun
  first := fun time hk => (h.begun_eq hk).2
  spaced := by
    intro k time next hk hnext
    obtain ⟨hle, rfl⟩ := h.begun_eq hnext
    obtain ⟨-, rfl⟩ := h.begun_eq hk
    have hlength := List.getElem?_eq_getElem (Nat.lt_of_succ_le hle)
    exact ⟨_, hlength, beginning_take_succ hlength⟩
  resumes := by
    intro hphase
    have hpass := isPrompt_remaining h.wanted
    have hbegin : ({ l with now := l.now + l.remaining } : Loop).step? .begin = some _ :=
      begin_eq_some_iff.mpr ⟨hphase, due_le_remaining l, rfl⟩
    exact ⟨l.remaining, ⟨_, (Runs.single hpass rfl).snoc trivial hbegin⟩, fun seconds => le_remaining hphase⟩

end InRhythm

/-- A loop with an interval, as long as it is not cancelled, keeps its rhythm in every prompt run; and cycles of any lengths
that end in any way make such a run. -/
theorem rhythm_kept (hinterval : 0 < interval) : ∃ first, start? interval start false = some first ∧
    (∀ events l, first.Runs events l → Event.cancel ∉ events → l.KeepsRhythm interval start events) ∧
    ∀ cycles, ∃ events l, first.cycles? cycles = some l ∧ first.Runs events l ∧ Event.cancel ∉ events ∧
      (cycleLog events).past = cycles := by
  let first : Loop := ⟨interval, start, start, .waiting, false, [], []⟩
  have hfirst : start? interval start false = some first := if_neg (Nat.ne_of_gt hinterval)
  refine ⟨first, hfirst, fun events l hruns hcancel => ?_, fun cycles => ?_⟩
  · exact (hruns.inRhythm (.of_start hfirst) hcancel).keepsRhythm
  · obtain ⟨events, l, hcycles, hruns, hcancel, hlog⟩ := cycles?_runs (l := first) cycles rfl (Nat.le_refl start) rfl []
    exact ⟨events, l, hcycles, hruns, hcancel, congrArg CycleLog.past hlog⟩

/-- A quick cycle that fails is followed by one an interval later, and a slow one by the next at its end. -/
theorem rhythm_kept_slow : ∃ first events l, start? 10 5 false = some first ∧
    first.cycles? [(3, .failed), (25, .partly), (0, .full)] = some l ∧ first.Runs events l ∧ l.begun = [5, 15, 40] ∧
    l.now = 50 ∧ l.KeepsRhythm 10 5 events := by
  obtain ⟨first, hfirst, hkept, hmade⟩ := @rhythm_kept 10 5 (by decide)
  obtain ⟨events, l, hcycles, hruns, hcancel, -⟩ := hmade [(3, .failed), (25, .partly), (0, .full)]
  refine ⟨first, events, l, hfirst, hcycles, hruns, ?_, ?_, hkept events l hruns hcancel⟩
  · obtain rfl := Option.some.inj hfirst
    obtain rfl := Option.some.inj hcycles
    rfl
  · obtain rfl := Option.some.inj hfirst
    obtain rfl := Option.some.inj hcycles
    rfl

end ChannelWatch.Loop
