import ChannelWatch.Service.Loop

/-!
# Runs of a loop

Exactly when a loop begins a cycle, ends one or stops, and its prompt runs: those in which no time passes while the loop can go
on by itself (`Loop.Runs`). The refresh loop and the sweep loop are both such a loop, and differ in what a cycle does.
-/

namespace ChannelWatch.Loop

variable {l l' : Loop} {e : Event} {seconds : Nat}

/-! ## When a step is possible -/

/-- A cycle begins between two others as soon as a tick is due, and then the next tick is due an interval later. -/
theorem begin_eq_some_iff : l.step? .begin = some l' ↔ l.phase = .waiting ∧ l.due ≤ l.now ∧
    l' = { l with phase := .cycling, due := l.now + l.interval, begun := l.begun ++ [l.now] } := by
  simp only [step?, isDue, decide_eq_true_eq]
  constructor
  · intro h
    split at h
    · rename_i hready
      exact ⟨hready.1, hready.2, (Option.some.inj h).symm⟩
    · nomatch h
  · rintro ⟨hphase, hdue, rfl⟩
    exact if_pos ⟨hphase, hdue⟩

/-- A running cycle may end at any time and in any way. -/
theorem finish_eq_some_iff {outcome : CycleOutcome} : l.step? (.finish outcome) = some l' ↔
    l.phase = .cycling ∧ l' = { l with phase := .waiting, outcomes := l.outcomes ++ [outcome] } := by
  simp only [step?]
  constructor
  · intro h
    split at h
    · rename_i hphase
      exact ⟨hphase, (Option.some.inj h).symm⟩
    · nomatch h
  · rintro ⟨hphase, rfl⟩
    exact if_pos hphase

/-- A loop stops between cycles once it is cancelled. -/
theorem stop_eq_some_iff : l.step? .stop = some l' ↔
    l.phase = .waiting ∧ l.cancelled = true ∧ l' = { l with phase := .ended } := by
  simp only [step?]
  constructor
  · intro h
    split at h
    · rename_i hready
      exact ⟨hready.1, hready.2, (Option.some.inj h).symm⟩
    · nomatch h
  · rintro ⟨hphase, hcancelled, rfl⟩
    exact if_pos ⟨hphase, hcancelled⟩

/-! ## Prompt runs -/

/-- The loop can go on by itself: it stands between cycles, and a tick is due or it is cancelled. -/
def isReady (l : Loop) : Bool :=
  l.phase = .waiting ∧ (l.isDue ∨ l.cancelled)

/-- Time passes only while the loop cannot go on by itself. -/
def IsPrompt (l : Loop) : Event → Prop
  | .pass seconds => ∀ passed < seconds, isReady { l with now := l.now + passed } = false
  | .begin | .finish _ | .cancel | .stop => True

/-- Time may pass while a cycle runs and when all is over, and up to the next tick in between unless the loop is cancelled. -/
theorem isPrompt_pass_iff : l.IsPrompt (.pass seconds) ↔
    l.phase = .waiting → seconds = 0 ∨ l.cancelled = false ∧ l.now + seconds ≤ l.due := by
  simp only [IsPrompt, isReady, isDue, decide_eq_true_eq, decide_eq_false_iff_not, not_and, not_or, Bool.not_eq_true,
    Nat.not_le]
  constructor
  · intro h hphase
    cases seconds with
    | zero => exact Or.inl rfl
    | succ passed =>
      obtain ⟨hdue, hcancelled⟩ := h passed (Nat.lt_succ_self passed) hphase
      exact Or.inr ⟨hcancelled, hdue⟩
  · intro h passed hlt hphase
    rcases h hphase with rfl | ⟨hcancelled, hdue⟩
    · nomatch hlt
    · exact ⟨Nat.lt_of_lt_of_le (Nat.add_lt_add_left hlt l.now) hdue, hcancelled⟩

/-- A run in which each event is possible in its turn and prompt. -/
inductive Runs (first : Loop) : List Event → Loop → Prop
  | nil : Runs first [] first
  | snoc {events : List Event} {l l' : Loop} {e : Event} (before : Runs first events l) (prompt : l.IsPrompt e)
      (step : l.step? e = some l') : Runs first (events ++ [e]) l'

namespace Runs

variable {first : Loop} {events more : List Event}

/-- A run goes on from where another one has led. -/
theorem append (h : first.Runs events l) (hmore : l.Runs more l') : first.Runs (events ++ more) l' := by
  induction hmore with
  | nil => rwa [List.append_nil]
  | snoc _ prompt step ih =>
    rw [← List.append_assoc]
    exact ih.snoc prompt step

theorem single (prompt : l.IsPrompt e) (step : l.step? e = some l') : l.Runs [e] l' :=
  nil.snoc prompt step

end Runs

end ChannelWatch.Loop
