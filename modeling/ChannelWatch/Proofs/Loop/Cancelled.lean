import ChannelWatch.Proofs.Loop.Runs
import ChannelWatch.Proofs.Places

/-!
# A loop that is cancelled

A loop that is cancelled stops between cycles, and no time passes before it does. Only where a tick is due at this moment
(`Loop.isTorn`) it may see the tick first and begin one more cycle: when the cycle that ran took longer than the interval
(`begins_after_cancel`), or when it was cancelled just as the tick came. Where it is never torn, no cycle begins any more
(`cancelled_winds_up`).
-/

namespace ChannelWatch.Loop

variable {l l' : Loop} {events : List Event} {e : Event}

/-- The loop stands between cycles and is cancelled, but a tick is due: it may stop, or begin one more cycle. -/
def isTorn (l : Loop) : Bool :=
  l.phase = .waiting ∧ l.cancelled ∧ l.isDue

/-- A cancelled loop begins a cycle only where it is torn. -/
theorem isTorn_of_begin (hc : l.cancelled = true) (hs : l.step? .begin = some l') : l.isTorn = true := by
  obtain ⟨hphase, hdue, -⟩ := begin_eq_some_iff.mp hs
  simp [isTorn, hphase, hc, isDue, hdue]

/-- A step neither takes a cancellation back nor revives a loop that has ended, and begins a cycle only by the event of its
beginning. -/
theorem frame_of_step? (hs : l.step? e = some l') : (l.cancelled = true → l'.cancelled = true) ∧
    (l.phase = .ended → l'.phase = .ended) ∧ (e = .begin ∧ l'.begun = l.begun ++ [l.now] ∨ l'.begun = l.begun) := by
  cases e with
  | pass seconds =>
    obtain rfl := Option.some.inj hs
    exact ⟨id, id, Or.inr rfl⟩
  | begin =>
    obtain ⟨hphase, -, rfl⟩ := begin_eq_some_iff.mp hs
    exact ⟨id, fun hended => (nomatch hended.symm.trans hphase), Or.inl ⟨rfl, rfl⟩⟩
  | finish outcome =>
    obtain ⟨hphase, rfl⟩ := finish_eq_some_iff.mp hs
    exact ⟨id, fun hended => (nomatch hended.symm.trans hphase), Or.inr rfl⟩
  | cancel =>
    obtain rfl := Option.some.inj hs
    exact ⟨fun _ => rfl, id, Or.inr rfl⟩
  | stop =>
    obtain ⟨-, -, rfl⟩ := stop_eq_some_iff.mp hs
    exact ⟨id, fun _ => rfl, Or.inr rfl⟩

namespace Runs

/-- A cancelled loop stays cancelled in a run. -/
theorem cancelled (h : l.Runs events l') (hc : l.cancelled = true) : l'.cancelled = true := by
  induction h with
  | nil => exact hc
  | snoc _ _ step ih => exact (frame_of_step? step).1 ih

/-- A loop that has ended begins no cycle. -/
theorem ended (h : l.Runs events l') (hended : l.phase = .ended) : l'.phase = .ended ∧ l'.begun = l.begun := by
  induction h with
  | nil => exact ⟨hended, rfl⟩
  | snoc _ _ step ih =>
    obtain ⟨hphase, hbegun⟩ := ih
    obtain ⟨-, hended', hcases⟩ := frame_of_step? step
    refine ⟨hended' hphase, ?_⟩
    rcases hcases with ⟨rfl, -⟩ | hsame
    · obtain ⟨hwaiting, -⟩ := begin_eq_some_iff.mp step
      nomatch hphase.symm.trans hwaiting
    · exact hsame.trans hbegun

/-- Where a cycle begins in the run of a cancelled loop, the loop was torn. -/
theorem torn (h : l.Runs events l') (hc : l.cancelled = true) {before after : List Event}
    (hbegin : events = before ++ .begin :: after) : ∃ m, l.Runs before m ∧ m.isTorn = true := by
  induction h generalizing after with
  | nil => simp at hbegin
  | snoc hruns _ step ih =>
    rcases append_singleton_eq_append_cons hbegin with ⟨rest, hrest⟩ | ⟨rfl, rfl⟩
    · exact ih hrest
    · exact ⟨_, hruns, isTorn_of_begin (hruns.cancelled hc) step⟩

/-- Where a cancelled loop is never torn, no cycle begins. -/
theorem calm (h : l.Runs events l') (hc : l.cancelled = true)
    (hcalm : ∀ before m, before <+: events → l.Runs before m → m.isTorn = false) : l'.begun = l.begun := by
  induction h with
  | nil => rfl
  | snoc hruns _ step ih =>
    have hbefore := ih fun before m hinit => hcalm before m (hinit.trans (List.prefix_append _ _))
    rcases (frame_of_step? step).2.2 with ⟨rfl, -⟩ | hsame
    · have htorn := isTorn_of_begin (hruns.cancelled hc) step
      nomatch htorn.symm.trans (hcalm _ _ (List.prefix_append _ _) hruns)
    · exact hsame.trans hbefore

/-- Where the cycles that begin in a run are over before the next tick is due, only one begins. -/
theorem once (h : l.Runs events l') (hc : l.cancelled = true) (hquick : ∀ before m, before <+: events → l.Runs before m →
    l.begun.length < m.begun.length → m.isTorn = false) :
    l.begun.length ≤ l'.begun.length ∧ l'.begun.length ≤ l.begun.length + 1 := by
  induction h with
  | nil => exact ⟨Nat.le_refl _, Nat.le_succ _⟩
  | snoc hruns _ step ih =>
    obtain ⟨hle, hlt⟩ := ih fun before m hinit => hquick before m (hinit.trans (List.prefix_append _ _))
    rcases (frame_of_step? step).2.2 with ⟨rfl, hmore⟩ | hsame
    · have htorn := isTorn_of_begin (hruns.cancelled hc) step
      have hfirst := mt (hquick _ _ (List.prefix_append _ _) hruns) (by simp [htorn])
      rw [hmore, List.length_append, List.length_singleton]
      omega
    · rw [hsame]
      exact ⟨hle, hlt⟩

end Runs

/-- What becomes of a loop after some events that follow its cancellation. -/
structure WindsUp (l : Loop) (events : List Event) (l' : Loop) : Prop where
  ended : l.phase = .ended → l'.phase = .ended ∧ l'.begun = l.begun
  /-- A cycle begins only at a moment when the loop may as well stop. -/
  torn : ∀ before after, events = before ++ .begin :: after → ∃ m, l.Runs before m ∧ m.isTorn = true
  calm : (∀ before m, before <+: events → l.Runs before m → m.isTorn = false) → l'.begun = l.begun
  /-- A second cycle begins only if the first one took as long as the interval. -/
  once : (∀ before m, before <+: events → l.Runs before m → l.begun.length < m.begun.length → m.isTorn = false) →
    l'.begun.length ≤ l.begun.length + 1
  /-- Between cycles the loop stops, and before any time passes. -/
  stops : l'.phase = .waiting → (∃ last, l'.step? .stop = some last ∧ last.phase = .ended) ∧
    (∀ seconds, l'.IsPrompt (.pass seconds) → seconds = 0) ∧ (l'.isTorn = false → l'.step? .begin = none)

/-- In every prompt run from any moment at which it is cancelled, a loop stops as soon as no cycle runs, and begins no other one
but where a tick is due while it could stop. -/
theorem cancelled_winds_up (hc : l.cancelled = true) (h : l.Runs events l') : l.WindsUp events l' where
  ended := h.ended
  torn := fun _ _ => h.torn hc
  calm := h.calm hc
  once := fun hquick => (h.once hc hquick).2
  stops := by
    have hc' := h.cancelled hc
    intro hphase
    refine ⟨⟨_, stop_eq_some_iff.mpr ⟨hphase, hc', rfl⟩, rfl⟩, fun seconds hprompt => ?_, fun hcalm => ?_⟩
    · rcases isPrompt_pass_iff.mp hprompt hphase with hzero | ⟨hwanted, -⟩
      · exact hzero
      · nomatch hc'.symm.trans hwanted
    · cases hs : l'.step? .begin with
      | none => rfl
      | some next => nomatch hcalm.symm.trans (isTorn_of_begin hc' hs)

/-- A loop that is cancelled while a cycle runs stops when this one is over. -/
theorem cancelled_winds_up_in_cycle : ∃ (l l' : Loop) (events : List Event), l.cancelled = true ∧ l.Runs events l' ∧
    l'.phase = .ended ∧ l.WindsUp events l' := by
  let cycling : Loop := ⟨10, 4, 10, .cycling, true, [0], []⟩
  have hruns : cycling.Runs ([.pass 3] ++ [.finish .failed] ++ [.stop]) ⟨10, 7, 10, .ended, true, [0], [.failed]⟩ :=
    ((Runs.single (l := cycling) (e := .pass 3) (isPrompt_pass_iff.mpr nofun) rfl).snoc (e := .finish .failed) trivial rfl).snoc
      (e := .stop) trivial rfl
  exact ⟨cycling, _, _, rfl, hruns, rfl, cancelled_winds_up rfl hruns⟩

/-- A loop that is cancelled during a cycle which takes longer than the interval may begin another one when this one is over. A
loop without an interval crashes when it starts, and does not get to stop either. -/
theorem begins_after_cancel : (∃ first l l', start? 10 0 false = some first ∧
    first.Runs ([.begin] ++ [.pass 12] ++ [.cancel]) l ∧ l.cancelled = true ∧ l.begun = [0] ∧
      l.Runs ([.finish .full] ++ [.begin]) l' ∧ l'.begun = [0, 12]) ∧ start? 0 0 true = none := by
  let first : Loop := ⟨10, 0, 0, .waiting, false, [], []⟩
  let cancelled : Loop := ⟨10, 12, 10, .cycling, true, [0], []⟩
  have hfirst : first.Runs ([.begin] ++ [.pass 12] ++ [.cancel]) cancelled :=
    ((Runs.single (l := first) (e := .begin) trivial rfl).snoc (e := .pass 12) (isPrompt_pass_iff.mpr nofun) rfl).snoc
      (e := .cancel) trivial rfl
  have hmore : cancelled.Runs ([.finish .full] ++ [.begin]) ⟨10, 12, 22, .cycling, true, [0, 12], [.full]⟩ :=
    (Runs.single (l := cancelled) (e := .finish .full) trivial rfl).snoc (e := .begin) trivial rfl
  exact ⟨⟨first, cancelled, _, rfl, hfirst, rfl, rfl, hmore, rfl⟩, rfl⟩

end ChannelWatch.Loop
