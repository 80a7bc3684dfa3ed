import ChannelWatch.Proofs.Cache.Runs

/-!
# Attempts

Events that are attempted one after another are the run of those among them that were possible in their turn
(`State.exists_steps?_attempt`), so that what every step keeps is kept by attempts too.
-/

namespace ChannelWatch.Cache

variable {p : Policy} {s : State} {e : Event} {events : List Event}

theorem State.attempt_append (p : Policy) (s : State) (es fs : List Event) :
    s.attempt p (es ++ fs) = (s.attempt p es).attempt p fs := by
  induction es generalizing s with
  | nil => rfl
  | cons e es ih => exact ih _

/-- The events of an attempt that were possible are a run to where the attempt leads. -/
theorem State.exists_steps?_attempt (p : Policy) (s : State) (events : List Event) :
    ∃ taken, s.steps? p taken = some (s.attempt p events) ∧ taken.Sublist events := by
  induction events generalizing s with
  | nil => exact ⟨[], rfl, .slnil⟩
  | cons e events ih =>
    cases he : s.step? p e with
    | none =>
      obtain ⟨taken, hrun, hsub⟩ := ih s
      exact ⟨taken, by rw [attempt, he, Option.getD_none, hrun], hsub.cons e⟩
    | some next =>
      obtain ⟨taken, hrun, hsub⟩ := ih next
      exact ⟨e :: taken, by rw [attempt, he, Option.getD_some, steps?, he, Option.bind_some, hrun], hsub.cons_cons e⟩

/-- What each of some events keeps is kept when they are attempted. -/
theorem State.attempt_induction {motive : State → Prop} (start : motive s)
    (step : ∀ e ∈ events, ∀ m m', motive m → m.step? p e = some m' → motive m') : motive (s.attempt p events) := by
  induction events generalizing s with
  | nil => exact start
  | cons e events ih =>
    refine ih ?_ fun f hf => step f (List.mem_cons_of_mem e hf)
    cases he : s.step? p e with
    | none => exact start
    | some next => exact step e List.mem_cons_self s next start he

/-- What the attempt of one event brings about where something holds that the others keep, and what all keep then, holds after
all of them. -/
theorem State.attempt_of_mem (before after : State → Prop) (start : before s)
    (keep : ∀ f ∈ events, ∀ m m', before m → m.step? p f = some m' → before m')
    (act : ∀ m, before m → after ((m.step? p e).getD m))
    (stay : ∀ f ∈ events, ∀ m m', after m → m.step? p f = some m' → after m') (he : e ∈ events) :
    after (s.attempt p events) := by
  obtain ⟨es, fs, rfl⟩ := List.append_of_mem he
  rw [attempt_append, attempt]
  refine attempt_induction (act _ (attempt_induction start fun f hf => keep f (List.mem_append_left _ hf))) fun f hf => ?_
  exact stay f (List.mem_append_right _ (List.mem_cons_of_mem e hf))

end ChannelWatch.Cache
