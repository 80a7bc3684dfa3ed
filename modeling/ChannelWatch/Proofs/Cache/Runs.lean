import ChannelWatch.Proofs.Cache.Effects

/-!
# Runs of the cache

What holds along a run follows by induction from what a step does (`State.steps?_induction`). The events of a run happen in states
that the events before them have led to (`State.Happens`). The states that a cache can come to are those of the runs from a cache
that nothing has happened to yet (`State.begun`), where others may change the directory behind its back (`Reachable`).
-/

namespace ChannelWatch.Cache

variable {p : Policy} {s s' : State} {e : Event}

/-- A run of two lists of events is a run of the first and then one of the second. -/
theorem State.steps?_append (s : State) (es fs : List Event) :
    s.steps? p (es ++ fs) = (s.steps? p es).bind fun m => m.steps? p fs := by
  induction es generalizing s with
  | nil => rfl
  | cons e es ih =>
    simp only [List.cons_append, steps?]
    cases s.step? p e with
    | none => rfl
    | some m => exact ih m

theorem State.steps?_snoc_iff {es : List Event} :
    s.steps? p (es ++ [e]) = some s' ↔ ∃ m, s.steps? p es = some m ∧ m.step? p e = some s' := by
  rw [steps?_append, Option.bind_eq_some_iff]
  simp [steps?]

theorem State.steps?_trans {m : State} {es fs : List Event} (h : s.steps? p es = some m) (h' : m.steps? p fs = some s') :
    s.steps? p (es ++ fs) = some s' := by
  rw [steps?_append, h, Option.bind_some, h']

theorem State.steps?_singleton (h : s.step? p e = some s') : s.steps? p [e] = some s' := by
  rw [steps?, h, Option.bind_some, steps?]

/-- What holds before a run and is kept by each of its steps holds after it. The events so far are part of what holds, so
that it may speak about the history. -/
theorem State.steps?_induction {motive : List Event → State → Prop} (nil : motive [] s)
    (snoc : ∀ es m e m', s.steps? p es = some m → motive es m → m.step? p e = some m' → motive (es ++ [e]) m')
    {es : List Event} (h : s.steps? p es = some s') : motive es s' := by
  suffices hr : ∀ (fs : List Event) (t : State), s.steps? p fs.reverse = some t → motive fs.reverse t by
    have := hr es.reverse s'
    rw [List.reverse_reverse] at this
    exact this h
  intro fs
  induction fs with
  | nil =>
    intro t ht
    obtain rfl := Option.some.inj ht
    exact nil
  | cons e fs ih =>
    intro t ht
    rw [List.reverse_cons] at ht ⊢
    obtain ⟨m, hm, he⟩ := steps?_snoc_iff.mp ht
    exact snoc _ m e t hm (ih m hm) he

/-- A download stays in its place with its URL in a run. -/
theorem State.download_of_steps? {es : List Event} (h : s.steps? p es = some s') {d : Nat} {url : String} {phase : Phase}
    (hd : s.downloads[d]? = some ⟨url, phase⟩) : ∃ phase, s'.downloads[d]? = some ⟨url, phase⟩ := by
  refine steps?_induction (motive := fun _ m => ∃ phase, m.downloads[d]? = some ⟨url, phase⟩) ⟨phase, hd⟩ ?_ h
  rintro _ m e m' _ ⟨old, hold⟩ he
  obtain ⟨new, hnew, -⟩ := (turn_of_step? he).download_stays hold
  exact ⟨new, hnew⟩

theorem State.clock_le_of_steps? {es : List Event} (h : s.steps? p es = some s') : s.clock ≤ s'.clock :=
  steps?_induction (motive := fun _ m => s.clock ≤ m.clock) (Int.le_refl _)
    (fun _ _ _ _ _ hle he => Int.le_trans hle (clock_le_of_step? he)) h

/-- In the course of a run from `s`, the event `e` happens in the state `m`. -/
def State.Happens (p : Policy) (s : State) (events : List Event) (m : State) (e : Event) : Prop :=
  ∃ before after, events = before ++ e :: after ∧ s.steps? p before = some m

theorem State.Happens.append {m : State} {es : List Event} (h : s.Happens p es m e) (fs : List Event) :
    s.Happens p (es ++ fs) m e := by
  obtain ⟨before, after, rfl, hm⟩ := h
  exact ⟨before, after ++ fs, by simp, hm⟩

theorem State.happens_last {m : State} {es : List Event} (h : s.steps? p es = some m) : s.Happens p (es ++ [e]) m e :=
  ⟨es, [], rfl, h⟩

theorem State.happens_snoc {m : State} {es : List Event} {f : Event} (h : s.Happens p (es ++ [f]) m e) :
    s.Happens p es m e ∨ e = f ∧ s.steps? p es = some m := by
  obtain ⟨before, after, heq, hm⟩ := h
  rcases append_singleton_eq_append_cons heq with ⟨rest, rfl⟩ | ⟨rfl, rfl⟩
  · exact Or.inl ⟨before, rest, rfl, hm⟩
  · exact Or.inr ⟨rfl, hm⟩

/-- The event of a run that happens somewhere leads on to where the run ends. -/
theorem State.Happens.rest {m : State} {es : List Event} (h : s.Happens p es m e) (hs : s.steps? p es = some s') :
    ∃ m' after, m.step? p e = some m' ∧ m'.steps? p after = some s' := by
  obtain ⟨before, after, rfl, hm⟩ := h
  rw [steps?_append, hm, Option.bind_some, steps?] at hs
  obtain ⟨m', hm', hafter⟩ := Option.bind_eq_some_iff.mp hs
  exact ⟨m', after, hm', hafter⟩

theorem State.Happens.clock_le {m : State} {es : List Event} (h : s.Happens p es m e) (hs : s.steps? p es = some s') :
    m.clock ≤ s'.clock := by
  obtain ⟨m', after, he, hafter⟩ := h.rest hs
  exact Int.le_trans (clock_le_of_step? he) (clock_le_of_steps? hafter)

/-- The cache over a directory at some time, before anything has happened to it. -/
def State.begun (p : Policy) (directory : Directory) (clock : Int) : State :=
  { State.initial p directory directory.freshId with clock := clock }

/-- The states that a cache can come to. Besides its own steps, others may change the directory at any time. -/
inductive Reachable (p : Policy) : State → Prop
  | begun (directory : Directory) (clock : Int) : Reachable p (State.begun p directory clock)
  | step {s s' : State} {e : Event} : Reachable p s → s.step? p e = some s' → Reachable p s'
  | disturbed {s : State} (directory : Directory) (freshFile : Nat) :
      Reachable p s → Reachable p { s with directory := directory, freshFile := freshFile }

theorem Reachable.steps? {es : List Event} (hs : Reachable p s) (h : s.steps? p es = some s') : Reachable p s' :=
  State.steps?_induction (motive := fun _ m => Reachable p m) hs (fun _ _ _ _ _ hm he => hm.step he) h

end ChannelWatch.Cache
