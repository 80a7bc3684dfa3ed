import ChannelWatch.Proofs.Cache.Attempts
import ChannelWatch.Proofs.Cache.Gathered

/-!
# Calls made at once

Calls that are made at once gather (`State.gathers_callAll`): all look, then all register in the order of their places, then those
look again that need not wait. Each of these events is attempted only, so that what has become of a call is told by what its own
attempt brings about and what those after it keep.
-/

namespace ChannelWatch.Cache

variable {p : Policy} {s m m' k : State} {e : Event} {events : List Event} {c : Nat}

/-! ## The events -/

/-- The places of the next calls. -/
def State.nextPlaces (s : State) (n : Nat) : List Nat :=
  (List.range n).map (s.calls.length + ·)

/-- The next calls come right behind those that are there. -/
theorem State.mem_nextPlaces_iff {n : Nat} :
    c ∈ s.nextPlaces n ↔ s.calls.length ≤ c ∧ c < s.calls.length + n := by
  simp only [nextPlaces, List.mem_map, List.mem_range]
  exact ⟨by rintro ⟨i, hi, rfl⟩; omega, fun hc => ⟨c - s.calls.length, by omega, by omega⟩⟩

/-- Counted from the calls that are there, the places of the next calls are those of a range. -/
theorem State.nextPlaces_sub (s : State) (n : Nat) : (s.nextPlaces n).map (· - s.calls.length) = List.range n := by
  rw [nextPlaces, List.map_map]
  exact (List.map_congr_left fun i _ => Nat.add_sub_cancel_left _ i).trans (List.map_id _)

/-- What calls that are made at once try to do after their first looks. -/
def turnsOf (places : List Nat) : List Event :=
  places.map .register ++ places.map .lookAgain

/-- After their first looks, calls that are made at once register and look again. -/
theorem exists_of_mem_turnsOf {places : List Nat} (he : e ∈ turnsOf places) :
    ∃ c ∈ places, e = .register c ∨ e = .lookAgain c := by
  rcases List.mem_append.mp he with he | he
  · obtain ⟨c, hc, rfl⟩ := List.mem_map.mp he
    exact ⟨c, hc, Or.inl rfl⟩
  · obtain ⟨c, hc, rfl⟩ := List.mem_map.mp he
    exact ⟨c, hc, Or.inr rfl⟩

/-- Calls that take their turns register in the order of their places. -/
theorem filterMap_registered?_turnsOf (places : List Nat) : (turnsOf places).filterMap Event.registered? = places := by
  have hagain : (places.map Event.lookAgain).filterMap Event.registered? = [] := List.filterMap_eq_nil_iff.mpr fun e he => by
    obtain ⟨c, -, rfl⟩ := List.mem_map.mp he
    rfl
  rw [turnsOf, List.filterMap_append, hagain, List.append_nil, List.filterMap_map]
  exact List.filterMap_some

/-- Calls that are made at once look first, and take their turns then. -/
theorem State.callAll_eq (p : Policy) (s : State) (purpose : Purpose) (urls : List String) :
    s.callAll p purpose urls = (s.nextPlaces urls.length,
      (s.attempt p (urls.map (.call purpose))).attempt p (turnsOf (s.nextPlaces urls.length))) := by
  rw [callAll, List.append_assoc, attempt_append, nextPlaces, turnsOf]

/-- Calls can be made at any time. -/
theorem State.steps?_calls (p : Policy) (s : State) (purpose : Purpose) (urls : List String) :
    s.steps? p (urls.map (.call purpose)) = some (s.attempt p (urls.map (.call purpose))) := by
  induction urls generalizing s with
  | nil => rfl
  | cons url urls ih => exact ih _

/-- Each call that is made takes a place of its own. -/
theorem State.length_calls_attempt (p : Policy) (s : State) (purpose : Purpose) (urls : List String) :
    (s.attempt p (urls.map (.call purpose))).calls.length = s.calls.length + urls.length := by
  induction urls generalizing s with
  | nil => rfl
  | cons url urls ih =>
    refine (ih (s.beginCall p purpose url)).trans ?_
    simp only [beginCall_eq, List.length_append, List.length_cons, List.length_nil]
    omega

/-- No call is made in the turns of those that were made at once. -/
theorem State.length_calls_turnsOf (p : Policy) (k : State) (places : List Nat) :
    (k.attempt p (turnsOf places)).calls.length = k.calls.length := by
  refine attempt_induction (motive := fun m => m.calls.length = k.calls.length) rfl fun e he m m' hm hs => ?_
  rw [← hm]
  cases callTurn_of_step? hs with
  | idle calls => rw [calls]
  | call purpose url => obtain ⟨c, -, h | h⟩ := exists_of_mem_turnsOf he <;> nomatch h
  | go c purpose url old new _ _ calls => rw [calls, List.length_set]

/-! ## How far the calls come -/

/-- A call has registered, if it has to. -/
def State.HasRegistered (c : Nat) (s : State) : Prop :=
  ∃ x, s.calls[c]? = some x ∧ x.stage ≠ .looked

/-- A call has taken all its steps but those that it waits for. -/
def State.IsThrough (c : Nat) (s : State) : Prop :=
  ∃ x, s.calls[c]? = some x ∧ x.stage ≠ .looked ∧ x.stage ≠ .ready

/-- A call has registered for good. -/
theorem State.HasRegistered.step (h : m.HasRegistered c) (he : m.step? p e = some m') : m'.HasRegistered c := by
  obtain ⟨⟨purpose, url, stage⟩, hc, hne⟩ := h
  obtain ⟨new, hnew, rfl | next⟩ := (callTurn_of_step? he).call_stays hc
  · exact ⟨_, hnew, hne⟩
  · exact ⟨_, hnew, by cases next <;> nofun⟩

/-- A call has registered when it has tried to. -/
theorem State.hasRegistered_attempt (hc : ∃ x, m.calls[c]? = some x) :
    ((m.step? p (.register c)).getD m).HasRegistered c := by
  obtain ⟨⟨purpose, url, stage⟩, hc⟩ := hc
  cases hs : m.step? p (.register c) with
  | none =>
    refine ⟨_, hc, ?_⟩
    rintro rfl
    have hnone : m.register? c = none := hs
    cases hm : m.marker? url with
    | none => nomatch hnone.symm.trans (register?_eq_some_iff.mpr ⟨purpose, url, hc, Or.inr ⟨hm, rfl⟩⟩)
    | some d => nomatch hnone.symm.trans (register?_eq_some_iff.mpr ⟨purpose, url, hc, Or.inl ⟨d, hm, rfl⟩⟩)
  | some next =>
    obtain ⟨purpose', url', hlooked, ⟨d, -, rfl⟩ | ⟨-, rfl⟩⟩ := register?_eq_some_iff.mp hs
    · exact ⟨_, getElem?_setStage_self hlooked _, by cases purpose' <;> nofun⟩
    · exact ⟨_, getElem?_setStage_self (s := m.spawn url') hlooked _, by cases purpose' <;> nofun⟩

theorem State.hasRegistered_of_mem (hc : ∃ x, k.calls[c]? = some x) (he : .register c ∈ events) :
    (k.attempt p events).HasRegistered c := by
  refine attempt_of_mem (fun m => ∃ x, m.calls[c]? = some x) (HasRegistered c) hc
    (fun f _ m m' hx he => ?_) (fun m hx => hasRegistered_attempt hx) (fun f _ m m' h he => h.step he) he
  obtain ⟨x, hx⟩ := hx
  obtain ⟨new, hnew, -⟩ := (callTurn_of_step? he).call_stays (show m.calls[c]? = some ⟨x.purpose, x.url, x.stage⟩ from hx)
  exact ⟨_, hnew⟩

/-- A call is through for good as far as the second looks of calls go. -/
theorem State.IsThrough.step (h : m.IsThrough c) {b : Nat} (he : m.step? p (.lookAgain b) = some m') : m'.IsThrough c := by
  obtain ⟨⟨purpose, url, stage⟩, hc, hlooked, hready⟩ := h
  obtain ⟨new, hnew, rfl | next⟩ := (callTurn_of_step? he).call_stays hc
  · exact ⟨_, hnew, hlooked, hready⟩
  · exact ⟨_, hnew, by cases next; exact ⟨nofun, nofun⟩⟩

/-- A call that has registered is through when it has tried to look again. -/
theorem State.HasRegistered.isThrough_attempt (h : m.HasRegistered c) :
    ((m.step? p (.lookAgain c)).getD m).IsThrough c := by
  obtain ⟨⟨purpose, url, stage⟩, hc, hlooked⟩ := h
  cases hs : m.step? p (.lookAgain c) with
  | none =>
    refine ⟨_, hc, hlooked, ?_⟩
    rintro rfl
    have hnone : m.lookAgain? p c = none := hs
    nomatch hnone.symm.trans (lookAgain?_of_ready hc)
  | some next =>
    obtain ⟨purpose', url', hready, rfl⟩ := lookAgain?_eq_some_iff.mp hs
    exact ⟨_, getElem?_setStage_self hready _, nofun, nofun⟩

/-- Calls that try to register and then to look again are through. -/
theorem State.isThrough_attempt {places : List Nat} (hc : c ∈ places) (here : ∃ x, k.calls[c]? = some x) :
    (k.attempt p (turnsOf places)).IsThrough c := by
  rw [turnsOf, attempt_append]
  refine attempt_of_mem (HasRegistered c) (IsThrough c) (hasRegistered_of_mem here (List.mem_map_of_mem hc))
    (fun f _ m m' h he => h.step he) (fun m h => h.isThrough_attempt) (fun f hf m m' h he => ?_) (List.mem_map_of_mem hc)
  obtain ⟨b, -, rfl⟩ := List.mem_map.mp hf
  exact h.step he

/-- Where neither the directory nor the time changes, a look finds what it found before. -/
theorem State.look_of_steps? (h : s.steps? p events = some m)
    (hquiet : ∀ e ∈ events, e.touchesFiles = false ∧ e.nanos = 0) (url : String) : m.look p url = s.look p url := by
  have hsame : m.directory = s.directory ∧ m.clock = s.clock := by
    refine steps?_induction (motive := fun es m => (∀ e ∈ es, e.touchesFiles = false ∧ e.nanos = 0) →
      m.directory = s.directory ∧ m.clock = s.clock) (fun _ => ⟨rfl, rfl⟩) (fun es m e m' _ ih he hall => ?_) h hquiet
    obtain ⟨hdirectory, hclock⟩ := ih fun f hf => hall f (List.mem_append_left _ hf)
    obtain ⟨hfiles, hnanos⟩ := hall e (by simp)
    refine ⟨(files_of_step? he hfiles).1.trans hdirectory, ?_⟩
    rw [(effect_of_step? he).clock, hnanos, hclock]
    exact Int.add_zero _
  rw [look, look, hsame.1, hsame.2]

/-- Calls for references that are made at once gather, and register in the order of their places. -/
theorem State.gathers_callAll (p : Policy) (s : State) (urls : List String) :
    ∃ events, s.Gathers p urls events (s.callAll p .resolve urls).2 ∧ (s.registrations events).Pairwise (· < ·) := by
  let places := s.nextPlaces urls.length
  let k := s.attempt p (urls.map (.call .resolve))
  have hk : s.steps? p (urls.map (.call .resolve)) = some k := s.steps?_calls p .resolve urls
  have hlength : k.calls.length = s.calls.length + urls.length := s.length_calls_attempt p .resolve urls
  have hpresent : ∀ c ∈ places, ∃ x, k.calls[c]? = some x := fun c hc =>
    ⟨_, List.getElem?_eq_getElem (hlength ▸ (mem_nextPlaces_iff.mp hc).2)⟩
  obtain ⟨taken, hrun, hsub⟩ := k.exists_steps?_attempt p (turnsOf places)
  -- an event of the run is a call, a registration or a second look
  have hevent : ∀ e ∈ urls.map (Event.call .resolve) ++ taken,
      (∃ url, e = .call .resolve url) ∨ ∃ c, e = .register c ∨ e = .lookAgain c := fun e he => by
    rcases List.mem_append.mp he with he | he
    · obtain ⟨url, -, rfl⟩ := List.mem_map.mp he
      exact Or.inl ⟨url, rfl⟩
    · obtain ⟨c, -, hc⟩ := exists_of_mem_turnsOf (hsub.subset he)
      exact Or.inr ⟨c, hc⟩
  rw [callAll_eq]
  refine ⟨urls.map (.call .resolve) ++ taken, {
    run := steps?_trans hk hrun
    made := ?_
    resolves := fun url hmem => ?_
    own := fun c hmem => ?_
    steady := fun m e hm url _ => ?_
    unfinished := fun d hmem => ?_
    done := fun c x hle hc => ?_ }, ?_⟩
  · have hnone : taken.filterMap Event.called? = [] := List.filterMap_eq_nil_iff.mpr fun e he => by
      obtain ⟨c, -, rfl | rfl⟩ := exists_of_mem_turnsOf (hsub.subset he) <;> rfl
    rw [List.filterMap_append, hnone, List.append_nil, List.filterMap_map]
    exact List.filterMap_some
  · rcases hevent _ hmem with ⟨url', h⟩ | ⟨c, h | h⟩ <;> nomatch h
  · rcases List.mem_append.mp hmem with hmem | hmem
    · obtain ⟨url, -, h⟩ := List.mem_map.mp hmem
      nomatch h
    · obtain ⟨c', hc', h | h⟩ := exists_of_mem_turnsOf (hsub.subset hmem)
      · obtain rfl := Event.register.inj h
        exact (mem_nextPlaces_iff.mp hc').1
      · nomatch h
  · obtain ⟨before, after, heq, hrun⟩ := hm
    refine look_of_steps? hrun (fun e he => ?_) _
    rcases hevent e (heq ▸ List.mem_append_left _ he) with ⟨url', rfl⟩ | ⟨c, rfl | rfl⟩ <;> exact ⟨rfl, rfl⟩
  · rcases hevent _ hmem with ⟨url', h⟩ | ⟨c, h | h⟩ <;> nomatch h
  · have hlt := (List.getElem?_eq_some_iff.mp hc).1
    rw [length_calls_turnsOf, hlength] at hlt
    have hmem : c ∈ places := mem_nextPlaces_iff.mpr ⟨hle, hlt⟩
    obtain ⟨x', hx', hthrough⟩ := isThrough_attempt (p := p) hmem (hpresent c hmem)
    obtain rfl := Option.some.inj (hc.symm.trans hx')
    exact hthrough
  · have hcalls : (urls.map (Event.call .resolve)).filterMap Event.registered? = [] := List.filterMap_eq_nil_iff.mpr fun e he => by
      obtain ⟨url, -, rfl⟩ := List.mem_map.mp he
      rfl
    have hplaces := (hsub.filterMap Event.registered?).map (· - s.calls.length)
    rw [filterMap_registered?_turnsOf, nextPlaces_sub] at hplaces
    rw [registrations, List.filterMap_append, hcalls, List.nil_append]
    exact List.pairwise_lt_range.sublist hplaces

end ChannelWatch.Cache
