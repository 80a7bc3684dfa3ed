import ChannelWatch.Proofs.Cache.Carried
import ChannelWatch.Proofs.Cache.Cold
import ChannelWatch.Proofs.Cache.Permits
import ChannelWatch.Proofs.Cache.Waiting

/-!
# One image is downloaded once

Calls for one image that find no fresh file have the source asked once, in whatever order their steps and those of the download
happen, as long as no call stands between its look and its registration when the marker of the download is taken down
(`asked_once`). A call that does finds no marker any more, does not look again, and has the source asked a second time
(`asked_twice_left_behind`); so does every call where the fetched file cannot be given its name (`asked_twice_obstructed`).
-/

namespace ChannelWatch.Cache

variable {p : Policy} {s s' : State} {e : Event} {directory : Directory} {clock : Int} {v : String}

/-! ## How a run for one image goes on -/

/-- Every call is over, and so is every download. -/
def State.AtRest (s : State) : Prop :=
  (∀ x ∈ s.calls, x.stage.left = 0) ∧ ∀ x ∈ s.downloads, x.phase = .ended

/-- How many steps a download has still to take at most. -/
def Phase.toGo : Phase → Nat
  | .spawned => 10
  | .queued => 9
  | .admitted => 8
  | .opened _ => 7
  | .fetching _ _ => 6
  | .fetched _ => 5
  | .cleaning => 4
  | .leaving => 3
  | .released => 2
  | .unmarked => 1
  | .ended => 0

/-- How many steps the calls and the downloads have still to take at most. -/
def State.toGo (s : State) : Nat :=
  (s.calls.map (·.stage.left)).sum + (s.downloads.map (·.phase.toGo)).sum

theorem State.toGo_setStage {c : Nat} {purpose : Purpose} {url : String} {old new : Stage}
    (hc : s.calls[c]? = some ⟨purpose, url, old⟩) (hlt : new.left < old.left) : (s.setStage c new).toGo < s.toGo := by
  have hcalls : ((s.calls.set c ⟨purpose, url, new⟩).map (·.stage.left)).sum < (s.calls.map (·.stage.left)).sum :=
    sum_map_set_lt hc hlt
  simp only [toGo, calls_setStage hc]
  exact Nat.add_lt_add_right hcalls _

namespace State.Shared

variable {phase : Phase}

/-- A call that has looked can register. -/
theorem registers (h : s.Shared p clock v phase) (hb : s.Bookkept) {c : Nat} {purpose : Purpose} {url : String}
    (hc : s.calls[c]? = some ⟨purpose, url, .looked⟩) : ∃ s', s.register? c = some s' ∧ s'.toGo < s.toGo := by
  have hcall := List.mem_of_getElem? hc
  obtain rfl : url = v := h.urls _ hcall
  have hmarked : phase.isMarked = true := by
    cases hm : phase.isMarked with
    | true => rfl
    | false => exact absurd rfl (h.settled hm _ hcall)
  obtain ⟨d, hm⟩ := Option.ne_none_iff_exists'.mp (h.marker? hb hmarked)
  refine ⟨_, State.register?_eq_some_iff.mpr ⟨purpose, url, hc, Or.inl ⟨d, hm, rfl⟩⟩, State.toGo_setStage hc ?_⟩
  cases purpose <;> simp [Stage.left]

/-- The download can take its next step, up to its end. -/
theorem departs (h : s.Shared p clock v phase) (hl : s.Lined) (hpermits : 0 < p.permits) (hne : phase ≠ .ended) :
    ∃ e s' new, s.step? p e = some s' ∧ e.IsSmooth v ∧ e.nanos = 0 ∧ s'.calls = s.calls ∧ s'.downloads = [⟨v, new⟩] ∧
      new.toGo < phase.toGo := by
  have hd : s.downloads[0]? = some ⟨v, phase⟩ := by rw [h.downloads]; rfl
  have hphase : s.phase? 0 = some phase := State.phase?_eq_some_iff.mpr ⟨v, hd⟩
  cases phase with
  | spawned =>
    have hs : s.queue? 0 = some _ := State.queue?_eq_some_iff.mpr ⟨hphase, rfl⟩
    exact ⟨.queue 0, _, .queued, hs, trivial, rfl, rfl, h.setPhase _, by simp [Phase.toGo]⟩
  | queued =>
    have hall : s.free + 0 = p.permits := h.free
    obtain ⟨free, hfree⟩ : ∃ free, s.free = free + 1 := Nat.exists_eq_add_one.mpr (by omega)
    obtain ⟨first, s', hs⟩ := hl.exists_acquire (p := p) h.opened hfree hphase
    obtain ⟨hfirst, -, _, _, -, -, rfl⟩ := State.acquire?_eq_some_iff.mp hs
    obtain ⟨url, hu⟩ := State.phase?_eq_some_iff.mp hfirst
    obtain ⟨rfl, -, -⟩ := h.here hu
    exact ⟨.acquire 0, _, .admitted, hs, trivial, rfl, rfl, h.setPhase _, by simp [Phase.toGo]⟩
  | admitted =>
    have hroom : s.directory.HasRoom v := h.files
    obtain ⟨directory, file, hc, -⟩ := hroom.create s.freshFile s.clock
    have hs : s.create? 0 = some _ := State.create?_eq_some_iff.mpr ⟨v, hd, Or.inl ⟨directory, file, hc, rfl⟩⟩
    exact ⟨.create 0, _, .opened file, hs, trivial, rfl, rfl, h.setPhase _, by simp [Phase.toGo]⟩
  | opened file =>
    have hs : s.ask? 0 = some _ := State.ask?_eq_some_iff.mpr ⟨v, file, hd, rfl⟩
    exact ⟨.ask 0, _, .fetching file [], hs, trivial, rfl, rfl, h.setPhase _, by simp [Phase.toGo]⟩
  | fetching file body =>
    have hs : s.deliver? 0 = some _ := State.deliver?_eq_some_iff.mpr ⟨v, file, body, hd, rfl⟩
    exact ⟨.deliver 0, _, .fetched body, hs, trivial, rfl, rfl, h.setPhase _, by simp [Phase.toGo]⟩
  | fetched body =>
    obtain ⟨hheld, hfinal⟩ := h.files
    obtain ⟨directory, hr, -⟩ := hheld.rename hfinal
    have hs : s.rename? 0 = some _ := State.rename?_eq_some_iff.mpr ⟨v, body, hd, Or.inl ⟨directory, hr, rfl⟩⟩
    exact ⟨.rename 0, _, .leaving, hs, trivial, rfl, rfl, h.setPhase _, by simp [Phase.toGo]⟩
  | cleaning => exact h.files.elim
  | leaving =>
    have hs : s.release? 0 = some _ := State.release?_eq_some_iff.mpr ⟨hphase, rfl⟩
    exact ⟨.release 0, _, .released, hs, trivial, rfl, rfl, h.setPhase _, by simp [Phase.toGo]⟩
  | released =>
    have hs : s.unmark? 0 = some _ := State.unmark?_eq_some_iff.mpr ⟨v, hd, rfl⟩
    exact ⟨.unmark 0, _, .unmarked, hs, trivial, rfl, rfl, h.setPhase _, by simp [Phase.toGo]⟩
  | unmarked =>
    have hs : s.signal? 0 = some _ := State.signal?_eq_some_iff.mpr ⟨hphase, rfl⟩
    exact ⟨.signal 0, _, .ended, hs, trivial, rfl, rfl, h.setPhase _, by simp [Phase.toGo]⟩
  | ended => exact absurd rfl hne

/-- Once the download has ended, a call that is neither about to register nor over goes on. -/
theorem proceeds (h : s.Shared p clock v .ended) (hl : s.Linked) {c : Nat} {purpose : Purpose} {url : String} {stage : Stage}
    (hc : s.calls[c]? = some ⟨purpose, url, stage⟩) (hne : stage.left ≠ 0) (hlooked : stage ≠ .looked) :
    ∃ e s', s.step? p e = some s' ∧ e.IsSmooth v ∧ e.nanos = 0 ∧ (∀ d, e ≠ .unmark d) ∧ s'.toGo < s.toGo := by
  cases stage with
  | looked => exact absurd rfl hlooked
  | waiting d =>
    obtain ⟨-, phase, hd⟩ := hl c purpose url d hc
    obtain ⟨rfl, rfl, rfl⟩ := h.here hd
    have hs : s.proceed? c = some _ :=
      State.proceed?_eq_some_iff.mpr ⟨purpose, url, 0, hc, State.phase?_eq_some_iff.mpr ⟨url, hd⟩, rfl⟩
    exact ⟨.proceed c, _, hs, trivial, rfl, by simp, State.toGo_setStage hc (by simp [Stage.left])⟩
  | ready =>
    have hs : s.lookAgain? p c = some _ := State.lookAgain?_eq_some_iff.mpr ⟨purpose, url, hc, rfl⟩
    exact ⟨.lookAgain c, _, hs, trivial, rfl, by simp, State.toGo_setStage hc (by simp [Stage.left])⟩
  | answered | finished => exact absurd rfl hne

/-- Unless all is at rest, something can happen that brings it closer to rest. Calls register before anything else does, so
that none of them is left behind when the marker is taken down. -/
theorem advances (h : s.Shared p clock v phase) (hb : s.Bookkept) (hl : s.Linked) (hline : s.Lined) (hpermits : 0 < p.permits)
    (hrest : ¬s.AtRest) : ∃ e s', s.step? p e = some s' ∧ e.IsSmooth v ∧ e.nanos = 0 ∧
      (∀ d, e = .unmark d → ∀ x ∈ s.calls, x.stage ≠ .looked) ∧ s'.toGo < s.toGo := by
  by_cases hlooked : ∃ x ∈ s.calls, x.stage = .looked
  · obtain ⟨⟨purpose, url, stage⟩, hx, rfl⟩ := hlooked
    obtain ⟨c, hc⟩ := List.mem_iff_getElem?.mp hx
    obtain ⟨s', hs, hlt⟩ := h.registers hb hc
    exact ⟨.register c, s', hs, trivial, rfl, nofun, hlt⟩
  · have hnone : ∀ x ∈ s.calls, x.stage ≠ .looked := fun x hx hst => hlooked ⟨x, hx, hst⟩
    by_cases hended : phase = .ended
    · subst hended
      have hcall : ∃ x ∈ s.calls, x.stage.left ≠ 0 := by
        apply Decidable.of_not_not
        intro hover
        refine hrest ⟨fun x hx => ?_, fun x hx => ?_⟩
        · exact Decidable.of_not_not fun hne => hover ⟨x, hx, hne⟩
        · rw [h.downloads] at hx
          rw [List.mem_singleton.mp hx]
      obtain ⟨⟨purpose, url, stage⟩, hx, hne⟩ := hcall
      obtain ⟨c, hc⟩ := List.mem_iff_getElem?.mp hx
      obtain ⟨e, s', hs, hsmooth, hnanos, hunmark, hlt⟩ := h.proceeds hl hc hne (hnone _ hx)
      exact ⟨e, s', hs, hsmooth, hnanos, fun d hd => absurd hd (hunmark d), hlt⟩
    · obtain ⟨e, s', new, hs, hsmooth, hnanos, hcalls, hdownloads, hlt⟩ := h.departs hline hpermits hended
      refine ⟨e, s', hs, hsmooth, hnanos, fun _ _ => hnone, ?_⟩
      simp only [State.toGo, hcalls, hdownloads, h.downloads, List.map_cons, List.map_nil, List.sum_cons, List.sum_nil]
      omega

end State.Shared

/-! ## The source is asked once -/

namespace State

variable {events : List Event}

/-- A run for one image that is longer by a step. -/
theorem ColdRun.snoc (h : State.ColdRun p directory clock v events s) (hs : s.step? p e = some s') (he : e.IsSmooth v)
    (hnanos : e.nanos = 0) : State.ColdRun p directory clock v (events ++ [e]) s' where
  run := steps?_snoc_iff.mpr ⟨s, h.run, hs⟩
  image := h.image
  room := h.room
  cold := h.cold
  smooth := fun x hx => by
    rcases List.mem_append.mp hx with hx | hx
    · exact h.smooth x hx
    · rw [List.mem_singleton.mp hx]
      exact he
  short := by
    have hclock := (effect_of_step? hs).clock
    have hshort := h.short
    rw [hnanos] at hclock
    omega

theorem Gapless.snoc {start : State} (h : start.Gapless p events) (hrun : start.steps? p events = some s)
    (hgap : ∀ d, e = .unmark d → ∀ x ∈ s.calls, x.stage ≠ .looked) : start.Gapless p (events ++ [e]) := by
  intro m d hm
  rcases happens_snoc hm with hm | ⟨heq, hm⟩
  · exact h m d hm
  · obtain rfl := Option.some.inj (hrun.symm.trans hm)
    exact hgap d heq.symm

/-- In a run for one image that leaves no call behind, either nothing has been tried yet or all share one download. -/
theorem ColdRun.tried (h : State.ColdRun p directory clock v events s)
    (hgap : (State.begun p directory clock).Gapless p events) :
    s.Untried p directory clock v ∨ ∃ phase, s.Shared p clock v phase := by
  refine steps?_induction (motive := fun es m => (∀ e ∈ es, e.IsSmooth v) → (State.begun p directory clock).Gapless p es →
    m.clock < clock + p.ttl → m.Untried p directory clock v ∨ ∃ phase, m.Shared p clock v phase)
    (fun _ _ _ => Or.inl Untried.begun) (fun es m e m' hes ih he hsmooth hgap hshort => ?_) h.run h.smooth hgap h.short
  have hclock := clock_le_of_step? he
  have hb := ((Reachable.begun directory clock).steps? hes).bookkept
  have hlast : e.IsSmooth v := hsmooth e (by simp)
  rcases ih (fun x hx => hsmooth x (List.mem_append_left _ hx)) (fun x d hx => hgap x d (hx.append [e])) (by omega) with
    hu | ⟨phase, hsh⟩
  · rcases hu.step hb h.image h.room (h.cold m.clock hu.since (by omega)) hlast he with hu' | hsh'
    · exact Or.inl hu'
    · exact Or.inr ⟨.spawned, hsh'⟩
  · refine Or.inr (hsh.step hb (by omega) hlast (fun d hd => ?_) he)
    subst hd
    exact hgap m d (happens_last hes)

/-- A run in which all calls share one download can go on until all is at rest. -/
theorem ColdRun.shared_comes_to_rest (hpermits : 0 < p.permits) {phase : Phase}
    (h : State.ColdRun p directory clock v events s) (hgap : (State.begun p directory clock).Gapless p events)
    (hsh : s.Shared p clock v phase) : ∃ more s', State.ColdRun p directory clock v (events ++ more) s' ∧
      (State.begun p directory clock).Gapless p (events ++ more) ∧ s'.AtRest := by
  induction hn : s.toGo using Nat.strongRecOn generalizing events s phase with
  | ind n ih =>
    have hr := (Reachable.begun directory clock).steps? h.run
    by_cases hrest : s.AtRest
    · exact ⟨[], s, by rw [List.append_nil]; exact ⟨h, hgap, hrest⟩⟩
    · obtain ⟨e, s', hs, hsmooth, hnanos, hnone, hlt⟩ := hsh.advances hr.bookkept hr.linked hr.lined hpermits hrest
      obtain ⟨next, hsh'⟩ := hsh.step hr.bookkept h.short hsmooth hnone hs
      obtain ⟨more, t, ht, hgap', hrest'⟩ :=
        ih s'.toGo (hn ▸ hlt) (h.snoc hs hsmooth hnanos) (hgap.snoc h.run hnone) hsh' rfl
      rw [List.append_assoc] at ht hgap'
      exact ⟨e :: more, t, ht, hgap', hrest'⟩

/-- Every run for one image that leaves no call behind can go on until all is at rest. -/
theorem ColdRun.comes_to_rest (hpermits : 0 < p.permits) (h : State.ColdRun p directory clock v events s)
    (hgap : (State.begun p directory clock).Gapless p events) : ∃ more s',
      State.ColdRun p directory clock v (events ++ more) s' ∧ (State.begun p directory clock).Gapless p (events ++ more) ∧
        s'.AtRest := by
  rcases h.tried hgap with hu | ⟨phase, hsh⟩
  · cases hcalls : s.calls with
    | nil =>
      have hrest : s.AtRest := by
        unfold AtRest
        rw [hcalls, hu.downloads]
        exact ⟨nofun, nofun⟩
      exact ⟨[], s, by rw [List.append_nil]; exact ⟨h, hgap, hrest⟩⟩
    | cons x rest =>
      -- the first call registers, and all share the download that it begins
      obtain ⟨purpose, url, stage⟩ := x
      have hc : s.calls[0]? = some ⟨purpose, url, stage⟩ := by rw [hcalls]; rfl
      obtain rfl : stage = .looked := hu.looked _ (List.mem_of_getElem? hc)
      have hb := ((Reachable.begun directory clock).steps? h.run).bookkept
      have hs : s.step? p (.register 0) = some _ :=
        State.register?_eq_some_iff.mpr ⟨purpose, url, hc, Or.inr ⟨hu.marker?_eq_none hb url, rfl⟩⟩
      obtain ⟨more, t, ht, hgap', hrest⟩ :=
        (h.snoc hs trivial rfl).shared_comes_to_rest hpermits (hgap.snoc h.run nofun) (hu.register hb h.room hs)
      rw [List.append_assoc] at ht hgap'
      exact ⟨.register 0 :: more, t, ht, hgap', hrest⟩
  · exact h.shared_comes_to_rest hpermits hgap hsh

/-- At most once, and once all is at rest exactly once, the source has been asked for the image of a run that leaves no call
behind. -/
theorem ColdRun.asked_eq (h : State.ColdRun p directory clock v events s)
    (hgap : (State.begun p directory clock).Gapless p events) :
    (s.asked = [] ∨ s.asked = [v]) ∧ (s.calls ≠ [] → s.AtRest → s.asked = [v]) := by
  rcases h.tried hgap with hu | ⟨phase, hsh⟩
  · refine ⟨Or.inl hu.asked, fun hne hrest => ?_⟩
    obtain ⟨x, hx⟩ := List.exists_mem_of_ne_nil _ hne
    have hover := hrest.1 x hx
    rw [hu.looked x hx] at hover
    nomatch hover
  · refine ⟨?_, fun _ hrest => ?_⟩
    · rw [hsh.asked]
      cases phase.hasAsked
      · exact Or.inl rfl
      · exact Or.inr rfl
    · obtain rfl : phase = .ended := hrest.2 ⟨v, phase⟩ (by rw [hsh.downloads]; exact List.mem_singleton_self _)
      exact hsh.asked

theorem calls_ne_nil_of_steps? (h : s.steps? p events = some s') (hne : s.calls ≠ []) : s'.calls ≠ [] :=
  steps?_induction (motive := fun _ m => m.calls ≠ []) hne (fun _ _ _ _ _ hm he hnil => by
    have hle := (callTurn_of_step? he).length_le
    rw [hnil] at hle
    exact hm (List.eq_nil_of_length_eq_zero (Nat.le_zero.mp hle))) h

end State

/-- Calls for one image over a directory that holds no fresh file for it have the source asked for the image at most once, and
exactly once as soon as all is at rest, in every order of their steps and those of the download in which no call stands between
its look and its registration when the marker is taken down; and every such run can come to rest. -/
theorem asked_once {events : List Event} (h : State.ColdRun p directory clock v events s)
    (hgap : (State.begun p directory clock).Gapless p events) (hpermits : 0 < p.permits) :
    (s.asked = [] ∨ s.asked = [v]) ∧ (s.calls ≠ [] → s.AtRest → s.asked = [v]) ∧
      ∃ more s', State.ColdRun p directory clock v (events ++ more) s' ∧
        (State.begun p directory clock).Gapless p (events ++ more) ∧ s'.AtRest ∧ (s.calls ≠ [] → s'.asked = [v]) := by
  obtain ⟨hasked, hrest⟩ := h.asked_eq hgap
  obtain ⟨more, s', h', hgap', hrest'⟩ := h.comes_to_rest hpermits hgap
  refine ⟨hasked, hrest, more, s', h', hgap', hrest', fun hne => ?_⟩
  have hmore : s.steps? p more = some s' := by
    have hrun := h'.run
    rw [State.steps?_append, h.run, Option.bind_some] at hrun
    exact hrun
  exact (h'.asked_eq hgap').2 (State.calls_ne_nil_of_steps? hmore hne) hrest'

theorem Directory.hasRoom_nil (url : String) : (Directory.present []).HasRoom url where
  there := ⟨[], rfl⟩
  final := nofun
  temp := nofun

/-- Two calls for one image, by its two URLs, share the download that is being fetched. -/
theorem asked_once_two_calls : ∃ events s, State.ColdRun ⟨10, "/", 1⟩ (.present []) 0 "https://a/b.png" events s ∧
    (State.begun ⟨10, "/", 1⟩ (.present []) 0).Gapless ⟨10, "/", 1⟩ events ∧ s.calls.length = 2 ∧
    (s.asked = [] ∨ s.asked = ["https://a/b.png"]) ∧ (s.calls ≠ [] → s.AtRest → s.asked = ["https://a/b.png"]) ∧
    ∃ more s', State.ColdRun ⟨10, "/", 1⟩ (.present []) 0 "https://a/b.png" (events ++ more) s' ∧
      (State.begun ⟨10, "/", 1⟩ (.present []) 0).Gapless ⟨10, "/", 1⟩ (events ++ more) ∧ s'.AtRest ∧
      (s.calls ≠ [] → s'.asked = ["https://a/b.png"]) := by
  let events : List Event := [.call .resolve "http://a/b.png", .call .preload "https://a/b.png", .register 1, .register 0,
    .queue 0, .acquire 0, .create 0, .ask 0]
  obtain ⟨s, hrun, hclock, hcalls⟩ : ∃ s, (State.begun ⟨10, "/", 1⟩ (.present []) 0).steps? ⟨10, "/", 1⟩ events = some s ∧
      s.clock = 0 ∧ s.calls.length = 2 := ⟨_, rfl, rfl, rfl⟩
  have hsmooth : ∀ e ∈ events, e.IsSmooth "https://a/b.png" := by
    simp only [events, List.forall_mem_cons]
    exact ⟨rfl, rfl, trivial, trivial, trivial, trivial, trivial, trivial, nofun⟩
  have hcold : State.ColdRun ⟨10, "/", 1⟩ (.present []) 0 "https://a/b.png" events s :=
    ⟨hrun, by decide, Directory.hasRoom_nil _, fun _ _ _ => nofun, hsmooth, by rw [hclock]; decide⟩
  have hgap : (State.begun ⟨10, "/", 1⟩ (.present []) 0).Gapless ⟨10, "/", 1⟩ events := by
    rintro m d ⟨before, after, heq, -⟩
    have hmem : Event.unmark d ∈ events := heq ▸ List.mem_append_right _ List.mem_cons_self
    simp [events] at hmem
  exact ⟨events, s, hcold, hgap, hcalls, asked_once hcold hgap (by decide)⟩

/-- A call that looked before the file was there and registers when the marker is gone has the source asked again. -/
theorem asked_twice_left_behind : ∃ events s, State.ColdRun ⟨10, "/", 1⟩ (.present []) 0 "https://a/b.png" events s ∧
    s.asked = ["https://a/b.png", "https://a/b.png"] := by
  let p : Policy := ⟨10, "/", 1⟩
  let url := "https://a/b.png"
  let before : List Event := [.call .preload "http://a/b.png", .call .resolve "https://a/b.png", .register 0, .queue 0, .acquire 0]
  let admitted : State := { State.begun p (.present []) 0 with
    free := 0, downloads := [⟨url, .admitted⟩], markers := [(url, 0)]
    calls := [⟨.preload, url, .finished⟩, ⟨.resolve, url, .looked⟩] }
  have hadmitted : (State.begun p (.present []) 0).steps? p before = some admitted := rfl
  -- the download of the first call runs to its end before the second call registers
  obtain ⟨x, hx, hasked, hclock⟩ := State.asked_again (p := p) (s := admitted) (d := 0) (c := 1) rfl ⟨[], rfl⟩ nofun nofun rfl rfl rfl
    [[1]]
  refine ⟨_, x, ⟨State.steps?_trans hadmitted hx, by decide, Directory.hasRoom_nil _, fun _ _ _ => nofun, ?_, ?_⟩, hasked⟩
  · simp only [before, carrying, registeringLate, fetching, List.map_cons, List.map_nil, List.cons_append, List.nil_append,
      List.forall_mem_cons]
    exact ⟨rfl, rfl, trivial, trivial, trivial, trivial, trivial, trivial, trivial, trivial, trivial, trivial, trivial, trivial,
      trivial, trivial, trivial, trivial, List.forall_mem_nil _⟩
  · rw [hclock]
    decide

/-- Where a directory stands under the name of an image and is not fresh, a call has the source asked again even if it begins when
all before it is at rest: the fetched file could not take the place of the directory. -/
theorem asked_twice_obstructed {modified : Int} {children : List (String × Entry)} (hsecure : Link.secure v = v) (himage : v ≠ "")
    (hpermits : 0 < p.permits) (hobstacle : directory.find? (fileName v) = some (.directory modified children))
    (hold : ¬(Entry.directory modified children).IsFresh p.ttl clock) (htemp : directory.Admits (tempName (fileName v))) :
    ∃ before m after s, (State.begun p directory clock).steps? p before = some m ∧ m.AtRest ∧ m.asked = [v] ∧
      m.steps? p after = some s ∧ (∀ e ∈ before ++ after, e.IsSmooth v) ∧ s.clock = clock ∧ s.asked = [v, v] := by
  obtain ⟨free, hfree⟩ := Nat.exists_eq_add_one.mpr hpermits
  have stale : ∀ d : Directory, d.find? (fileName v) = some (.directory modified children) →
      d.look p.ttl clock (fileName v) ≠ .fresh := fun d h => by
    rw [Directory.look_eq_stale_iff.mpr ⟨_, h, hold⟩]
    nofun
  have hstart := State.preloaded_admitted (s := .begun p directory clock) hsecure himage (stale _ hobstacle) rfl rfl rfl hfree
  let admitted : State := (State.begun p directory clock).withAdmitted v free
  obtain ⟨_, _, hc⟩ := Directory.exists_create (Directory.exists_present_of_find? hobstacle) htemp admitted.freshFile clock
  obtain ⟨after, hended, hstands, hgone⟩ := State.obstructed (p := p) (s := admitted) (d := 0) rfl hc hobstacle []
  let ended : State := { admitted.leave 0 v with
    directory := after, freshFile := admitted.freshFile + 1, asked := [v], delivered := [(v, [])] }
  -- all is at rest, and the second call finds the directory as the first one did
  have hagain := State.preloaded_admitted (s := ended) (n := free) hsecure himage (stale after hstands) (State.marker?_leave _ 0 v)
    rfl rfl rfl
  obtain ⟨_, _, hc'⟩ := Directory.exists_create (Directory.exists_present_of_find? hstands) (.of_none hgone)
    (ended.withAdmitted v free).freshFile clock
  obtain ⟨_, hasked, -⟩ := State.fetched (p := p) (s := ended.withAdmitted v free) (d := 1) rfl hc' []
  refine ⟨_, ended, _, _, State.steps?_trans hstart hended, ?_, rfl, State.steps?_trans hagain hasked, ?_, rfl, rfl⟩
  · simp [State.AtRest, ended, admitted, State.leave, State.withAdmitted, State.preload, State.begun, State.initial, State.setPhase,
      Stage.left]
  · simp [fetching, Event.IsSmooth, hsecure]

end ChannelWatch.Cache
