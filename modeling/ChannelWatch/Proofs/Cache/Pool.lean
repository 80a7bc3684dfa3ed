import ChannelWatch.Proofs.Cache.Carried
import ChannelWatch.Proofs.Cache.Onward
import ChannelWatch.Service.Start

/-!
# The pool of downloads

The pool is bounded, at rest it is never idle while a download waits, and all its permits are free when nothing is in flight
(`pool_kept`). Who gets a permit next is told by a law of conservation: those in the line and those that ask in the course of a run
are those that are admitted and then those that are left, in this order (`State.fifo_of_steps?`). A download asks when its task first
runs. Only if the tasks first run in the order in which the downloads were registered are these admitted in that order
(`pool_not_in_order`).
-/

namespace ChannelWatch.Cache

variable {p : Policy} {s s' : State} {e : Event} {events : List Event}

/-! ## First come, first served -/

/-- The download that asks for a permit with an event. -/
def Event.queued? : Event → Option Nat
  | .queue d => some d
  | _ => none

/-- The download that an event admits. -/
def Event.admitted? : Event → Option Nat
  | .acquire d => some d
  | _ => none

/-- What those in the line and those that have asked in a run from `s` have come to in `m`: some were admitted, and the rest is left
in the order in which they asked. They are in the line, but for those that have given up because the pool is closed. -/
def State.Serves (s : State) (events : List Event) (m : State) (left : List Nat) : Prop :=
  s.line ++ events.filterMap Event.queued? = events.filterMap Event.admitted? ++ left ∧ m.line.Sublist left ∧
    (m.closed = false → m.line = left)

/-- A step adds a download that asks to those that are left, and takes the first of them away if it is admitted. -/
theorem State.Serves.step {m m' : State} {left : List Nat} (h : s.Serves events m left) (he : m.step? p e = some m') :
    ∃ left, s.Serves (events ++ [e]) m' left := by
  obtain ⟨hlaw, hsub, hopen⟩ := h
  have hline := (effect_of_step? he).line
  have hclosed := open_of_step? he
  simp only [Serves, filterMap_concat]
  cases e with
  | queue d =>
    refine ⟨left ++ [d], ?_, hline ▸ hsub.append_right _, fun hm' => ?_⟩
    · rw [← List.append_assoc, hlaw]
      simp [Event.queued?, Event.admitted?]
    · rw [hline, Event.lineAfter, hopen (hclosed hm')]
  | acquire d =>
    obtain ⟨-, hm, rest, -, hfirst, -, -⟩ := acquire?_eq_some_iff.mp he
    obtain rfl := (hopen hm).symm.trans hfirst
    rw [Event.lineAfter, hfirst, List.tail_cons] at hline
    refine ⟨rest, ?_, hline ▸ List.Sublist.refl _, fun _ => hline⟩
    rw [← List.append_assoc, hlaw]
    simp [Event.queued?, Event.admitted?]
  | abandon d =>
    obtain ⟨-, hm, -⟩ := abandon?_eq_some_iff.mp he
    refine ⟨left, ?_, hline ▸ List.filter_sublist.trans hsub, fun hm' => ?_⟩
    · simpa [Event.queued?, Event.admitted?] using hlaw
    · exact absurd ((hclosed hm').symm.trans hm) Bool.false_ne_true
  | _ =>
    refine ⟨left, ?_, hline ▸ hsub, fun hm' => hline.trans (hopen (hclosed hm'))⟩
    simpa [Event.queued?, Event.admitted?] using hlaw

/-- In every run, downloads are admitted in the order in which they have asked. -/
theorem State.fifo_of_steps? (h : s.steps? p events = some s') : ∃ left, s.Serves events s' left := by
  refine steps?_induction (motive := fun es m => ∃ left, s.Serves es m left) ?_ (fun es m e m' _ ih he => ?_) h
  · exact ⟨s.line, List.append_nil _, List.Sublist.refl _, fun _ => rfl⟩
  · obtain ⟨left, hserves⟩ := ih
    exact hserves.step he

theorem Phase.Next.ne_spawned {d : Nat} {old new : Phase} (h : Phase.Next d e old new) : new ≠ .spawned := by
  cases h <;> nofun

/-- No download asks twice for a permit. -/
theorem State.nodup_queued (hl : s.Lined) (h : s.steps? p events = some s') :
    (s.line ++ events.filterMap Event.queued?).Nodup := by
  suffices hall : (s.line ++ events.filterMap Event.queued?).Nodup ∧
      ∀ d ∈ s.line ++ events.filterMap Event.queued?, ∃ phase, s'.phase? d = some phase ∧ phase ≠ .spawned from hall.1
  refine steps?_induction (motive := fun es m => (s.line ++ es.filterMap Event.queued?).Nodup ∧
    ∀ d ∈ s.line ++ es.filterMap Event.queued?, ∃ phase, m.phase? d = some phase ∧ phase ≠ .spawned)
    ?_ (fun es m e m' _ ih he => ?_) h
  · rw [List.filterMap_nil, List.append_nil]
    exact ⟨hl.nodup, fun d hd => ⟨_, (hl.mem_iff d).mp hd, nofun⟩⟩
  obtain ⟨hnodup, hasked⟩ := ih
  have hkept : ∀ d ∈ s.line ++ es.filterMap Event.queued?, ∃ phase, m'.phase? d = some phase ∧ phase ≠ .spawned := fun d hd => by
    obtain ⟨old, hold, hne⟩ := hasked d hd
    obtain ⟨url, hold⟩ := phase?_eq_some_iff.mp hold
    obtain ⟨new, hnew, rfl | next⟩ := (turn_of_step? he).download_stays hold
    · exact ⟨_, phase?_eq_some_iff.mpr ⟨url, hnew⟩, hne⟩
    · exact ⟨_, phase?_eq_some_iff.mpr ⟨url, hnew⟩, next.ne_spawned⟩
  rw [filterMap_concat, ← List.append_assoc]
  cases e with
  | queue d =>
    obtain ⟨hspawned, rfl⟩ := queue?_eq_some_iff.mp he
    have hnot : d ∉ s.line ++ es.filterMap Event.queued? := fun hmem => by
      obtain ⟨phase, hphase, hne⟩ := hasked d hmem
      exact hne (Option.some.inj (hphase.symm.trans hspawned))
    refine ⟨(List.perm_append_singleton d _).nodup_iff.mpr (List.nodup_cons.mpr ⟨hnot, hnodup⟩), fun x hx => ?_⟩
    rcases List.mem_append.mp hx with hx | hx
    · exact hkept x hx
    · obtain rfl := List.mem_singleton.mp hx
      exact ⟨.queued, phase?_setPhase_self hspawned _, nofun⟩
  | _ =>
    -- no other event is one with which a download asks
    show ((s.line ++ es.filterMap Event.queued?) ++ []).Nodup ∧ ∀ d ∈ (s.line ++ es.filterMap Event.queued?) ++ [], _
    rw [List.append_nil]
    exact ⟨hnodup, hkept⟩

/-! ## The pool -/

/-- How the pool of a cache with some settings is kept. -/
structure State.PoolKept (settings : CacheSettings) (s : State) : Prop where
  /-- No more downloads hold a permit than the settings allow, and one is always allowed. -/
  bounded : s.holding ≤ max 1 settings.maxDownloads
  /-- At rest, a download waits for a permit only if as many as are allowed hold one. -/
  busy : s.IsSettled (.ofSettings settings) → (∃ x ∈ s.downloads, x.phase.awaitsPermit = true) →
    s.holding = max 1 settings.maxDownloads
  /-- Without the source, the downloads come to rest. -/
  settles : ∃ events s', (∀ e ∈ events, e.isOwn = true) ∧ s.steps? (.ofSettings settings) events = some s' ∧
    s'.IsSettled (.ofSettings settings)
  /-- A download stays in its place, and one that is registered comes behind all others. -/
  placed : ∀ e s', s.step? (.ofSettings settings) e = some s' → s.downloads.map (·.url) <+: s'.downloads.map (·.url)
  /-- The downloads in the line are those that have asked for a permit and have none yet. -/
  line : ∀ d, d ∈ s.line ↔ s.phase? d = some .queued
  /-- Downloads are admitted in the order in which they have asked, each of them once, and none is passed over. -/
  served : ∀ events s', s.steps? (.ofSettings settings) events = some s' →
    (s.line ++ events.filterMap Event.queued?).Nodup ∧ ∃ left, s.Serves events s' left
  /-- If they ask in the order in which they were registered, they are admitted in this order, and before any that still waits. -/
  ordered : ∀ events s', s.steps? (.ofSettings settings) events = some s' →
    (s.line ++ events.filterMap Event.queued?).Pairwise (· < ·) →
    (events.filterMap Event.admitted?).Pairwise (· < ·) ∧ ∀ d ∈ events.filterMap Event.admitted?, ∀ x ∈ s'.line, d < x
  /-- All permits are free when nothing is in flight. -/
  free : s.inFlight = 0 → s.holding = 0 ∧ s.free = max 1 settings.maxDownloads

theorem Phase.isMarked_of_holdsPermit {phase : Phase} (h : phase.holdsPermit = true) : phase.isMarked = true := by
  cases phase <;> first | rfl | nomatch h

theorem State.Bookkept.holding_eq_zero (h : s.Bookkept) (hidle : s.inFlight = 0) : s.holding = 0 := by
  refine List.countP_eq_zero.mpr fun ⟨url, phase⟩ hx hholds => ?_
  obtain ⟨d, hd⟩ := List.mem_iff_getElem?.mp hx
  have hmem := (h.marker_iff url d).mpr ⟨phase, hd, Phase.isMarked_of_holdsPermit hholds⟩
  rw [List.length_eq_zero_iff.mp hidle] at hmem
  nomatch hmem

/-- In every state that a cache can come to, however its downloads have ended, the pool is bounded, it is not idle at rest while a
download waits for a permit, it admits the downloads in the order in which they have asked for one, and all its permits are free when
nothing is in flight. -/
theorem pool_kept (settings : CacheSettings) (h : Reachable (.ofSettings settings) s) : s.PoolKept settings := by
  have hpermits : s.free + s.holding = max 1 settings.maxDownloads := h.permits
  refine {
    bounded := by omega
    busy := ?_
    settles := s.settles (.ofSettings settings)
    placed := fun e s' hs => ?_
    line := h.lined.mem_iff
    served := fun events s' hs => ⟨State.nodup_queued h.lined hs, State.fifo_of_steps? hs⟩
    ordered := fun events s' hs hsorted => ?_
    free := ?_ }
  · rintro hsettled ⟨⟨url, phase⟩, hx, hawaits⟩
    obtain ⟨d, hd⟩ := List.mem_iff_getElem?.mp hx
    have hphase := State.phase?_eq_some_iff.mpr ⟨url, hd⟩
    rcases hsettled.phase_cases hphase with rfl | ⟨file, body, rfl⟩ | rfl
    · have hfree := (hsettled.free_eq_zero h.lined hphase).2
      omega
    · nomatch hawaits
    · nomatch hawaits
  · rcases (turn_of_step? hs).urls with hsame | ⟨c, url, -, hone⟩
    · exact hsame ▸ List.prefix_refl _
    · exact hone ▸ List.prefix_append _ _
  · obtain ⟨left, hlaw, hsub, -⟩ := State.fifo_of_steps? hs
    rw [hlaw] at hsorted
    obtain ⟨hadmitted, -, hbefore⟩ := List.pairwise_append.mp hsorted
    exact ⟨hadmitted, fun d hd x hx => hbefore d hd x (hsub.subset hx)⟩
  · intro hidle
    have hholding := h.bookkept.holding_eq_zero hidle
    exact ⟨hholding, by omega⟩

/-- With settings that allow no download at once, one is at work after the crash of another, and the third waits. -/
theorem pool_kept_after_crash : ∃ s, Reachable (.ofSettings ⟨true, "cache", 1, 1, 0, 1, "/", "agent", "referer"⟩) s ∧
    s.IsSettled (.ofSettings ⟨true, "cache", 1, 1, 0, 1, "/", "agent", "referer"⟩) ∧
    s.asked = ["https://a/b.png", "https://a/b.png"] ∧ s.line = [2] ∧ s.holding = 1 ∧
    s.PoolKept ⟨true, "cache", 1, 1, 0, 1, "/", "agent", "referer"⟩ := by
  let settings : CacheSettings := ⟨true, "cache", 1, 1, 0, 1, "/", "agent", "referer"⟩
  let url := "https://a/b.png"
  let other := "https://a/c.gif"
  let temp := tempName (fileName url)
  let admitted : State := {
    clock := 0, directory := .present [(temp, .file ⟨0, [1], 0⟩)], freshFile := 1, closed := false, free := 0, line := [2]
    downloads := [⟨url, .ended⟩, ⟨url, .admitted⟩, ⟨other, .queued⟩], markers := [(other, 2), (url, 1)]
    calls := [⟨.preload, url, .finished⟩, ⟨.preload, url, .finished⟩, ⟨.preload, other, .finished⟩]
    sweeps := [], asked := [url], delivered := [] }
  let events : List Event := [.call .preload "https://a/b.png", .call .preload "http://a/b.png", .call .preload "https://a/c.gif",
    .register 0, .queue 0, .acquire 0, .create 0, .ask 0, .write 0 [1], .crash 0, .release 0, .unmark 0, .signal 0, .register 1,
    .register 2, .queue 1, .queue 2, .acquire 1]
  have hcrashed : (State.begun (.ofSettings settings) (.present []) 0).steps? (.ofSettings settings) events = some admitted := rfl
  have hcreate : admitted.directory.create? 1 0 temp = some (.present [(temp, .file ⟨0, [], 0⟩)], 0) := by
    simp [admitted, Directory.create?, Directory.insert]
  obtain ⟨directory, hfetched, -, -⟩ := State.fetched (p := .ofSettings settings) (s := admitted) (d := 1) rfl hcreate []
  have hr := (Reachable.begun (p := .ofSettings settings) (.present []) 0).steps? (State.steps?_trans hcrashed hfetched)
  refine ⟨_, hr, (State.isSettled_iff hr.lined).mpr ?_, rfl, rfl, rfl, pool_kept settings hr⟩
  simp [admitted, State.setPhase]

/-- Of two downloads, the task of the one that was registered later may run first: it is admitted, and the other one waits. And there
is no cache with more permits than a pool can have. -/
theorem pool_not_in_order :
    (∃ events s, (State.begun (.ofSettings ⟨true, "cache", 1, 1, 1, 1, "/", "agent", "referer"⟩) (.present []) 0).steps?
        (.ofSettings ⟨true, "cache", 1, 1, 1, 1, "/", "agent", "referer"⟩) events = some s ∧
      s.IsSettled (.ofSettings ⟨true, "cache", 1, 1, 1, 1, "/", "agent", "referer"⟩) ∧
      s.downloads.map (·.url) = ["https://a/b.png", "https://a/c.gif"] ∧ s.asked = ["https://a/c.gif"] ∧
      events.filterMap Event.admitted? = [1] ∧ s.line = [0]) ∧
    ImageCache.build? ⟨true, "cache", 1, 1, 2305843009213693952, 1, "/", "agent", "referer"⟩ (.present []) 0 = none := by
  let settings : CacheSettings := ⟨true, "cache", 1, 1, 1, 1, "/", "agent", "referer"⟩
  let url := "https://a/b.png"
  let other := "https://a/c.gif"
  let waiting : State := {
    clock := 0, directory := .present [(tempName (fileName other), .file ⟨0, [], 0⟩)], freshFile := 1, closed := false, free := 0
    line := [0], downloads := [⟨url, .queued⟩, ⟨other, .fetching 0 []⟩], markers := [(other, 1), (url, 0)]
    calls := [⟨.preload, url, .finished⟩, ⟨.preload, other, .finished⟩], sweeps := [], asked := [other], delivered := [] }
  let events : List Event := [.call .preload "https://a/b.png", .call .preload "https://a/c.gif", .register 0, .register 1, .queue 1,
    .queue 0, .acquire 1, .create 1, .ask 1]
  have hrun : (State.begun (.ofSettings settings) (.present []) 0).steps? (.ofSettings settings) events = some waiting := rfl
  have hr := (Reachable.begun (p := .ofSettings settings) (.present []) 0).steps? hrun
  refine ⟨⟨events, waiting, hrun, (State.isSettled_iff hr.lined).mpr ?_, rfl, rfl, rfl, rfl⟩, by decide⟩
  simp [waiting]

end ChannelWatch.Cache
