import ChannelWatch.Proofs.Feed.Order
import ChannelWatch.Proofs.Service.Steps

/-!
# Updates that overtake each other

Updates may be under way at once, and each reads the clock before it publishes. A snapshot that has been published is followed
only by other snapshots, and their times go forward (`snapshot_followed`) unless an update publishes that was overtaken
(`Overtaken`): another one has read the clock later and published earlier. Then the time goes back
(`snapshot_back_in_time`). How long an update waits for images does not matter, since it reads the clock afterwards.
-/

namespace ChannelWatch

theorem Instant.le_iff {a b : Instant} : a.le b = true ↔ a.seconds < b.seconds ∨ a.seconds = b.seconds ∧ a.nanos ≤ b.nanos := by
  simp [Instant.le]

theorem Instant.ofNanos_le {m n : Int} (h : m ≤ n) : (Instant.ofNanos m).le (Instant.ofNanos n) = true := by
  have hseconds : m / 1000000000 ≤ n / 1000000000 := Int.ediv_le_ediv (by decide) h
  rw [Instant.le_iff]
  dsimp only [Instant.ofNanos]
  omega

/-- The snapshot of an update that has read the clock. -/
def Update.stamped? : Update → Option Snapshot
  | stamped snapshot => some snapshot
  | published snapshot => some snapshot
  | _ => none

namespace Service

variable {s s' start : Service} {e : Event} {events before after : List Event} {settings : VideoSettings}
  {cache : Option ImageCache} {clock : Int}

/-! ## The clock -/

/-- The clock goes on when time passes, and by nothing else. -/
theorem clock_of_step? (h : s.step? e = some s') :
    s'.clock = s.clock ∨ ∃ nanos, e = .tick nanos ∧ s'.clock = s.clock + nanos := by
  cases e with
  | tick nanos =>
    obtain rfl := Option.some.inj h
    exact Or.inr ⟨nanos, rfl, rfl⟩
  | update =>
    obtain rfl := Option.some.inj h
    exact Or.inl rfl
  | cache ce =>
    obtain ⟨_, _, -, -, -, rfl⟩ := cacheStep?_eq_some_iff.mp h
    exact Or.inl rfl
  | fetch i outcome =>
    obtain ⟨-, rfl⟩ := fetch?_eq_some_iff.mp h
    exact Or.inl rfl
  | look i =>
    obtain ⟨_, _, _, _, -, -, -, rfl⟩ := look?_eq_some_iff.mp h
    exact Or.inl rfl
  | gather i =>
    obtain ⟨_, _, _, -, -, rfl⟩ := gather?_eq_some_iff.mp h
    exact Or.inl rfl
  | stamp i =>
    obtain ⟨_, _, -, rfl⟩ := stamp?_eq_some_iff.mp h
    exact Or.inl rfl
  | publish i =>
    obtain ⟨_, -, rfl⟩ := publish?_eq_some_iff.mp h
    exact Or.inl rfl

/-- The clock never goes back in a run, and it goes on only where some time passes. -/
theorem clock_of_steps? (h : s.steps? events = some s') :
    s.clock ≤ s'.clock ∧ (s.clock < s'.clock → ∃ nanos, 0 < nanos ∧ .tick nanos ∈ events) := by
  refine steps?_along (motive := fun es m => s.clock ≤ m.clock ∧ (s.clock < m.clock → ∃ nanos, 0 < nanos ∧ .tick nanos ∈ es))
    ⟨Int.le_refl _, fun hlt => absurd hlt (Int.lt_irrefl _)⟩ (fun es m e m' _ ih he => ?_) h
  obtain ⟨hle, htick⟩ := ih
  have hearlier : s.clock < m.clock → ∃ nanos, 0 < nanos ∧ .tick nanos ∈ es ++ [e] := by
    intro hlt
    obtain ⟨nanos, hpos, hmem⟩ := htick hlt
    exact ⟨nanos, hpos, List.mem_append_left _ hmem⟩
  rcases clock_of_step? he with hsame | ⟨nanos, rfl, hmore⟩
  · rw [hsame]
    exact ⟨hle, hearlier⟩
  · refine ⟨by omega, fun hlt => ?_⟩
    by_cases hzero : nanos = 0
    · exact hearlier (by omega)
    · exact ⟨nanos, by omega, by simp⟩

/-- Of two events of a run, that which happens at the earlier time comes first, and some time passes between them. -/
theorem Happens.before_of_clock_lt {m m' : Service} {e' : Event} {rest : List Event} (h : start.Happens events m e)
    (hne : ∀ nanos, e ≠ .tick nanos) (heq : events = before ++ e' :: rest) (hm' : start.steps? before = some m')
    (hlt : m.clock < m'.clock) : ∃ nanos, 0 < nanos ∧ [e, .tick nanos].Sublist before := by
  obtain ⟨earlier, later, rfl, hm⟩ := h
  -- one of the two events is among those before the other, or they are the same
  rcases List.append_eq_append_iff.mp heq with ⟨between, rfl, hcons⟩ | ⟨between, rfl, -⟩
  · rw [steps?_append, hm, Option.bind_some] at hm'
    cases between with
    | nil =>
      obtain rfl := Option.some.inj hm'
      exact absurd hlt (Int.lt_irrefl _)
    | cons x between =>
      obtain ⟨rfl, -⟩ := List.cons.inj hcons
      obtain ⟨nanos, hpos, hmem⟩ := (clock_of_steps? hm').2 hlt
      have hbetween : .tick nanos ∈ between := (List.mem_cons.mp hmem).resolve_left fun heq => hne nanos heq.symm
      exact ⟨nanos, hpos, ((List.singleton_sublist.mpr hbetween).cons_cons e).trans (List.sublist_append_right _ _)⟩
  · rw [steps?_append, hm', Option.bind_some] at hm
    have := (clock_of_steps? hm).1
    omega

/-! ## When snapshots were stamped -/

/-- The times of the snapshots that there are in a run: each was stamped by its update, and the current one has been published
since then. -/
structure Timed (start : Service) (events : List Event) (s : Service) : Prop where
  stamped : ∀ i u snapshot, s.updates[i]? = some u → u.stamped? = some snapshot →
    ∃ m, start.Happens events m (.stamp i) ∧ snapshot.updatedAt = Instant.ofNanos m.clock
  current : ∀ snapshot, s.snapshot = some snapshot → ∃ j m before rest, events = before ++ .stamp j :: rest ∧
    start.steps? before = some m ∧ .publish j ∈ rest ∧ s.updates[j]? = some (.published snapshot) ∧
    snapshot.updatedAt = Instant.ofNanos m.clock

/-- A snapshot that is stamped after a step was stamped before it, or is stamped by it. -/
theorem Timed.stamped_step (h : start.Timed events s) (hrun : start.steps? events = some s) (hs : s.step? e = some s') {i : Nat}
    {u : Update} {snapshot : Snapshot} (hu : s'.updates[i]? = some u) (hsnapshot : u.stamped? = some snapshot) :
    ∃ m, start.Happens (events ++ [e]) m (.stamp i) ∧ snapshot.updatedAt = Instant.ofNanos m.clock := by
  have before : ∀ old, s.updates[i]? = some old → old.stamped? = some snapshot →
      ∃ m, start.Happens (events ++ [e]) m (.stamp i) ∧ snapshot.updatedAt = Instant.ofNanos m.clock := by
    intro old hold hsame
    obtain ⟨m, hm, htime⟩ := h.stamped i old snapshot hold hsame
    exact ⟨m, hm.append [e], htime⟩
  cases (turn_of_step? hs).1 with
  | idle updates => exact before u (updates ▸ hu) hsnapshot
  | begin updates =>
    rw [updates, getElem?_append_singleton] at hu
    split at hu
    · obtain rfl := Option.some.inj hu
      nomatch hsnapshot
    · exact before u hu hsnapshot
  | go j old new here next updates =>
    rw [updates, getElem?_set_of_eq_some here] at hu
    split at hu
    · rename_i hij
      subst hij
      obtain rfl := Option.some.inj hu
      cases next with
      | stamp entries failed =>
        obtain rfl := Option.some.inj hsnapshot
        exact ⟨s, happens_last hrun, rfl⟩
      | publish published => exact before _ here hsnapshot
      | _ => nomatch hsnapshot
    · exact before u hu hsnapshot

/-- A step keeps the times. -/
theorem Timed.step (h : start.Timed events s) (hrun : start.steps? events = some s) (hs : s.step? e = some s') :
    start.Timed (events ++ [e]) s' := by
  refine ⟨fun i u snapshot hu hsnapshot => h.stamped_step hrun hs hu hsnapshot, fun snapshot hsnapshot => ?_⟩
  rcases snapshot_of_step? hs with heq | ⟨i, stamped, rfl, hu, hnew⟩
  · obtain ⟨j, m, before, rest, rfl, hm, hmem, hj, htime⟩ := h.current snapshot (heq ▸ hsnapshot)
    obtain ⟨new, hnew, rfl | next⟩ := (turn_of_step? hs).1.update_stays hj
    · exact ⟨j, m, before, rest ++ [e], by simp, hm, List.mem_append_left _ hmem, hnew, htime⟩
    · nomatch next
  · obtain rfl := Option.some.inj (hnew.symm.trans hsnapshot)
    obtain ⟨m, ⟨before, rest, rfl, hm⟩, htime⟩ := h.stamped i _ stamped hu rfl
    obtain ⟨published, hpublished, rfl⟩ := publish?_eq_some_iff.mp hs
    obtain rfl := Update.stamped.inj (Option.some.inj (hu.symm.trans hpublished))
    exact ⟨i, m, before, rest ++ [.publish i], by simp, hm, by simp,
      List.getElem?_set_self (List.getElem?_eq_some_iff.mp hu).1, htime⟩

/-- The snapshots of a run are timed. -/
theorem timed_of_steps? (h : (initial settings cache clock).steps? events = some s) :
    (initial settings cache clock).Timed events s := by
  refine steps?_along (motive := fun es m => (initial settings cache clock).Timed es m)
    ⟨fun i u snapshot hu => by simp [initial] at hu, fun snapshot hs => by simp [initial] at hs⟩
    (fun es m e m' hes ih he => ih.step hes he) h

/-! ## Overtaking -/

/-- An update is overtaken: another one reads the clock at a later time, and publishes before it does. -/
def Overtaken (events : List Event) (i : Nat) : Prop :=
  ∃ j nanos, 0 < nanos ∧ [.stamp i, .tick nanos, .stamp j, .publish j, .publish i].Sublist events

theorem Overtaken.append {i : Nat} (h : Overtaken events i) (more : List Event) : Overtaken (events ++ more) i := by
  obtain ⟨j, nanos, hpos, hsub⟩ := h
  exact ⟨j, nanos, hpos, hsub.trans (List.sublist_append_left _ _)⟩

/-- The snapshot of an update that has not been overtaken is not older than that which it replaces. -/
theorem Timed.publish (h : start.Timed events s) {i : Nat} {a b : Snapshot} (hi : s.updates[i]? = some (.stamped b))
    (ha : s.snapshot = some a) (hnot : ¬Overtaken (events ++ [.publish i]) i) : a.updatedAt.le b.updatedAt = true := by
  obtain ⟨j, m, before, rest, heq, hm, hpublish, -, htime⟩ := h.current a ha
  obtain ⟨m', hm', htime'⟩ := h.stamped i _ b hi rfl
  rw [htime, htime']
  apply Instant.ofNanos_le
  by_contra hlt
  obtain ⟨nanos, hpos, hsub⟩ := hm'.before_of_clock_lt nofun heq hm (by omega)
  refine hnot ⟨j, nanos, hpos, ?_⟩
  have hrest : [Event.stamp j, .publish j].Sublist (.stamp j :: rest) :=
    (List.singleton_sublist.mpr hpublish).cons_cons _
  rw [heq]
  exact (hsub.append hrest).append (List.Sublist.refl [Event.publish i])

/-- What has become of a snapshot `a` by some more events `after`: the service has a snapshot `b` instead, or still. -/
structure Follows (start : Service) (before after : List Event) (s : Service) (a b : Snapshot) : Prop where
  current : s.snapshot = some b
  /-- The time of a snapshot is that at which its update, with all images at hand, has read the clock. -/
  timed : ∃ i m, s.updates[i]? = some (.published b) ∧ start.Happens (before ++ after) m (.stamp i) ∧
    b.updatedAt = Instant.ofNanos m.clock
  /-- The time has not gone back, unless an update has published that was overtaken. -/
  forward : (∀ i, .publish i ∈ after → ¬Overtaken (before ++ after) i) → a.updatedAt.le b.updatedAt = true

/-- In every run, whatever updates are under way at once and however they mix, a snapshot that has been published is followed only
by other snapshots, whose times go forward as long as no update publishes that was overtaken. -/
theorem snapshot_followed {a : Snapshot} (h : (initial settings cache clock).steps? before = some s)
    (h' : s.steps? after = some s') (ha : s.snapshot = some a) :
    ∃ b, (initial settings cache clock).Follows before after s' a b := by
  refine steps?_along (motive := fun es m => ∃ b, (initial settings cache clock).Follows before es m a b) ?_
    (fun es m e m' hes ih he => ?_) h'
  · obtain ⟨j, m, earlier, rest, heq, hm, -, hj, htime⟩ := (timed_of_steps? h).current a ha
    exact ⟨a, ha, ⟨j, m, hj, ⟨earlier, rest, by simpa using heq, hm⟩, htime⟩, fun _ => Instant.le_refl _⟩
  · have hrun := steps?_trans h hes
    have htimed := timed_of_steps? hrun
    obtain ⟨b, hb, -, hforward⟩ := ih
    have hearlier : (∀ i, .publish i ∈ es ++ [e] → ¬Overtaken (before ++ (es ++ [e])) i) →
        a.updatedAt.le b.updatedAt = true := by
      intro hnot
      refine hforward fun i hi hover => hnot i (List.mem_append_left _ hi) ?_
      rw [← List.append_assoc]
      exact hover.append [e]
    have hmore : (initial settings cache clock).Timed (before ++ (es ++ [e])) m' := by
      rw [← List.append_assoc]
      exact htimed.step hrun he
    have hnow : ∀ c, m'.snapshot = some c → ∃ i k, m'.updates[i]? = some (.published c) ∧
        (initial settings cache clock).Happens (before ++ (es ++ [e])) k (.stamp i) ∧ c.updatedAt = Instant.ofNanos k.clock := by
      intro c hc
      obtain ⟨i, k, earlier, rest, heq, hk, -, hi, htime⟩ := hmore.current c hc
      exact ⟨i, k, hi, ⟨earlier, rest, heq, hk⟩, htime⟩
    rcases snapshot_of_step? he with hsame | ⟨i, c, rfl, hi, hc⟩
    · exact ⟨b, hsame.trans hb, hnow b (hsame.trans hb), hearlier⟩
    · refine ⟨c, hc, hnow c hc, fun hnot => Instant.le_trans (hearlier hnot) ?_⟩
      refine htimed.publish hi hb ?_
      rw [List.append_assoc]
      exact hnot i (by simp)

/-- An update that has been waiting while another one began and published, and then reads the clock, takes the time forward. -/
theorem snapshot_followed_after_wait : ∃ (before after : List Event) (s s' : Service) (a b : Snapshot),
    (initial VideoSettings.standard none 0).steps? before = some s ∧ s.steps? after = some s' ∧ s.snapshot = some a ∧
      s.updates[0]? = some (.looking ⟨[], 0⟩ []) ∧ s'.updates[0]? = some (.published b) ∧
      (initial VideoSettings.standard none 0).Follows before after s' a b ∧ a.updatedAt.le b.updatedAt = true := by
  let before : List Event :=
    [.update, .fetch 0 (.ok ⟨[], 0⟩), .update, .fetch 1 (.ok ⟨[], 1⟩), .tick 3, .gather 1, .stamp 1, .publish 1]
  let after : List Event := [.tick 7, .gather 0, .stamp 0, .publish 0]
  obtain ⟨s, s', h, h', ha, hwaiting, hs', hpublished⟩ : ∃ s s', (initial VideoSettings.standard none 0).steps? before = some s ∧
      s.steps? after = some s' ∧ s.snapshot = some ⟨[], 1, .ofNanos 3⟩ ∧ s.updates[0]? = some (.looking ⟨[], 0⟩ []) ∧
      s'.snapshot = some ⟨[], 0, .ofNanos 10⟩ ∧ s'.updates[0]? = some (.published ⟨[], 0, .ofNanos 10⟩) :=
    ⟨_, _, rfl, rfl, rfl, rfl, rfl, rfl⟩
  obtain ⟨b, hb⟩ := snapshot_followed h h' ha
  obtain rfl := Option.some.inj (hb.current.symm.trans hs')
  -- no time passes between the two moments at which the first update reads the clock and publishes
  let code : Event → Nat := fun e => match e with
    | .stamp i => 2 * i + 2
    | .tick _ => 1
    | _ => 0
  refine ⟨before, after, s, s', _, _, h, h', ha, hwaiting, hpublished, hb, hb.forward ?_⟩
  rintro i hi ⟨j, nanos, -, hsub⟩
  obtain rfl : i = 0 := by simpa [after] using hi
  have hcodes : [2, 1].Sublist ((before ++ after).map code) :=
    ((List.sublist_append_left [Event.stamp 0, .tick nanos] _).trans hsub).map code
  exact absurd hcodes (by decide)

/-- An update that reads the clock, is overtaken and then publishes takes the time of the current snapshot back. -/
theorem snapshot_back_in_time : ∃ (before after : List Event) (s s' : Service) (a b : Snapshot),
    (initial VideoSettings.standard none 0).steps? before = some s ∧ s.steps? after = some s' ∧ s.snapshot = some a ∧
      s'.snapshot = some b ∧ a.updatedAt.le b.updatedAt = false ∧ Overtaken (before ++ after) 0 := by
  refine ⟨[.update, .fetch 0 (.ok ⟨[], 0⟩), .update, .fetch 1 (.ok ⟨[], 1⟩), .gather 0, .gather 1, .stamp 0, .tick 7, .stamp 1,
    .publish 1], [.publish 0], _, _, _, _, rfl, rfl, rfl, rfl, by decide, 1, 7, by decide, ?_⟩
  exact List.Sublist.cons _ (.cons _ (.cons _ (.cons _ (.cons _ (.cons _ (.refl _))))))

end Service

end ChannelWatch
