import ChannelWatch.Proofs.Service.Update

/-!
# What has been published

Every update with a feed has fetched it in the course of the run, and its snapshot is one of this feed with the answers to the
calls that the update has made since (`fetched_of_steps?`). When updates are made one after another, the current snapshot is the
one that the last of them to succeed has returned (`inTurn_of_steps?`).
-/

namespace ChannelWatch

/-- The snapshot that an update has returned, if it has succeeded. -/
def Update.returned? : Update → Option Snapshot
  | published snapshot => some snapshot
  | _ => none

/-- An update that goes on returns nothing yet, unless it publishes. -/
theorem Update.Next.returned {s : Service} {e : Service.Event} {i : Nat} {old new : Update}
    (h : Update.Next s i e old new) : old.returned? = none ∧ old.result? = none ∧
      (new.returned? = none ∧ (∀ j, e ≠ .publish j) ∨ ∃ snapshot, e = .publish i ∧ old = .stamped snapshot ∧
        new = .published snapshot) := by
  cases h with
  | publish snapshot => exact ⟨rfl, rfl, Or.inr ⟨snapshot, rfl, rfl, rfl⟩⟩
  | _ => exact ⟨rfl, rfl, Or.inl ⟨rfl, nofun⟩⟩

namespace Service

variable {s s' : Service} {e : Event} {events : List Event} {settings : VideoSettings} {cache : Option ImageCache}
  {clock : Int}

/-! ## Where a snapshot comes from -/

/-- How many calls the cache of a service has seen. -/
def callCount (s : Service) : Nat :=
  (s.cache.map (·.state.calls.length)).getD 0

theorem callCount_le : ∀ c, s.cache = some c → s.callCount ≤ c.state.calls.length := by
  intro c hc
  simp only [callCount, hc, Option.map_some, Option.getD_some]
  exact Nat.le_refl _

/-- An update with a feed has fetched it in the course of the run, and is where the feed and the calls that it has made since
bring it. -/
def HasFetched (start : Service) (events : List Event) (s : Service) (i : Nat) (u : Update) : Prop :=
  ∃ m feed, start.Happens events m (.fetch i (.ok feed)) ∧ s.Meets m.callCount feed u ∧
    ∀ c, s.cache = some c → m.callCount ≤ c.state.calls.length

theorem HasFetched.step {start : Service} {i : Nat} {u u' : Update} (h : start.HasFetched events s i u)
    (hu : s.updates[i]? = some u) (hs : s.step? e = some s') (hu' : s'.updates[i]? = some u') :
    start.HasFetched (events ++ [e]) s' i u' := by
  obtain ⟨m, feed, hm, hmeets, hsince⟩ := h
  obtain ⟨new, hnew, hmeets'⟩ := hmeets.step hsince hu hs
  obtain rfl := Option.some.inj (hnew.symm.trans hu')
  exact ⟨m, feed, hm.append [e], hmeets', (turn_of_step? hs).2.since_le hsince⟩

/-- In a run from the beginning, an update is still fetching, or has failed, or has fetched its feed in the course of the run. -/
theorem fetched_of_steps? (h : (initial settings cache clock).steps? events = some s) {i : Nat} {u : Update}
    (hu : s.updates[i]? = some u) : u = .fetching ∨ (∃ fault, u = .failed fault) ∨
      (initial settings cache clock).HasFetched events s i u := by
  refine steps?_along (motive := fun es m => ∀ i u, m.updates[i]? = some u → u = .fetching ∨ (∃ fault, u = .failed fault) ∨
    (initial settings cache clock).HasFetched es m i u) (fun i u hu => by simp [initial] at hu) (fun es m e m' hes ih he i u hu => ?_) h i u hu
  have turn := (turn_of_step? he).1
  cases hold : m.updates[i]? with
  | none =>
    -- the update has only just begun
    cases turn with
    | idle updates => rw [updates, hold] at hu; nomatch hu
    | begin updates =>
      rw [updates, getElem?_append_singleton] at hu
      split at hu
      · exact Or.inl (Option.some.inj hu).symm
      · nomatch hold.symm.trans hu
    | go j old new here _ updates =>
      rw [updates, getElem?_set_of_eq_some here] at hu
      split at hu
      · rename_i hij
        subst hij
        nomatch hold.symm.trans here
      · nomatch hold.symm.trans hu
  | some old =>
    obtain ⟨new, hnew, hcases⟩ := turn.update_stays hold
    obtain rfl := Option.some.inj (hnew.symm.trans hu)
    rcases ih i old hold with rfl | ⟨fault, rfl⟩ | hfetched
    · rcases hcases with rfl | next
      · exact Or.inl rfl
      · cases next with
        | fail fault => exact Or.inr (Or.inl ⟨fault, rfl⟩)
        | fetch feed =>
          obtain ⟨-, rfl⟩ := fetch?_eq_some_iff.mp he
          exact Or.inr (Or.inr ⟨m, feed, happens_last hes, meets_looking _ _ _, callCount_le⟩)
    · rcases hcases with rfl | next
      · exact Or.inr (Or.inl ⟨fault, rfl⟩)
      · nomatch next
    · exact Or.inr (Or.inr (hfetched.step hold he hu))

/-- The current snapshot is one that an update has returned. -/
theorem published_of_snapshot (h : (initial settings cache clock).steps? events = some s) {snapshot : Snapshot}
    (hs : s.snapshot = some snapshot) : ∃ i : Nat, s.updates[i]? = some (Update.published snapshot) := by
  refine steps?_along (motive := fun _ m => ∀ snapshot, m.snapshot = some snapshot →
    ∃ i : Nat, m.updates[i]? = some (Update.published snapshot)) (fun _ hs => by simp [initial] at hs) (fun es m e m' hes ih he snapshot hs => ?_) h
    snapshot hs
  rcases snapshot_of_step? he with heq | ⟨i, stamped, rfl, hu, hnew⟩
  · obtain ⟨i, hi⟩ := ih snapshot (heq ▸ hs)
    obtain ⟨new, hnew, rfl | next⟩ := (turn_of_step? he).1.update_stays hi
    · exact ⟨i, hnew⟩
    · nomatch next
  · obtain rfl := Option.some.inj (hnew.symm.trans hs)
    obtain ⟨published, hpublished, rfl⟩ := publish?_eq_some_iff.mp he
    obtain rfl := Update.stamped.inj (Option.some.inj (hu.symm.trans hpublished))
    exact ⟨i, List.getElem?_set_self (List.getElem?_eq_some_iff.mp hu).1⟩

/-! ## One update after another -/

/-- The updates of a run are made one after another: none begins before all are over that have begun before it. -/
def OneAfterAnother (start : Service) (events : List Event) : Prop :=
  ∀ m, start.Happens events m .update → ∀ u ∈ m.updates, u.result? ≠ none

theorem OneAfterAnother.nil (start : Service) : start.OneAfterAnother [] := by
  rintro m ⟨before, after, heq, -⟩
  simp at heq

/-- Another update may begin when all are over. -/
theorem OneAfterAnother.begin {start : Service} (h : start.OneAfterAnother events) (hrun : start.steps? events = some s)
    (hover : ∀ u ∈ s.updates, u.result? ≠ none) : start.OneAfterAnother (events ++ [.update]) := by
  intro m hm
  rcases happens_snoc hm with hm | ⟨-, hm⟩
  · exact h m hm
  · obtain rfl := Option.some.inj (hrun.symm.trans hm)
    exact hover

theorem OneAfterAnother.snoc {start : Service} (h : start.OneAfterAnother events) (hne : e ≠ .update) :
    start.OneAfterAnother (events ++ [e]) := by
  intro m hm
  rcases happens_snoc hm with hm | ⟨heq, -⟩
  · exact h m hm
  · exact absurd heq.symm hne

/-- The snapshot that the last update to succeed has returned. -/
def lastReturned? (s : Service) : Option Snapshot :=
  (s.updates.filterMap Update.returned?).getLast?

/-- Every update but the last one is over, and the current snapshot is what the last one to succeed has returned. -/
structure InTurn (s : Service) : Prop where
  settled : ∀ i u, s.updates[i]? = some u → i + 1 < s.updates.length → u.result? ≠ none
  latest : s.snapshot = s.lastReturned?

/-- What has been returned last is what the last update has returned, or else what was returned before it. -/
theorem lastReturned?_of_snoc {us : List Update} {u : Update} (h : s.updates = us ++ [u]) :
    s.lastReturned? = u.returned?.or (us.filterMap Update.returned?).getLast? := by
  rw [lastReturned?, h, List.filterMap_append]
  cases hu : u.returned? <;> simp [hu]

/-- An update that is not over is the last one, also after it has gone on. -/
theorem InTurn.last (h : s.InTurn) {i : Nat} {old : Update} (hu : s.updates[i]? = some old)
    (hresult : old.result? = none) (new : Update) : i + 1 = s.updates.length ∧ s.updates = s.updates.take i ++ [old] ∧
      s.updates.set i new = s.updates.take i ++ [new] := by
  obtain ⟨hlt, hget⟩ := List.getElem?_eq_some_iff.mp hu
  have hlast : i + 1 = s.updates.length := by
    have hsettled := h.settled i old hu
    apply Decidable.of_not_not
    intro hne
    exact hsettled (by omega) hresult
  have hset : ∀ u, s.updates.set i u = s.updates.take i ++ [u] := by
    intro u
    rw [List.set_eq_take_append_cons_drop, if_pos hlt, hlast, List.drop_length]
  refine ⟨hlast, ?_, hset new⟩
  rw [← hset old, ← hget, List.set_getElem_self]

/-- A step keeps updates in turn, if it begins none before all are over. -/
theorem InTurn.step (h : s.InTurn) (hs : s.step? e = some s') (hover : e = .update → ∀ u ∈ s.updates, u.result? ≠ none) :
    s'.InTurn := by
  have hsnapshot := snapshot_of_step? hs
  cases (turn_of_step? hs).1 with
  | idle updates =>
    refine ⟨by rw [updates]; exact h.settled, ?_⟩
    rcases hsnapshot with heq | ⟨i, snapshot, rfl, hu, -⟩
    · rw [heq, h.latest, lastReturned?, lastReturned?, updates]
    · -- publishing does change the updates
      obtain ⟨stamped, hstamped, rfl⟩ := publish?_eq_some_iff.mp hs
      have hnew : (s.updates.set i (.published stamped))[i]? = some (.published stamped) :=
        List.getElem?_set_self (List.getElem?_eq_some_iff.mp hstamped).1
      have hsame : s.updates.set i (.published stamped) = s.updates := updates
      rw [hsame] at hnew
      nomatch hstamped.symm.trans hnew
  | begin updates =>
    constructor
    · intro i u hu hlt
      rw [updates, List.length_append, List.length_singleton] at hlt
      rw [updates, getElem?_append_singleton, if_neg (by omega)] at hu
      exact hover rfl u (List.mem_of_getElem? hu)
    · rcases hsnapshot with heq | ⟨_, _, he, -, -⟩
      · rw [heq, h.latest, lastReturned?_of_snoc updates]
        rfl
      · nomatch he
  | go i old new here next updates =>
    obtain ⟨hold, hresult, hcases⟩ := next.returned
    obtain ⟨hlast, hbefore, hset⟩ := h.last here hresult new
    constructor
    · intro j u hu hj
      rw [updates, List.length_set] at hj
      rw [updates, getElem?_set_of_eq_some here, if_neg (by omega)] at hu
      exact h.settled j u hu hj
    · rw [lastReturned?_of_snoc (updates.trans hset)]
      rcases hcases with ⟨hnew, hne⟩ | ⟨snapshot, rfl, rfl, rfl⟩
      · rcases hsnapshot with heq | ⟨j, _, he, -, -⟩
        · rw [heq, h.latest, lastReturned?_of_snoc hbefore, hold, hnew]
        · exact absurd he (hne j)
      · obtain ⟨stamped, hstamped, rfl⟩ := publish?_eq_some_iff.mp hs
        obtain rfl := Update.stamped.inj (Option.some.inj (here.symm.trans hstamped))
        rfl

/-- In a run whose updates are made one after another, they stay in turn. -/
theorem inTurn_of_steps? (h : (initial settings cache clock).steps? events = some s)
    (hseq : (initial settings cache clock).OneAfterAnother events) : s.InTurn := by
  refine steps?_along (motive := fun es m => (initial settings cache clock).OneAfterAnother es → m.InTurn)
    (fun _ => ⟨fun i u hu => by simp [initial] at hu, rfl⟩) (fun es m e m' hes ih he hseq => ?_) h hseq
  refine (ih fun t ht => hseq t (ht.append [e])).step he fun heq => ?_
  subst heq
  exact hseq m (happens_last hes)

end Service

end ChannelWatch
