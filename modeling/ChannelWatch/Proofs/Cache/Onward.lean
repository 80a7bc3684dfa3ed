import ChannelWatch.Proofs.Cache.Once
import ChannelWatch.Proofs.Cache.Permits

/-!
# Downloads go on

A download takes all its steps by itself but those with which the source answers it, and the one that needs a permit. Left alone,
the downloads of a cache come to rest (`State.settles`): what is not over then waits for a permit or for the source. If the source
answers, all of them come to an end (`State.downloads_end`).
-/

namespace ChannelWatch.Cache

variable {p : Policy} {s s' : State} {e : Event} {d : Nat}

/-- The event is a step that a download takes by itself. -/
def Event.isOwn : Event → Bool
  | .queue _ | .abandon _ | .acquire _ | .create _ | .ask _ | .rename _ | .clean _ | .release _ | .unmark _ | .signal _ => true
  | _ => false

/-- No download can go on by itself. -/
def State.IsSettled (p : Policy) (s : State) : Prop :=
  ∀ e, e.isOwn = true → s.step? p e = none

/-- How many steps the downloads have still to take at most. -/
def State.downloadsToGo (s : State) : Nat :=
  (s.downloads.map (·.phase.toGo)).sum

/-! ## One step -/

/-- A step leaves the URLs of the downloads as they are, and a registration may put one more behind them. -/
theorem Turn.urls (t : Turn s e s') : s'.downloads.map (·.url) = s.downloads.map (·.url) ∨
    ∃ c url, e = .register c ∧ s'.downloads.map (·.url) = s.downloads.map (·.url) ++ [url] := by
  cases t with
  | idle downloads _ => exact Or.inl (congrArg _ downloads)
  | begin c purpose url _ _ downloads _ => exact Or.inr ⟨c, url, rfl, by rw [downloads, List.map_append]; rfl⟩
  | go d url old new here _ downloads _ =>
    obtain ⟨hlt, hd⟩ := List.getElem?_eq_some_iff.mp here
    refine Or.inl ?_
    rw [downloads, List.map_set]
    refine (congrArg _ ?_).trans (List.set_getElem_self (i := d) (by simpa using hlt))
    simp [hd]

/-- What a download does by itself, and how the source ends its work, brings the download closer to its end. -/
theorem Phase.Next.toGo_lt {old new : Phase} (h : Phase.Next d e old new) (he : ∀ bytes, e ≠ .write d bytes) :
    new.toGo < old.toGo := by
  cases h with
  | write file body bytes => exact absurd rfl (he bytes)
  | _ => simp [Phase.toGo]

/-- A step of a download other than a write of the source brings all of them closer to their end. -/
theorem downloadsToGo_lt (hs : s.step? p e = some s') (he : e.download? = some d) (hw : ∀ bytes, e ≠ .write d bytes) :
    s'.downloadsToGo < s.downloadsToGo := by
  cases turn_of_step? hs with
  | idle _ _ stands => nomatch stands.symm.trans he
  | begin => nomatch he
  | go x url old new here next downloads =>
    obtain rfl := Option.some.inj (next.download?.symm.trans he)
    rw [State.downloadsToGo, downloads]
    exact sum_map_set_lt here (next.toGo_lt hw)

/-- What a download does by itself is a step of a download, and no write of the source. -/
theorem Event.exists_download_of_isOwn (h : e.isOwn = true) :
    ∃ d, e.download? = some d ∧ ∀ bytes, e ≠ .write d bytes := by
  cases e with
  | queue d | abandon d | acquire d | create d | ask d | rename d | clean d | release d | unmark d | signal d =>
    exact ⟨d, rfl, nofun⟩
  | _ => nomatch h

theorem SourceEnding.event_download? (ending : SourceEnding) (d : Nat) :
    (ending.event d).download? = some d ∧ ∀ bytes, ending.event d ≠ .write d bytes := by
  cases ending <;> exact ⟨rfl, nofun⟩

/-- The source can end its work on a download in every way. -/
theorem State.source_ends {file : Nat} {body : List UInt8} (hd : s.phase? d = some (.fetching file body))
    (ending : SourceEnding) : ∃ s', s.step? p (ending.event d) = some s' := by
  obtain ⟨url, hd⟩ := phase?_eq_some_iff.mp hd
  cases ending with
  | whole => exact ⟨_, deliver?_eq_some_iff.mpr ⟨url, file, body, hd, rfl⟩⟩
  | failure => exact ⟨_, fail?_eq_some_iff.mpr ⟨url, file, body, hd, rfl⟩⟩
  | crash => exact ⟨_, crash?_eq_some_iff.mpr ⟨url, file, body, hd, rfl⟩⟩

/-! ## Coming to rest -/

namespace State.IsSettled

/-- At rest, a download waits for a permit or for the source, or has ended. -/
theorem phase_cases (h : s.IsSettled p) {phase : Phase} (hd : s.phase? d = some phase) :
    phase = .queued ∨ (∃ file body, phase = .fetching file body) ∨ phase = .ended := by
  obtain ⟨url, hu⟩ := phase?_eq_some_iff.mp hd
  cases phase with
  | queued => exact Or.inl rfl
  | fetching file body => exact Or.inr (Or.inl ⟨file, body, rfl⟩)
  | ended => exact Or.inr (Or.inr rfl)
  | spawned =>
    have hnone : s.queue? d = none := h (.queue d) rfl
    nomatch hnone.symm.trans (queue?_eq_some_iff.mpr ⟨hd, rfl⟩)
  | admitted =>
    have hnone : s.create? d = none := h (.create d) rfl
    cases hc : s.directory.create? s.freshFile s.clock (tempName (fileName url)) with
    | none => nomatch hnone.symm.trans (create?_eq_some_iff.mpr ⟨url, hu, Or.inr ⟨hc, rfl⟩⟩)
    | some made => nomatch hnone.symm.trans (create?_eq_some_iff.mpr ⟨url, hu, Or.inl ⟨made.1, made.2, hc, rfl⟩⟩)
  | opened file =>
    have hnone : s.ask? d = none := h (.ask d) rfl
    nomatch hnone.symm.trans (ask?_eq_some_iff.mpr ⟨url, file, hu, rfl⟩)
  | fetched body =>
    have hnone : s.rename? d = none := h (.rename d) rfl
    cases hr : s.directory.rename? (tempName (fileName url)) (fileName url) with
    | none => nomatch hnone.symm.trans (rename?_eq_some_iff.mpr ⟨url, body, hu, Or.inr ⟨hr, rfl⟩⟩)
    | some moved => nomatch hnone.symm.trans (rename?_eq_some_iff.mpr ⟨url, body, hu, Or.inl ⟨moved, hr, rfl⟩⟩)
  | cleaning =>
    have hnone : s.clean? d = none := h (.clean d) rfl
    nomatch hnone.symm.trans (clean?_eq_some_iff.mpr ⟨url, hu, rfl⟩)
  | leaving =>
    have hnone : s.release? d = none := h (.release d) rfl
    nomatch hnone.symm.trans (release?_eq_some_iff.mpr ⟨hd, rfl⟩)
  | released =>
    have hnone : s.unmark? d = none := h (.unmark d) rfl
    nomatch hnone.symm.trans (unmark?_eq_some_iff.mpr ⟨url, hu, rfl⟩)
  | unmarked =>
    have hnone : s.signal? d = none := h (.signal d) rfl
    nomatch hnone.symm.trans (signal?_eq_some_iff.mpr ⟨hd, rfl⟩)

/-- At rest, a download waits for a permit only if the pool is open and no permit is free. -/
theorem free_eq_zero (h : s.IsSettled p) (hl : s.Lined) (hd : s.phase? d = some .queued) : s.closed = false ∧ s.free = 0 := by
  have hopen : s.closed = false := by
    refine Bool.eq_false_iff.mpr fun hclosed => ?_
    have hnone : s.abandon? d = none := h (.abandon d) rfl
    nomatch hnone.symm.trans (abandon?_eq_some_iff.mpr ⟨hd, hclosed, rfl⟩)
  refine ⟨hopen, ?_⟩
  cases hfree : s.free with
  | zero => rfl
  | succ free =>
    obtain ⟨first, s', hacquire⟩ := hl.exists_acquire (p := p) hopen hfree hd
    nomatch (h (.acquire first) rfl).symm.trans hacquire

end State.IsSettled

/-- At rest is a cache whose downloads wait for a permit while none is free, wait for the source, or have ended. -/
theorem State.isSettled_iff (hl : s.Lined) : s.IsSettled p ↔ ∀ x ∈ s.downloads,
    x.phase = .queued ∧ s.closed = false ∧ s.free = 0 ∨ (∃ file body, x.phase = .fetching file body) ∨ x.phase = .ended := by
  constructor
  · rintro h ⟨url, phase⟩ hx
    obtain ⟨d, hd⟩ := List.mem_iff_getElem?.mp hx
    have hphase := phase?_eq_some_iff.mpr ⟨url, hd⟩
    rcases h.phase_cases hphase with rfl | hfetching | hended
    · exact Or.inl ⟨rfl, h.free_eq_zero hl hphase⟩
    · exact Or.inr (Or.inl hfetching)
    · exact Or.inr (Or.inr hended)
  · intro h e hown
    refine Option.eq_none_iff_forall_ne_some.mpr fun s' hs => ?_
    obtain ⟨d, hd, -⟩ := Event.exists_download_of_isOwn hown
    cases turn_of_step? hs with
    | idle _ _ stands => nomatch stands.symm.trans hd
    | begin => nomatch hd
    | go x url old new here next =>
      obtain ⟨rfl, hopen, hfree⟩ | ⟨file, body, rfl⟩ | rfl := h _ (List.mem_of_getElem? here)
      · cases next with
        | abandon => nomatch hopen.symm.trans (abandon?_eq_some_iff.mp hs).2.1
        | acquire =>
          obtain ⟨-, -, _, free, -, hfree', -⟩ := acquire?_eq_some_iff.mp hs
          nomatch hfree.symm.trans hfree'
      · cases next <;> nomatch hown
      · nomatch next

/-- Left alone, the downloads of a cache come to rest. -/
theorem State.settles (p : Policy) (s : State) :
    ∃ events s', (∀ e ∈ events, e.isOwn = true) ∧ s.steps? p events = some s' ∧ s'.IsSettled p := by
  induction hn : s.downloadsToGo using Nat.strongRecOn generalizing s with
  | ind n ih =>
    by_cases hsettled : s.IsSettled p
    · exact ⟨[], s, nofun, rfl, hsettled⟩
    · obtain ⟨e, hgo⟩ := not_forall.mp hsettled
      obtain ⟨hown, hsome⟩ := Classical.not_imp.mp hgo
      obtain ⟨m, hm⟩ := Option.ne_none_iff_exists'.mp hsome
      obtain ⟨d, hd, hw⟩ := Event.exists_download_of_isOwn hown
      obtain ⟨events, s', hall, hs', hrest⟩ := ih _ (hn ▸ downloadsToGo_lt hm hd hw) m rfl
      refine ⟨e :: events, s', List.forall_mem_cons.mpr ⟨hown, hall⟩, ?_, hrest⟩
      rw [steps?, hm, Option.bind_some, hs']

/-- Every download has ended. -/
def State.DownloadsEnded (s : State) : Prop :=
  ∀ x ∈ s.downloads, x.phase = .ended

/-- At rest, unless all downloads have ended the source is at work on one of them. -/
theorem Reachable.exists_fetching (hr : Reachable p s) (hpermits : 0 < p.permits) (h : s.IsSettled p)
    (hnot : ¬s.DownloadsEnded) : ∃ d file body, s.phase? d = some (.fetching file body) := by
  obtain ⟨⟨url, phase⟩, hx, hne⟩ : ∃ x ∈ s.downloads, x.phase ≠ .ended := by simpa [State.DownloadsEnded] using hnot
  obtain ⟨d, hd⟩ := List.mem_iff_getElem?.mp hx
  rcases h.phase_cases (State.phase?_eq_some_iff.mpr ⟨url, hd⟩) with rfl | ⟨file, body, rfl⟩ | rfl
  · -- a download waits for a permit, so another one holds it
    have hfree := (h.free_eq_zero hr.lined (State.phase?_eq_some_iff.mpr ⟨url, hd⟩)).2
    have hholding : 0 < s.holding := by
      have := hr.permits
      omega
    obtain ⟨⟨url', phase'⟩, hx', hholds⟩ := List.countP_pos_iff.mp hholding
    obtain ⟨d', hd'⟩ := List.mem_iff_getElem?.mp hx'
    have hphase := State.phase?_eq_some_iff.mpr ⟨url', hd'⟩
    rcases h.phase_cases hphase with rfl | ⟨file, body, rfl⟩ | rfl
    · nomatch hholds
    · exact ⟨d', file, body, hphase⟩
    · nomatch hholds
  · exact ⟨d, file, body, State.phase?_eq_some_iff.mpr ⟨url, hd⟩⟩
  · exact absurd rfl hne

/-- In whatever way the source ends its work on each download, all downloads come to an end. -/
theorem State.downloads_end (hr : Reachable p s) (hpermits : 0 < p.permits) (ending : Nat → SourceEnding) :
    ∃ events s', (∀ e ∈ events, e.isOwn = true ∨ ∃ d, e = (ending d).event d) ∧ s.steps? p events = some s' ∧
      s'.DownloadsEnded := by
  induction hn : s.downloadsToGo using Nat.strongRecOn generalizing s with
  | ind n ih =>
    by_cases hended : s.DownloadsEnded
    · exact ⟨[], s, nofun, rfl, hended⟩
    · obtain ⟨first, m, hfirst, hm, hsettled⟩ := settles p s
      by_cases hm' : m.DownloadsEnded
      · exact ⟨first, m, fun e he => Or.inl (hfirst e he), hm, hm'⟩
      · have hrm := hr.steps? hm
        obtain ⟨d, file, body, hd⟩ := hrm.exists_fetching hpermits hsettled hm'
        obtain ⟨x, hx⟩ := source_ends (p := p) hd (ending d)
        obtain ⟨hdownload, hw⟩ := (ending d).event_download? d
        have hle : m.downloadsToGo ≤ s.downloadsToGo := by
          refine steps?_induction (motive := fun es x => (∀ e ∈ es, e.isOwn = true) → x.downloadsToGo ≤ s.downloadsToGo)
            (fun _ => Nat.le_refl _) (fun es x e x' _ ih he hall => ?_) hm hfirst
          obtain ⟨d, hd, hw⟩ := Event.exists_download_of_isOwn (hall e (by simp))
          exact Nat.le_trans (Nat.le_of_lt (downloadsToGo_lt he hd hw)) (ih fun e he => hall e (List.mem_append_left _ he))
        have hlt := downloadsToGo_lt hx hdownload hw
        obtain ⟨rest, s', hrest, hs', hend⟩ := ih x.downloadsToGo (by omega) (hrm.step hx) rfl
        refine ⟨first ++ (ending d).event d :: rest, s', ?_, steps?_trans hm ?_, hend⟩
        · intro e he
          rcases List.mem_append.mp he with he | he
          · exact Or.inl (hfirst e he)
          · rcases List.mem_cons.mp he with rfl | he
            · exact Or.inr ⟨d, rfl⟩
            · exact hrest e he
        · rw [steps?, hx, Option.bind_some, hs']

end ChannelWatch.Cache
