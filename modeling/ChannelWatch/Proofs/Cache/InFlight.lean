import ChannelWatch.Proofs.Cache.Names
import ChannelWatch.Proofs.Cache.Runs

/-!
# Downloads in flight

The markers of a cache are exact: there is one for every download from its registration until the end of its work takes the
marker down, and none else. The invariant is `Bookkept`; a marker leads by its URL and by its number to
the same download, which is why taking it down by the URL never hits the marker of another download.
-/

namespace ChannelWatch.Cache

variable {p : Policy} {s s' : State} {e : Event}

/-! ## The marker of a URL -/

theorem State.mem_markers_of_marker? {url : String} {d : Nat} (h : s.marker? url = some d) : (url, d) ∈ s.markers := by
  unfold marker? at h
  obtain ⟨⟨url', d'⟩, hf, rfl⟩ := Option.map_eq_some_iff.mp h
  have hu : url' = url := by simpa using List.find?_some hf
  subst hu
  exact List.mem_of_find?_eq_some hf

/-- No marker is found for a URL exactly when it is no key of the markers. -/
theorem State.marker?_eq_none_iff {url : String} : s.marker? url = none ↔ url ∉ s.markers.map (·.1) := by
  unfold marker?
  rw [Option.map_eq_none_iff, List.find?_eq_none]
  simp only [decide_eq_true_eq, List.mem_map, not_exists, not_and]

/-- With keys that differ, a URL has one marker. -/
theorem eq_of_mem_markers {markers : List (String × Nat)} (hn : (markers.map (·.1)).Nodup) {url : String} {d d' : Nat}
    (h : (url, d) ∈ markers) (h' : (url, d') ∈ markers) : d = d' := by
  induction markers with
  | nil => nomatch h
  | cons m rest ih =>
    simp only [List.map_cons, List.nodup_cons, List.mem_map, not_exists, not_and] at hn
    rcases List.mem_cons.mp h with rfl | hr <;> rcases List.mem_cons.mp h' with h' | hr'
    · exact (congrArg Prod.snd h').symm
    · exact (hn.1 _ hr' rfl).elim
    · exact (hn.1 _ hr (congrArg Prod.fst h' : url = m.1)).elim
    · exact ih hn.2 hr hr'

/-! ## The invariant -/

/-- The markers are those of the downloads whose marker is in place, one for each URL, and whatever is in flight or about to
be registered is there for some image behind a secure URL. -/
structure State.Bookkept (s : State) : Prop where
  marker_iff : ∀ url d, (url, d) ∈ s.markers ↔ ∃ phase, s.downloads[d]? = some ⟨url, phase⟩ ∧ phase.isMarked = true
  keys_nodup : (s.markers.map (·.1)).Nodup
  downloads_secure : ∀ x ∈ s.downloads, x.url ≠ "" ∧ ¬Link.IsInsecure x.url
  calls_secure : ∀ x ∈ s.calls, ¬Link.IsInsecure x.url ∧ (x.stage = .looked → x.url ≠ "")

/-- A download that goes on keeps its marker, unless the event takes it down. -/
theorem Phase.Next.isMarked_eq {d : Nat} {old new : Phase} (h : Phase.Next d e old new) (hne : new ≠ .unmarked) :
    new.isMarked = old.isMarked := by
  cases h with
  | unmark => exact absurd rfl hne
  | _ => rfl

/-- Only the event that takes a marker down leads to the phase without it. -/
theorem Phase.Next.eq_unmark {d : Nat} {old : Phase} (h : Phase.Next d e old .unmarked) :
    e = .unmark d ∧ old = .released := by
  cases h
  exact ⟨rfl, rfl⟩

namespace State.Bookkept

theorem eq_of_isMarked (h : s.Bookkept) {url : String} {d d' : Nat} {phase phase' : Phase}
    (hd : s.downloads[d]? = some ⟨url, phase⟩) (hm : phase.isMarked = true)
    (hd' : s.downloads[d']? = some ⟨url, phase'⟩) (hm' : phase'.isMarked = true) : d = d' :=
  eq_of_mem_markers h.keys_nodup ((h.marker_iff url d).mpr ⟨phase, hd, hm⟩) ((h.marker_iff url d').mpr ⟨phase', hd', hm'⟩)

/-- Taking a marker down by its URL takes down the marker of one download and no other. -/
theorem mem_filter_iff (h : s.Bookkept) {url : String} {d : Nat} {phase : Phase}
    (hd : s.downloads[d]? = some ⟨url, phase⟩) (hm : phase.isMarked = true) (m : String × Nat) :
    m ∈ s.markers.filter (·.1 ≠ url) ↔ m ∈ s.markers ∧ m.2 ≠ d := by
  obtain ⟨url', d'⟩ := m
  simp only [List.mem_filter, decide_eq_true_eq, and_congr_right_iff]
  intro hmem
  constructor
  · rintro hne rfl
    obtain ⟨phase', hd', -⟩ := (h.marker_iff url' d').mp hmem
    rw [hd] at hd'
    exact hne (congrArg Download.url (Option.some.inj hd')).symm
  · rintro hne rfl
    exact hne (eq_of_mem_markers h.keys_nodup hmem ((h.marker_iff url' d).mpr ⟨phase, hd, hm⟩))

/-- A cache that nothing has happened to has neither downloads nor markers. -/
theorem begun (p : Policy) (directory : Directory) (clock : Int) : (State.begun p directory clock).Bookkept where
  marker_iff := fun url d => by simp [State.begun, State.initial]
  keys_nodup := List.nodup_nil
  downloads_secure := fun x hx => nomatch hx
  calls_secure := fun x hx => nomatch hx

/-- The invariant speaks of the downloads, the markers and the calls alone. -/
theorem congr (h : s.Bookkept) (hd : s'.downloads = s.downloads) (hm : s'.markers = s.markers) (hc : s'.calls = s.calls) :
    s'.Bookkept where
  marker_iff := by rw [hd, hm]; exact h.marker_iff
  keys_nodup := by rw [hm]; exact h.keys_nodup
  downloads_secure := by rw [hd]; exact h.downloads_secure
  calls_secure := by rw [hc]; exact h.calls_secure

/-- A call begins with a secure URL, and is left to register only for an image. -/
theorem calls_step (h : s.Bookkept) (t : CallTurn p s e s') :
    ∀ x ∈ s'.calls, ¬Link.IsInsecure x.url ∧ (x.stage = .looked → x.url ≠ "") := by
  cases t with
  | idle calls => rw [calls]; exact h.calls_secure
  | call purpose url calls =>
    intro x hx
    rw [calls, List.mem_append, List.mem_singleton] at hx
    rcases hx with hx | rfl
    · exact h.calls_secure x hx
    · refine ⟨Link.not_isInsecure_secure url, fun hl hu => ?_⟩
      exact State.ne_empty_of_firstStage hl (Link.secure_eq_empty_iff.mp hu)
  | go c purpose url old new here next calls =>
    intro x hx
    rw [calls] at hx
    rcases List.mem_or_eq_of_mem_set hx with hx | rfl
    · exact h.calls_secure x hx
    · refine ⟨(h.calls_secure _ (List.mem_of_getElem? here)).1, fun hl => ?_⟩
      cases next <;> nomatch hl

/-- A download begins with the URL of a call that has looked. -/
theorem downloads_step (h : s.Bookkept) (t : Turn s e s') :
    ∀ x ∈ s'.downloads, x.url ≠ "" ∧ ¬Link.IsInsecure x.url := by
  cases t with
  | idle downloads _ => rw [downloads]; exact h.downloads_secure
  | begin c purpose url call _ downloads _ =>
    intro x hx
    rw [downloads, List.mem_append, List.mem_singleton] at hx
    rcases hx with hx | rfl
    · exact h.downloads_secure x hx
    · have hc := h.calls_secure _ (List.mem_of_getElem? call)
      exact ⟨hc.2 rfl, hc.1⟩
  | go d url old new here _ downloads _ =>
    intro x hx
    rw [downloads] at hx
    rcases List.mem_or_eq_of_mem_set hx with hx | rfl
    · exact h.downloads_secure x hx
    · exact h.downloads_secure ⟨url, old⟩ (List.mem_of_getElem? here)

/-- A step keeps the keys of the markers different. -/
theorem keys_step (h : s.Bookkept) (t : Turn s e s') : (s'.markers.map (·.1)).Nodup := by
  cases t with
  | idle _ markers => rw [markers]; exact h.keys_nodup
  | begin c purpose url _ unmarked _ markers =>
    rw [markers, List.map_cons, List.nodup_cons]
    exact ⟨State.marker?_eq_none_iff.mp unmarked, h.keys_nodup⟩
  | go d url old new _ _ _ markers =>
    rw [markers]
    split
    · exact (List.filter_sublist.map _).nodup h.keys_nodup
    · exact h.keys_nodup

/-- A step keeps the markers exact. -/
theorem marker_step (h : s.Bookkept) (t : Turn s e s') (url : String) (d : Nat) :
    (url, d) ∈ s'.markers ↔ ∃ phase, s'.downloads[d]? = some ⟨url, phase⟩ ∧ phase.isMarked = true := by
  cases t with
  | idle downloads markers =>
    rw [downloads, markers]
    exact h.marker_iff url d
  | begin c purpose new _ unmarked downloads markers =>
    rw [downloads, markers, List.mem_cons, getElem?_append_singleton, h.marker_iff]
    by_cases hd : d = s.downloads.length
    · subst hd
      simp only [if_true, Prod.mk.injEq, and_true, Option.some.injEq, Download.mk.injEq]
      constructor
      · rintro (rfl | ⟨phase, hp, -⟩)
        · exact ⟨.spawned, ⟨rfl, rfl⟩, rfl⟩
        · rw [List.getElem?_eq_none (Nat.le_refl _)] at hp
          nomatch hp
      · rintro ⟨phase, ⟨rfl, -⟩, -⟩
        exact Or.inl rfl
    · simp only [hd, if_false, Prod.mk.injEq, and_false, false_or]
  | go x image old new here next downloads markers =>
    rw [downloads, markers, getElem?_set_of_eq_some here]
    by_cases hn : new = .unmarked
    · -- the marker is taken down by its URL: the invariant says that only this download has it
      subst hn
      obtain ⟨-, rfl⟩ := next.eq_unmark
      rw [if_pos rfl, h.mem_filter_iff here rfl, h.marker_iff]
      by_cases hd : d = x
      · simp [hd, Phase.isMarked]
      · simp [hd]
    · rw [if_neg hn, h.marker_iff]
      by_cases hd : d = x
      · subst hd
        simp only [here, if_true, Option.some.injEq, Download.mk.injEq]
        constructor
        · rintro ⟨_, ⟨rfl, rfl⟩, hm⟩
          exact ⟨new, ⟨rfl, rfl⟩, (next.isMarked_eq hn).trans hm⟩
        · rintro ⟨_, ⟨rfl, rfl⟩, hm⟩
          exact ⟨old, ⟨rfl, rfl⟩, (next.isMarked_eq hn).symm.trans hm⟩
      · simp [hd]

/-- Every step keeps the books. -/
theorem step (h : s.Bookkept) (hs : s.step? p e = some s') : s'.Bookkept where
  marker_iff := h.marker_step (turn_of_step? hs)
  keys_nodup := h.keys_step (turn_of_step? hs)
  downloads_secure := h.downloads_step (turn_of_step? hs)
  calls_secure := h.calls_step (callTurn_of_step? hs)

end State.Bookkept

/-- The books of a reachable state are in order. -/
theorem Reachable.bookkept (h : Reachable p s) : s.Bookkept := by
  induction h with
  | begun directory clock => exact State.Bookkept.begun p directory clock
  | step _ he ih => exact ih.step he
  | disturbed directory freshFile _ ih => exact ih.congr rfl rfl rfl

/-- A download whose marker is gone goes on without one. -/
theorem Phase.Next.isMarked_eq_false {d : Nat} {old new : Phase} (h : Phase.Next d e old new) (hold : old.isMarked = false) :
    new.isMarked = false := by
  by_cases hn : new = .unmarked
  · rw [hn]
    rfl
  · rw [h.isMarked_eq hn, hold]

/-- Of several downloads of one image, only the last can have its marker in place. -/
theorem Reachable.superseded (h : Reachable p s) {d d' : Nat} {url : String} {phase phase' : Phase} (hlt : d < d')
    (hd : s.downloads[d]? = some ⟨url, phase⟩) (hd' : s.downloads[d']? = some ⟨url, phase'⟩) : phase.isMarked = false := by
  induction h generalizing phase phase' with
  | begun directory clock => nomatch hd
  | disturbed directory freshFile _ ih => exact ih hd hd'
  | @step s s' e hs he ih =>
    have t := turn_of_step? he
    rcases t.download_came hd with ⟨old, hold, hcases⟩ | ⟨hlast, -, -⟩
    · have hunmarked : old.isMarked = false := by
        rcases t.download_came hd' with ⟨old', hold', -⟩ | ⟨-, -, unmarked⟩
        · exact ih hold hold'
        · -- the later download begins because there is no marker for its image
          refine Bool.eq_false_iff.mpr fun hm => ?_
          have hmem := (hs.bookkept.marker_iff url d).mpr ⟨old, hold, hm⟩
          exact State.marker?_eq_none_iff.mp unmarked (List.mem_map_of_mem hmem)
      rcases hcases with ⟨rfl, -⟩ | next
      · exact hunmarked
      · exact next.isMarked_eq_false hunmarked
    · -- the one that begins is the last
      rcases t.download_came hd' with ⟨old', hold', -⟩ | ⟨hlast', -, -⟩
      · have := (List.getElem?_eq_some_iff.mp hold').1
        omega
      · omega

/-! ## What is in flight -/

/-- A download is unfinished from its registration until its end takes the marker down. Telling those who wait comes right
after that and is the last thing a download does. -/
def Download.IsUnfinished (x : Download) : Prop :=
  x.phase ≠ .unmarked ∧ x.phase ≠ .ended

theorem Download.isUnfinished_iff {x : Download} : x.IsUnfinished ↔ x.phase.isMarked = true := by
  obtain ⟨url, phase⟩ := x
  cases phase <;> simp [IsUnfinished, Phase.isMarked]

/-- The markers of a cache are exact. -/
structure State.InFlightExact (p : Policy) (s : State) : Prop where
  /-- The keys are the URLs of the unfinished downloads. -/
  keys : ∀ url, url ∈ s.markers.map (·.1) ↔ ∃ x ∈ s.downloads, x.url = url ∧ x.IsUnfinished
  /-- No key has two markers. -/
  keys_nodup : (s.markers.map (·.1)).Nodup
  /-- A marker names the unfinished download of its key, and every unfinished download has its own marker. -/
  marker_iff : ∀ url d, (url, d) ∈ s.markers ↔
    ∃ phase, s.downloads[d]? = some ⟨url, phase⟩ ∧ Download.IsUnfinished ⟨url, phase⟩
  /-- Two unfinished downloads share neither a URL nor, without a collision of digests, a temporary file. -/
  apart : ∀ (d d' : Nat) (x x' : Download), s.downloads[d]? = some x → s.downloads[d']? = some x' → x.IsUnfinished →
    x'.IsUnfinished → d ≠ d' →
    x.url ≠ x'.url ∧ (NamesApart [x.url, x'.url] → tempName (fileName x.url) ≠ tempName (fileName x'.url))
  /-- No key is empty or insecure. -/
  secure : ∀ url ∈ s.markers.map (·.1), url ≠ "" ∧ ¬Link.IsInsecure url
  /-- Taking a marker down by its URL is taking down the one marker of the download that does it. -/
  unmark : ∀ d s', s.unmark? d = some s' → (∃ url, (url, d) ∈ s.markers) ∧ s'.markers = s.markers.filter (·.2 ≠ d)
  /-- Nothing else takes a marker down. -/
  kept : ∀ e s', s.step? p e = some s' → ∀ m ∈ s.markers, m ∈ s'.markers ∨ e = .unmark m.2
  /-- Nothing is in flight once every download has finished. -/
  idle : (∀ x ∈ s.downloads, ¬x.IsUnfinished) → s.inFlight = 0

namespace State.Bookkept

/-- The keys of the markers are the URLs of the unfinished downloads. -/
theorem mem_keys_iff (h : s.Bookkept) (url : String) :
    url ∈ s.markers.map (·.1) ↔ ∃ x ∈ s.downloads, x.url = url ∧ x.IsUnfinished := by
  simp only [List.mem_map, Download.isUnfinished_iff]
  constructor
  · rintro ⟨⟨url, d⟩, hm, rfl⟩
    obtain ⟨phase, hd, hp⟩ := (h.marker_iff url d).mp hm
    exact ⟨⟨url, phase⟩, List.mem_of_getElem? hd, rfl, hp⟩
  · rintro ⟨⟨url, phase⟩, hx, rfl, hp⟩
    obtain ⟨d, hd⟩ := List.mem_iff_getElem?.mp hx
    exact ⟨(url, d), (h.marker_iff url d).mpr ⟨phase, hd, hp⟩, rfl⟩

/-- Two unfinished downloads share neither a URL nor, without a collision of digests, a temporary file. -/
theorem apart (h : s.Bookkept) {d d' : Nat} {x x' : Download} (hd : s.downloads[d]? = some x)
    (hd' : s.downloads[d']? = some x') (hx : x.IsUnfinished) (hx' : x'.IsUnfinished) (hne : d ≠ d') :
    x.url ≠ x'.url ∧ (NamesApart [x.url, x'.url] → tempName (fileName x.url) ≠ tempName (fileName x'.url)) := by
  have hurl : x.url ≠ x'.url := by
    obtain ⟨url, phase⟩ := x
    obtain ⟨url', phase'⟩ := x'
    rintro rfl
    exact hne (h.eq_of_isMarked hd (Download.isUnfinished_iff.mp hx) hd' (Download.isUnfinished_iff.mp hx'))
  refine ⟨hurl, fun hnames ht => hurl ?_⟩
  exact hnames _ (by simp) _ (by simp) (tempName_inj.mp ht)

/-- Taking a marker down by its URL is taking down the one marker of the download that does it. -/
theorem unmark (h : s.Bookkept) {d : Nat} (hs : s.unmark? d = some s') :
    (∃ url, (url, d) ∈ s.markers) ∧ s'.markers = s.markers.filter (·.2 ≠ d) := by
  obtain ⟨url, hd, rfl⟩ := State.unmark?_eq_some_iff.mp hs
  refine ⟨⟨url, (h.marker_iff url d).mpr ⟨.released, hd, rfl⟩⟩, ?_⟩
  refine List.filter_congr fun m hm => ?_
  have hiff := h.mem_filter_iff hd rfl m
  simp only [List.mem_filter, hm, true_and, decide_eq_true_eq] at hiff
  exact decide_eq_decide.mpr hiff

/-- A marker stays until its own download takes it down. -/
theorem kept (h : s.Bookkept) (t : Turn s e s') : ∀ m ∈ s.markers, m ∈ s'.markers ∨ e = .unmark m.2 := by
  intro m hm
  cases t with
  | idle _ markers => exact Or.inl (markers ▸ hm)
  | begin c purpose url _ _ _ markers =>
    rw [markers]
    exact Or.inl (List.mem_cons_of_mem _ hm)
  | go d url old new here next _ markers =>
    by_cases hn : new = .unmarked
    · subst hn
      obtain ⟨rfl, rfl⟩ := next.eq_unmark
      rw [markers, if_pos rfl, h.mem_filter_iff here rfl]
      by_cases hd : m.2 = d
      · exact Or.inr (by rw [hd])
      · exact Or.inl ⟨hm, hd⟩
    · rw [markers, if_neg hn]
      exact Or.inl hm

/-- Nothing is in flight once every download has finished. -/
theorem inFlight_eq_zero (h : s.Bookkept) (hall : ∀ x ∈ s.downloads, ¬x.IsUnfinished) : s.inFlight = 0 := by
  unfold State.inFlight
  rw [List.length_eq_zero_iff, List.eq_nil_iff_forall_not_mem]
  rintro ⟨url, d⟩ hm
  obtain ⟨x, hx, -, hp⟩ := (h.mem_keys_iff url).mp (List.mem_map_of_mem hm)
  exact hall x hx hp

end State.Bookkept

/-- In every state that a cache can come to, the markers are exactly those of the unfinished downloads, and only a download
itself takes its marker down. -/
theorem in_flight_exact (h : Reachable p s) : s.InFlightExact p := by
  have hb := h.bookkept
  refine {
    keys := hb.mem_keys_iff
    keys_nodup := hb.keys_nodup
    marker_iff := fun url d => ?_
    apart := fun d d' x x' hd hd' hx hx' hne => hb.apart hd hd' hx hx' hne
    secure := fun url hu => ?_
    unmark := fun d s' hs => hb.unmark hs
    kept := fun e s' hs => hb.kept (turn_of_step? hs)
    idle := hb.inFlight_eq_zero }
  · simp only [Download.isUnfinished_iff]
    exact hb.marker_iff url d
  · obtain ⟨x, hx, rfl, -⟩ := (hb.mem_keys_iff url).mp hu
    exact hb.downloads_secure x hx

/-- An image is registered again while its first download has lost its marker and not yet told the call that waits: the
marker is that of the second download. -/
theorem in_flight_exact_registered_again :
    ∃ s, Reachable ⟨10, "/", 1⟩ s ∧ s.downloads = [⟨"https://a/b.png", .unmarked⟩, ⟨"https://a/b.png", .spawned⟩] ∧
      s.markers = [("https://a/b.png", 1)] ∧ s.InFlightExact ⟨10, "/", 1⟩ := by
  let events : List Event := [.call .resolve "http://a/b.png", .register 0, .call .resolve "https://a/b.png", .register 1,
    .close, .queue 0, .abandon 0, .unmark 0, .call .resolve "https://a/b.png", .register 2]
  obtain ⟨s, hs, hd, hm⟩ : ∃ s, (State.begun ⟨10, "/", 1⟩ .absent 0).steps? ⟨10, "/", 1⟩ events = some s ∧
      s.downloads = [⟨"https://a/b.png", .unmarked⟩, ⟨"https://a/b.png", .spawned⟩] ∧
      s.markers = [("https://a/b.png", 1)] := ⟨_, rfl, rfl, rfl⟩
  have hr := (Reachable.begun .absent 0).steps? hs
  exact ⟨s, hr, hd, hm, in_flight_exact hr⟩

end ChannelWatch.Cache
