import ChannelWatch.Proofs.Cache.Asked
import ChannelWatch.Proofs.Cache.Together

/-!
# The images of a whole feed

The images of a feed are looked up at once, and what comes of it is told by one theorem (`State.batchResolved`): the calls gather,
and after that the downloads go on in whatever order and way. The calls that wait are answered one by one, and in the end there is a
reference for each URL of the feed, in the place of the URL. The source is asked once for each image that needs it, unless the
download of the image is turned away.
-/

namespace ChannelWatch.Cache

variable {p : Policy} {s m m' t x : State} {e : Event} {urls images : List String} {order : List Nat} {events rest : List Event} {c d i : Nat}
  {url : String}

/-! ## The downloads of a batch -/

/-- Downloads come with registrations alone. -/
theorem State.urls_of_steps? (h : s.steps? p events = some m) (hr : ∀ c, Event.register c ∉ events) :
    m.downloads.map (·.url) = s.downloads.map (·.url) := by
  refine steps?_induction (motive := fun es m => (∀ c, Event.register c ∉ es) →
    m.downloads.map (·.url) = s.downloads.map (·.url)) (fun _ => rfl) (fun es m e m' _ ih he hall => ?_) h hr
  rcases (turn_of_step? he).urls with hurls | ⟨c, _, rfl, -⟩
  · exact hurls.trans (ih fun c hc => hall c (List.mem_append_left _ hc))
  · exact absurd (by simp) (hall c)

/-- With nothing in flight, the downloads are over, but for telling those who wait. -/
theorem State.Bookkept.toGo_le (h : s.Bookkept) (hidle : s.markers = []) : ∀ x ∈ s.downloads, x.phase.toGo ≤ 1 := by
  rintro ⟨url, phase⟩ hx
  obtain ⟨d, hd⟩ := List.mem_iff_getElem?.mp hx
  have hnot : phase.isMarked ≠ true := fun hmarked => by
    have hmem := (h.marker_iff url d).mpr ⟨phase, hd, hmarked⟩
    rw [hidle] at hmem
    nomatch hmem
  cases phase with
  | unmarked | ended => simp [Phase.toGo]
  | _ => exact absurd rfl hnot

theorem State.DownloadsEnded.step (h : m.DownloadsEnded) (he : m.step? p e = some m') (hr : ∀ c, e ≠ .register c) :
    m'.DownloadsEnded := by
  cases turn_of_step? he with
  | idle downloads => exact fun x hx => h x (downloads ▸ hx)
  | begin c => exact absurd rfl (hr c)
  | go d url old new here next => exact absurd (h _ (List.mem_of_getElem? here)) next.ne_ended

/-- A download that has ended has told. -/
theorem State.DownloadsEnded.isTold (h : s.DownloadsEnded) (hd : ∃ phase, s.downloads[d]? = some ⟨url, phase⟩) :
    s.isTold d = true := by
  obtain ⟨phase, hd⟩ := hd
  have hended : phase = .ended := h _ (List.mem_of_getElem? hd)
  exact isTold_iff.mpr (phase?_eq_some_iff.mpr ⟨url, hended ▸ hd⟩)

/-! ## The answers of a batch -/

/-- A call that has been gathered is answered, or waits for the download of its image. -/
theorem State.Gathered.answered_or_waits (h : s.Gathered p urls order images t) (hi : urls[i]? = some url) :
    (∃ ref, t.answer? (s.calls.length + i) = some ref) ∨
      ∃ d, s.downloads.length ≤ d ∧ t.WaitsFor p (s.calls.length + i) (Link.secure url) d := by
  by_cases himage : url = ""
  · subst himage
    exact Or.inl ⟨_, h.missing i hi⟩
  · by_cases hfresh : s.HasFresh p (Link.secure url)
    · exact Or.inl ⟨_, h.fresh i url hi himage hfresh⟩
    · by_cases hfirst : IsFirst urls order i (Link.secure url)
      · exact Or.inl ⟨_, h.first i url hi himage hfresh hfirst⟩
      · exact Or.inr (h.later i url hi himage hfresh hfirst)

theorem State.answer?_attempt {ref : ImageRef} (h : s.answer? c = some ref) (events : List Event) :
    (s.attempt p events).answer? c = some ref :=
  attempt_induction (motive := fun m => m.answer? c = some ref) h fun _ _ _ _ hm he => answer?_of_step? hm he

/-- When all downloads have ended, a call that has waited for one is answered as soon as it goes on. -/
theorem State.WaitsFor.concluded (h : s.WaitsFor p c url d) (hm : s.steps? p events = some m) (hended : m.DownloadsEnded) :
    ∃ ref, (m.attempt p (conclude c)).answer? c = some ref := by
  cases ha : m.answer? c with
  | some ref => exact ⟨ref, answer?_attempt ha _⟩
  | none =>
    obtain ⟨phase, hd⟩ := h.target.1
    exact ⟨_, h.served events m hm (hended.isTold (download_of_steps? hm hd)) ha⟩

/-- What a call does when its download is over is no registration. -/
theorem register_not_mem_conclude (places : List Nat) (c : Nat) : Event.register c ∉ places.flatMap conclude := by
  simp [conclude]

/-- When all downloads have ended, a call that has been gathered is answered when all calls of the batch have gone on. -/
theorem State.Gathered.concluded (h : s.Gathered p urls order images t) (hm : t.steps? p events = some m) (hended : m.DownloadsEnded)
    {places : List Nat} (hc : s.calls.length + i ∈ places) (hi : urls[i]? = some url) :
    ∃ ref, (m.attempt p (places.flatMap conclude)).answer? (s.calls.length + i) = some ref := by
  rcases h.answered_or_waits hi with ⟨ref, hanswer⟩ | ⟨d, -, hwaits⟩
  · exact ⟨ref, answer?_attempt (answer?_of_steps? hanswer hm) _⟩
  · obtain ⟨before, after, rfl⟩ := List.append_of_mem hc
    obtain ⟨taken, htaken, -⟩ := m.exists_steps?_attempt p (before.flatMap conclude)
    have hended' : (m.attempt p (before.flatMap conclude)).DownloadsEnded :=
      attempt_induction hended fun e he m m' hm hs =>
        hm.step hs fun c heq => register_not_mem_conclude before c (heq ▸ he)
    obtain ⟨ref, href⟩ := hwaits.concluded (steps?_trans hm htaken) hended'
    refine ⟨ref, ?_⟩
    rw [List.flatMap_append, List.flatMap_cons, attempt_append, attempt_append]
    exact answer?_attempt href _

/-! ## What comes of a batch -/

/-- What has become of calls for references to the images behind some URLs, which were made at once in the state `s` and had gathered
in the state `t`, when the cache has come to `x`. The downloads were begun for the images. -/
structure State.Later (p : Policy) (s : State) (urls images : List String) (t : State) (events rest : List Event) (x : State) :
    Prop where
  /-- If there is a reference for each call, there is one for each URL in its place: one that was there before the downloads were over,
  or that was given to a waiting call after the download that it had waited for. -/
  references : ∀ refs, ((s.callAll p .resolve urls).1).mapM x.answer? = some refs → refs.length = urls.length ∧
    ∀ i url ref, urls[i]? = some url → refs[i]? = some ref → t.answer? (s.calls.length + i) = some ref ∨
      ∃ d m, s.downloads.length ≤ d ∧ t.WaitsFor p (s.calls.length + i) (Link.secure url) d ∧
        t.Happens p rest m (.lookAgain (s.calls.length + i)) ∧ m.isTold d = true ∧ ref = m.reference p (Link.secure url)
  /-- Besides what had been asked before, the source was asked for nothing but the images and for none of them twice. If the download
  of an image has ended, the source was asked for the image exactly if the download was not turned away. -/
  asked : ∃ asked, x.asked = s.asked ++ asked ∧ asked.Nodup ∧ asked ⊆ images ∧
    ∀ d image, s.downloads.length ≤ d → x.downloads[d]? = some ⟨image, .ended⟩ →
      (image ∈ asked ↔ ¬s.TurnedAway p (events ++ rest) d)
  /-- In whatever way the source ends its work on each download, there is a reference for each call in the end. -/
  ends : 0 < p.permits → ∀ ending : Nat → SourceEnding, ∃ more y refs,
    (∀ e ∈ more, e.isOwn = true ∨ (∃ d, e = (ending d).event d) ∨ ∃ c, e ∈ conclude c) ∧
    x.steps? p more = some y ∧ y.DownloadsEnded ∧ ((s.callAll p .resolve urls).1).mapM y.answer? = some refs

/-- What comes of looking up the images behind some URLs at once. -/
structure State.BatchResolved (p : Policy) (s : State) (urls : List String) : Prop where
  /-- Calls that are made at once gather, and if all go on as soon as they can they register in the order of their places. -/
  gathers : ∃ events, s.Gathers p urls events (s.callAll p .resolve urls).2 ∧ (s.registrations events).Pairwise (· < ·)
  /-- In whatever order calls gather, they come to the same, and go on from there in whatever order the downloads do. -/
  gathered : ∀ events t, s.Gathers p urls events t → ∃ images, s.Gathered p urls (s.registrations events) images t ∧
    ∀ rest x, t.steps? p rest = some x → (∀ c, Event.register c ∉ rest) → s.Later p urls images t events rest x

/-- What has been gathered goes on to a reference for each call. -/
theorem State.Gathered.goes_on (g : s.Gathered p urls order images t) (hr : Reachable p s) (hidle : s.markers = [])
    (ht : s.steps? p events = some t) (hx : t.steps? p rest = some x) (hquiet : ∀ c, Event.register c ∉ rest) :
    s.Later p urls images t events rest x where
  references := fun refs hrefs => by
    have hanswers := mapM_eq_some_iff.mp hrefs
    have hlength := congrArg List.length hanswers
    simp only [callAll, List.length_map, List.length_range] at hlength
    refine ⟨hlength.symm, fun i url ref hi href => ?_⟩
    have hanswer : x.answer? (s.calls.length + i) = some ref := by
      have hplace := congrArg (·[i]?) hanswers
      have hlt := (List.getElem?_eq_some_iff.mp hi).1
      simpa [callAll, List.getElem?_range hlt, href] using hplace
    rcases g.answered_or_waits hi with ⟨ref', hbefore⟩ | ⟨d, hle, hwaits⟩
    · obtain rfl := Option.some.inj ((answer?_of_steps? hbefore hx).symm.trans hanswer)
      exact Or.inl hbefore
    · obtain ⟨m, hm, htold, href⟩ := hwaits.answered rest x ref hx hanswer
      exact Or.inr ⟨d, m, hle, hwaits, hm, htold, href⟩
  asked := (asks_of_steps? (hr.bookkept.toGo_le hidle) (steps?_trans ht hx)).images
    ((urls_of_steps? hx hquiet).trans g.begun) g.nodup
  ends := fun hpermits ending => by
    obtain ⟨own, y, hown, hy, hended⟩ := downloads_end ((hr.steps? ht).steps? hx) hpermits ending
    let places := (s.callAll p .resolve urls).1
    obtain ⟨taken, htaken, hsub⟩ := y.exists_steps?_attempt p (places.flatMap conclude)
    have hall : ∀ c ∈ places, (y.attempt p (places.flatMap conclude)).answer? c ≠ none := fun c hc => by
      obtain ⟨i, hi, rfl⟩ := List.mem_map.mp hc
      have hi' : urls[i]? = some (urls.get ⟨i, List.mem_range.mp hi⟩) := List.getElem?_eq_getElem _
      obtain ⟨ref, href⟩ := g.concluded (steps?_trans hx hy) hended hc hi'
      exact href ▸ Option.some_ne_none ref
    obtain ⟨refs, hrefs⟩ := exists_mapM_eq_some hall
    refine ⟨own ++ taken, _, refs, fun e he => ?_, steps?_trans hy htaken, ?_, hrefs⟩
    · rcases List.mem_append.mp he with he | he
      · exact (hown e he).imp id Or.inl
      · obtain ⟨c, -, hc⟩ := List.mem_flatMap.mp (hsub.subset he)
        exact Or.inr (Or.inr ⟨c, hc⟩)
    · exact attempt_induction hended fun e he m m' hm hs =>
        hm.step hs fun c heq => register_not_mem_conclude places c (heq ▸ he)

/-- Looking up the images behind any URLs at once, with nothing in flight, gives a reference for each URL in its place: none for an
empty one, a fresh entry at once, what there was before for the one of those that share an image which registers first, and what there
is after the one download of the image for the others. -/
theorem State.batchResolved (hr : Reachable p s) (hidle : s.inFlight = 0) (urls : List String) : s.BatchResolved p urls := by
  have hmarkers : s.markers = [] := List.length_eq_zero_iff.mp hidle
  exact {
    gathers := s.gathers_callAll p urls
    gathered := fun events t h =>
      ⟨_, h.gathered hr hmarkers, fun rest x hx hquiet => (h.gathered hr hmarkers).goes_on hr hmarkers h.run hx hquiet⟩ }

end ChannelWatch.Cache
