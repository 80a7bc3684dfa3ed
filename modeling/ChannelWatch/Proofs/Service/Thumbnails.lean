import ChannelWatch.Proofs.Api.Images
import ChannelWatch.Proofs.Cache.Kept
import ChannelWatch.Proofs.Service.Published

/-!
# Thumbnails stay servable

The current snapshot keeps the references that its update has resolved, while sweeps and downloads change the directory. A local
reference was given for something that stood under the name of the image at that moment, and from then on only a sweep takes it
away (`keptOrSwept_of_steps?`), so a request for it is answered with the file, or else a sweep has removed the file since
(`thumbnails_served`).
-/

namespace ChannelWatch.Service

variable {s s' : Service} {e : Event} {events : List Event} {p : Cache.Policy} {directory : Cache.Directory}
  {settings : VideoSettings} {clock : Int}

/-- A service with an image cache over a directory, before anything has happened to it. -/
abbrev overDirectory (settings : VideoSettings) (p : Cache.Policy) (directory : Cache.Directory) (clock : Int) : Service :=
  initial settings (some ⟨p, .begun p directory clock⟩) clock

/-! ## What a call has found -/

/-- After a call was answered, a sweep has removed the file of a name, and then nothing was left under the name. -/
def SweptSince (start : Service) (events : List Event) (call : Nat) (ref : ImageRef) (name : String) : Prop :=
  ∃ m m' i c c' f, start.Happens events m (.cache (.remove i)) ∧ m.step? (.cache (.remove i)) = some m' ∧
    m.cache = some c ∧ c.state.answer? call = some ref ∧ c.state.directory.file? name = some f ∧
    m'.cache = some c' ∧ c'.state.directory.find? name = none

theorem SweptSince.append {start : Service} {call : Nat} {ref : ImageRef} {name : String}
    (h : start.SweptSince events call ref name) (es : List Event) : start.SweptSince (events ++ es) call ref name := by
  obtain ⟨m, m', i, c, c', f, hm, rest⟩ := h
  exact ⟨m, m', i, c, c', f, hm.append es, rest⟩

/-- What a call that was answered with a local reference has found is still there, or a sweep has removed it since. -/
def KeptOrSwept (start : Service) (events : List Event) (p : Cache.Policy) (state : Cache.State) (call : Nat) (url : String)
    (ref : ImageRef) : Prop :=
  ref.href = p.localRef url ∧ (∃ entries, state.directory = .present entries) ∧
    (state.directory.find? (Cache.fileName url) ≠ none ∨ start.SweptSince events call ref (Cache.fileName url))

/-- Whatever happens, what a call has found is kept until a sweep removes it. -/
theorem KeptOrSwept.step {start : Service} {state state' : Cache.State} {ce : Cache.Event} {call : Nat} {url : String}
    {ref : ImageRef} (h : start.KeptOrSwept events p state call url ref) (hrun : start.steps? events = some s)
    (he : s.step? e = some s') (hc : s.cache = some ⟨p, state⟩) (hc' : s'.cache = some ⟨p, state'⟩)
    (hcall : state.answer? call = some ref) (hs : state.step? p ce = some state')
    (hce : e = .cache ce ∨ (∃ nanos, ce = .tick nanos) ∨ ∃ purpose url, ce = .call purpose url) :
    start.KeptOrSwept (events ++ [e]) p state' call url ref := by
  obtain ⟨hhref, hpresent, hcases⟩ := h
  refine ⟨hhref, Cache.present_of_step? hs hpresent, ?_⟩
  rcases hcases with hfound | hswept
  · rcases Cache.find?_fileName_of_step? hs hfound with hfound' | ⟨i, f, rfl, hf, hgone⟩
    · exact Or.inl hfound'
    · rcases hce with rfl | ⟨_, heq⟩ | ⟨_, _, heq⟩
      · exact Or.inr ⟨s, s', i, _, _, f, happens_last hrun, he, hc, hcall, hf, hc', hgone⟩
      · nomatch heq
      · nomatch heq
  · exact Or.inr (hswept.append [e])

/-- In every run, what a call has found when it was answered with a local reference is still there, or a sweep has removed it
since; and a name that stands for a directory has stood for it from the start. -/
theorem keptOrSwept_of_steps?
    (h : (overDirectory settings p directory clock).steps? events = some s) :
    ∃ state, s.cache = some ⟨p, state⟩ ∧ state.DirsKept directory ∧
      ∀ (call : Nat) (purpose : Cache.Purpose) (url : String) (ref : ImageRef),
        state.calls[call]? = some ⟨purpose, url, .answered ref⟩ → ref.isLocal = true →
        (overDirectory settings p directory clock).KeptOrSwept events p state call url ref := by
  refine steps?_along (motive := fun es m => ∃ state, m.cache = some ⟨p, state⟩ ∧ state.DirsKept directory ∧
    ∀ (call : Nat) (purpose : Cache.Purpose) (url : String) (ref : ImageRef),
      state.calls[call]? = some ⟨purpose, url, .answered ref⟩ → ref.isLocal = true →
      (overDirectory settings p directory clock).KeptOrSwept es p state call url ref)
    ⟨_, rfl, Cache.State.dirsKept_begun p directory clock, fun call _ _ _ hcall _ => nomatch hcall⟩
    (fun es m e m' hrun ih he => ?_) h
  obtain ⟨state, hc, hdirs, hkept⟩ := ih
  obtain ⟨state', hc', rfl | ⟨ce, hs, hce⟩⟩ := cache_of_step? he hc
  · refine ⟨state', hc', hdirs, fun call purpose url ref hcall hlocal => ?_⟩
    obtain ⟨hhref, hpresent, hcases⟩ := hkept call purpose url ref hcall hlocal
    exact ⟨hhref, hpresent, hcases.imp_right (·.append [e])⟩
  · refine ⟨state', hc', hdirs.step hs, fun call purpose url ref hcall hlocal => ?_⟩
    rcases Cache.found_of_answered hs hcall hlocal with hbefore | ⟨hhref, hfound⟩
    · have hanswer : state.answer? call = some ref := by rw [Cache.State.answer?, hbefore]
      exact (hkept call purpose url ref hbefore hlocal).step hrun he hc hc' hanswer hs hce
    · cases hentry : state'.directory.find? (Cache.fileName url) with
      | none => exact absurd hentry hfound
      | some entry => exact ⟨hhref, Cache.Directory.exists_present_of_find? hentry, Or.inl (hentry ▸ Option.some_ne_none _)⟩

/-! ## Where a reference comes from -/

/-- An entry of a snapshot was resolved by a call of the update that has published the snapshot: the call was made for the
entry's image, after the update had fetched its feed. -/
def ResolvedBy (start : Service) (events : List Event) (s : Service) (snapshot : Snapshot) (entry : FeedEntry) (call : Nat) :
    Prop :=
  ∃ i m feed c, s.updates[i]? = some (.published snapshot) ∧ start.Happens events m (.fetch i (.ok feed)) ∧
    m.callCount ≤ call ∧ s.cache = some c ∧
    c.state.calls[call]? = some ⟨.resolve, Link.secure entry.item.imageUrl, .answered entry.image⟩

/-- With a cache, every entry of a snapshot was resolved by a call of its own. -/
theorem Illustrates.resolvedBy {since : Nat} {items : List VideoItem} {entries : List FeedEntry} {c : ImageCache}
    (h : s.Illustrates since items entries) (hc : s.cache = some c) {entry : FeedEntry} (hentry : entry ∈ entries) :
    ∃ call, since ≤ call ∧
      c.state.calls[call]? = some ⟨.resolve, Link.secure entry.item.imageUrl, .answered entry.image⟩ := by
  obtain ⟨rfl, hresolved⟩ := h
  simp only [Resolved, hc] at hresolved
  obtain ⟨calls, hcalled, -, hmap⟩ := hresolved
  obtain ⟨j, hj⟩ := List.mem_iff_getElem?.mp hentry
  have hanswer := congrArg (·[j]?) hmap
  simp only [List.getElem?_map, hj, Option.map_some] at hanswer
  obtain ⟨call, hcall, hanswer⟩ := Option.map_eq_some_iff.mp hanswer
  obtain ⟨hle, c', item, stage, hc', hitem, hstage, -⟩ := hcalled.made j call hcall
  obtain rfl := Option.some.inj (hc.symm.trans hc')
  rw [List.getElem?_map, hj] at hitem
  obtain rfl := Option.some.inj hitem
  refine ⟨call, hle, ?_⟩
  rw [Cache.State.answer?, hstage] at hanswer
  cases stage with
  | answered ref =>
    obtain rfl := Option.some.inj hanswer
    exact hstage
  | _ => cases hanswer

/-- In a run from the beginning, every entry of the current snapshot was resolved by a call of the update that has published
it. -/
theorem resolvedBy_of_snapshot {c c' : ImageCache} (h : (initial settings (some c) clock).steps? events = some s)
    (hc : s.cache = some c') {snapshot : Snapshot} (hs : s.snapshot = some snapshot) {entry : FeedEntry}
    (hentry : entry ∈ snapshot.entries) :
    ∃ call, (initial settings (some c) clock).ResolvedBy events s snapshot entry call := by
  obtain ⟨i, hi⟩ := published_of_snapshot h hs
  rcases fetched_of_steps? h hi with hu | ⟨fault, hu⟩ | ⟨m, feed, hm, ⟨-, hillustrates⟩, -⟩
  · nomatch hu
  · nomatch hu
  · obtain ⟨call, hle, hcall⟩ := hillustrates.resolvedBy hc hentry
    exact ⟨call, i, m, feed, c', hi, hm, hle, hc, hcall⟩

/-! ## What is answered -/

/-- A request for a local reference is answered with the file that stands under its name; where nothing stands there, with a
report that there is nothing. -/
theorem respond?_localRef {state : Cache.State} (hp : p.urlStart = Api.imagesPath) (hc : s.cache = some ⟨p, state⟩)
    (hd : ∃ entries, state.directory = .present entries) (url : String) :
    s.respond? "GET" (p.localRef url) = some (match state.directory.find? (Cache.fileName url) with
      | some (.file f) => .image (ImageFormat.ofUrl url).mediaType f.content
      | some (.directory _ _) => .fault (.io .isADirectory)
      | none => .notFound ("cached image " ++ Cache.fileName url)) := by
  obtain ⟨entries, hd⟩ := hd
  have hview : s.view.cache = some state := by rw [view, hc, Option.map_some]
  rw [respond?, Cache.Policy.localRef, hp]
  exact Api.respond?_fileName hview (by rw [hd]; nofun) url

/-- What a request for the image of an entry is answered when a call has resolved it to a local reference: the image's file; or
that it was not found, if a sweep has removed the file since. Nothing is said of a name that has stood for a directory from the
start. -/
inductive Serves (start : Service) (directory : Cache.Directory) (events : List Event) (s : Service) (entry : FeedEntry)
    (call : Nat) : Prop
  | file (c : ImageCache) (f : Cache.FileData) (cache : s.cache = some c)
      (found : c.state.directory.file? (Cache.nameFor entry.item.imageUrl) = some f)
      (answer : s.respond? "GET" entry.image.href =
        some (.image (ImageFormat.ofUrl (Link.secure entry.item.imageUrl)).mediaType f.content))
  | swept (since : start.SweptSince events call entry.image (Cache.nameFor entry.item.imageUrl))
      (answer : s.respond? "GET" entry.image.href =
        some (.notFound ("cached image " ++ Cache.nameFor entry.item.imageUrl)))
  | obstructed (modified : Int) (children : List (String × Cache.Entry))
      (there : directory.find? (Cache.nameFor entry.item.imageUrl) = some (.directory modified children))

/-- A service with an expired image publishes a reference to it while a new one is awaited. -/
theorem stale_run : ∃ events s item snapshot state,
    (overDirectory .standard ⟨10, Api.imagesPath, 1⟩
      (.present [(Cache.fileName "https://a/b.png", .file ⟨0, [9], 0⟩)]) 11).steps? events = some s ∧
    s.snapshot = some snapshot ∧ snapshot.entries = [⟨item, .stale (Api.imagesPath ++ Cache.fileName "https://a/b.png")⟩] ∧
    item.imageUrl = "https://a/b.png" ∧ s.cache = some ⟨⟨10, Api.imagesPath, 1⟩, state⟩ ∧
    state.directory = .present [(Cache.fileName "https://a/b.png", .file ⟨0, [9], 0⟩)] ∧ state.clock = 11 ∧
    state.sweeps = [] := by
  let final := Cache.fileName "https://a/b.png"
  let p : Cache.Policy := ⟨10, Api.imagesPath, 1⟩
  let item : VideoItem := ⟨"One", "https://a/1", "A", "https://a", "https://a/b.png", ⟨5, 0⟩⟩
  let begun := Cache.State.begun p (.present [(final, .file ⟨0, [9], 0⟩)]) 11
  let called : Cache.State := { begun with calls := [⟨.resolve, "https://a/b.png", .looked⟩] }
  let ready : Cache.State := { begun with
    downloads := [⟨"https://a/b.png", .spawned⟩], markers := [("https://a/b.png", 0)]
    calls := [⟨.resolve, "https://a/b.png", .ready⟩] }
  let fetched : Service := { initial .standard (some ⟨p, begun⟩) 11 with updates := [.looking ⟨[item], 0⟩ []] }
  let waiting := (fetched.setCache called).setUpdate 0 (.looking ⟨[item], 0⟩ [0])
  have hs : Link.secure "https://a/b.png" = "https://a/b.png" := rfl
  have hlook : ∀ state : Cache.State, state.directory = .present [(final, .file ⟨0, [9], 0⟩)] → state.clock = 11 →
      state.look p "https://a/b.png" = .stale := by
    intro state hd hclock
    simp [Cache.State.look, Cache.Directory.look, hd, hclock, final, p, Cache.Entry.modified]
  have h1 : (initial .standard (some ⟨p, begun⟩) 11).steps? [.update, .fetch 0 (.ok ⟨[item], 0⟩)] = some fetched := rfl
  have hcall : begun.beginCall p .resolve "https://a/b.png" = called := by
    simp only [Cache.State.beginCall_eq, Cache.State.firstStage, Cache.State.firstRef?, hs, hlook begun rfl rfl]
    rfl
  have h2 : fetched.look? 0 = some waiting := by
    refine look?_eq_some_iff.mpr ⟨⟨[item], 0⟩, [], item, ⟨p, begun⟩, rfl, rfl, rfl, ?_⟩
    rw [hcall]
    rfl
  have hregister : called.steps? p [.register 0] = some ready := rfl
  have hagain : ready.step? p (.lookAgain 0) =
      some (ready.setStage 0 (.answered (.stale (p.localRef "https://a/b.png")))) := by
    show ready.lookAgain? p 0 = _
    refine Cache.State.lookAgain?_eq_some_iff.mpr ⟨.resolve, "https://a/b.png", rfl, ?_⟩
    rw [hlook ready rfl rfl]
    rfl
  have hresolved := Cache.State.steps?_trans hregister (Cache.State.steps?_singleton hagain)
  have h3 := steps?_cache (s := waiting) (c := ⟨p, called⟩) rfl (by simp) hresolved
  exact ⟨_, _, item, _, _, steps?_trans h1 (steps?_trans (steps?_singleton (e := .look 0) h2) (steps?_trans h3
    (show Service.steps? _ [.gather 0, .stamp 0, .publish 0] = some _ from rfl))), rfl, rfl, rfl, rfl, rfl, rfl, rfl⟩

/-- A sweep removes the expired image that the current snapshot refers to. -/
theorem not_served_after_sweep : ∃ events s snapshot entry response,
    (overDirectory .standard ⟨10, Api.imagesPath, 1⟩
      (.present [(Cache.fileName "https://a/b.png", .file ⟨0, [9], 0⟩)]) 11).steps? events = some s ∧
    s.snapshot = some snapshot ∧ entry ∈ snapshot.entries ∧ entry.image.isLocal = true ∧
    s.respond? "GET" entry.image.href = some response ∧ response.status = 404 := by
  obtain ⟨events, s, item, snapshot, state, h, hs, hentries, -, hc, hd, hclock, hsweeps⟩ := stale_run
  obtain ⟨clock, directory, freshFile, closed, free, line, downloads, markers, calls, sweeps, asked, delivered⟩ := state
  obtain rfl : clock = 11 := hclock
  obtain rfl : directory = _ := hd
  obtain rfl : sweeps = [] := hsweeps
  let p : Cache.Policy := ⟨10, Api.imagesPath, 1⟩
  let final := Cache.fileName "https://a/b.png"
  let going : Cache.State := {
    clock := 11, directory := .present [(final, .file ⟨0, [9], 0⟩)], freshFile := freshFile, closed := closed, free := free
    line := line, downloads := downloads, markers := markers, calls := calls, sweeps := [⟨.going 11 [final], ⟨0, 0⟩⟩], asked := asked
    delivered := delivered }
  let removing := going.setSweep 0 ⟨.removing 11 [] final 1, ⟨0, 0⟩⟩
  let gone : Cache.State := { going with directory := .present [], sweeps := [⟨.going 11 [], ⟨1, 1⟩⟩] }
  have h1 : Cache.State.steps? p { going with sweeps := [] } [.sweep, .takeTime 0] = some going := rfl
  have hf : going.directory.file? final = some ⟨0, [9], 0⟩ := by simp [going, Cache.Directory.file?, Cache.Entry.file?]
  have h2 : going.inspect? p 0 = some removing :=
    Cache.State.inspect?_eq_some_iff.mpr ⟨11, ⟨0, 0⟩, Or.inr ⟨final, [], rfl, Or.inl ⟨_, hf, rfl, rfl⟩⟩⟩
  have hr : going.directory.removeFile? final = some (.present []) := by
    simp [going, Cache.Directory.removeFile?, Cache.Directory.erase]
  have h3 : removing.remove? 0 = some gone :=
    Cache.State.remove?_eq_some_iff.mpr ⟨11, [], final, 1, ⟨0, 0⟩, rfl, Or.inl ⟨_, hr, rfl⟩⟩
  have hswept := Cache.State.steps?_trans h1 (Cache.State.steps?_trans (Cache.State.steps?_singleton (e := .inspect 0) h2)
    (Cache.State.steps?_singleton (e := .remove 0) h3))
  have h4 := steps?_cache hc (by simp) hswept
  have hanswer := respond?_localRef (p := p) rfl (cache_setCache hc gone) ⟨[], rfl⟩ "https://a/b.png"
  have hnone : gone.directory.find? final = none := rfl
  rw [hnone] at hanswer
  have hentry : ⟨item, .stale (p.localRef "https://a/b.png")⟩ ∈ snapshot.entries := hentries ▸ List.mem_singleton_self _
  exact ⟨_, _, snapshot, _, _, steps?_trans h h4, hs, hentry, rfl, hanswer, rfl⟩

/-- A directory under the name of an image is taken for the image. -/
theorem not_served_obstructed : ∃ events s snapshot entry response,
    (overDirectory .standard ⟨10, Api.imagesPath, 1⟩
      (.present [(Cache.fileName "https://a/b.png", .directory 0 [])]) 5).steps? events = some s ∧
    s.snapshot = some snapshot ∧ entry ∈ snapshot.entries ∧ entry.image.isLocal = true ∧
    s.respond? "GET" entry.image.href = some response ∧ response.status = 500 := by
  let final := Cache.fileName "https://a/b.png"
  let p : Cache.Policy := ⟨10, Api.imagesPath, 1⟩
  let item : VideoItem := ⟨"One", "https://a/1", "A", "https://a", "https://a/b.png", ⟨5, 0⟩⟩
  let begun := Cache.State.begun p (.present [(final, .directory 0 [])]) 5
  let answered : Cache.State := { begun with
    calls := [⟨.resolve, "https://a/b.png", .answered (.fresh (p.localRef "https://a/b.png"))⟩] }
  let fetched : Service := { initial .standard (some ⟨p, begun⟩) 5 with updates := [.looking ⟨[item], 0⟩ []] }
  let shown : Snapshot := ⟨[⟨item, .fresh (p.localRef "https://a/b.png")⟩], 0, Instant.ofNanos 5⟩
  let published : Service := { (fetched.setCache answered).setUpdate 0 (.published shown) with snapshot := some shown }
  have hs : Link.secure "https://a/b.png" = "https://a/b.png" := rfl
  have hfind : begun.directory.find? final = some (.directory 0 []) := by
    simp [begun, Cache.State.begun, Cache.State.initial]
  have hlook : begun.look p "https://a/b.png" = .fresh := by
    simp only [Cache.State.look, Cache.Directory.look]
    rw [hfind]
    rfl
  have hcall : begun.beginCall p .resolve "https://a/b.png" = answered := by
    simp only [Cache.State.beginCall_eq, Cache.State.firstStage, Cache.State.firstRef?, hs, hlook]
    rfl
  have h1 : (initial .standard (some ⟨p, begun⟩) 5).steps? [.update, .fetch 0 (.ok ⟨[item], 0⟩)] = some fetched := rfl
  have h2 : fetched.look? 0 = some ((fetched.setCache answered).setUpdate 0 (.looking ⟨[item], 0⟩ [0])) := by
    refine look?_eq_some_iff.mpr ⟨⟨[item], 0⟩, [], item, ⟨p, begun⟩, rfl, rfl, rfl, ?_⟩
    rw [hcall]
    rfl
  have h3 : ((fetched.setCache answered).setUpdate 0 (.looking ⟨[item], 0⟩ [0])).steps? [.gather 0, .stamp 0, .publish 0] =
    some published := rfl
  have hc : published.cache = some ⟨p, answered⟩ := rfl
  have hanswer := respond?_localRef rfl hc ⟨_, rfl⟩ "https://a/b.png"
  have hfound : answered.directory.find? final = some (.directory 0 []) := hfind
  rw [hfound] at hanswer
  exact ⟨_, published, shown, ⟨item, .fresh (p.localRef "https://a/b.png")⟩, _,
    steps?_trans h1 (steps?_trans (steps?_singleton (e := .look 0) h2) h3), rfl, List.mem_singleton_self _, rfl, hanswer, rfl⟩

end ChannelWatch.Service
