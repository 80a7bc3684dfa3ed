import ChannelWatch.Proofs.Cache.Batch
import ChannelWatch.Proofs.Cache.Carried
import ChannelWatch.Proofs.Service.Steps

/-!
# The images of an update

An update of a service with a cache asks for the images of its feed as one batch of calls (`Service.beginUpdate_eq`), and goes on when
there is a reference for each of them (`Service.gather?_eq`). What comes of the batch is told by one theorem (`feed_resolved`).
-/

namespace ChannelWatch

namespace Service

variable {s : Service} {i : Nat} {c : ImageCache} {feed : MergedFeed}

/-! ## Parts of a service -/

theorem setCache_self (hc : s.cache = some c) : s.setCache c.state = s := by
  rw [setCache, hc, Option.map_some, ← hc]

theorem setUpdate_self {u : Update} (hu : s.updates[i]? = some u) : s.setUpdate i u = s := by
  obtain ⟨hlt, rfl⟩ := List.getElem?_eq_some_iff.mp hu
  rw [setUpdate, List.set_getElem_self]

theorem setCache_setCache (s : Service) (state state' : Cache.State) : (s.setCache state).setCache state' = s.setCache state' := by
  rw [setCache, setCache, Option.map_map, setCache]
  rfl

theorem setUpdate_setCache_setUpdate (s : Service) (i : Nat) (u u' : Update) (state : Cache.State) :
    ((s.setUpdate i u).setCache state).setUpdate i u' = (s.setCache state).setUpdate i u' := by
  simp [setCache, setUpdate]

/-! ## Attempts -/

theorem attempt_append (s : Service) (es fs : List Event) : s.attempt (es ++ fs) = (s.attempt es).attempt fs := by
  induction es generalizing s with
  | nil => rfl
  | cons e es ih => exact ih _

/-- Events of the cache in which no time passes are attempted by the cache of a service. -/
theorem attempt_cache {ces : List Cache.Event} (hc : s.cache = some c) (hces : ∀ ce ∈ ces, ∀ nanos, ce ≠ .tick nanos) :
    s.attempt (ces.map .cache) = s.setCache (c.state.attempt c.policy ces) := by
  induction ces generalizing s c with
  | nil => exact (setCache_self hc).symm
  | cons ce ces ih =>
    have hrest := fun x hx => hces x (List.mem_cons_of_mem ce hx)
    rw [List.map_cons, attempt, Cache.State.attempt]
    cases hs : c.state.step? c.policy ce with
    | none =>
      have hnone : s.step? (.cache ce) = none := Option.eq_none_iff_forall_ne_some.mpr fun s' h => by
        obtain ⟨c', state, hc', -, hstep, -⟩ := cacheStep?_eq_some_iff.mp h
        obtain rfl := Option.some.inj (hc.symm.trans hc')
        exact Option.some_ne_none state (hstep.symm.trans hs)
      rw [hnone, Option.getD_none, Option.getD_none]
      exact ih hc hrest
    | some state =>
      have hstep : s.step? (.cache ce) = some (s.setCache state) :=
        cacheStep?_eq_some_iff.mpr ⟨c, state, hc, hces ce List.mem_cons_self, hs, rfl⟩
      rw [hstep, Option.getD_some, Option.getD_some, ih (cache_setCache hc state) hrest, setCache_setCache]

/-- An update that asks for the images of all its items that are left makes one call for each. -/
theorem attempt_looks {calls : List Nat} {items : List VideoItem} (hu : s.updates[i]? = some (.looking feed calls))
    (hc : s.cache = some c) (hitems : feed.items.drop calls.length = items) :
    s.attempt (List.replicate items.length (.look i)) =
      (s.setCache (c.state.attempt c.policy (items.map fun item => .call .resolve item.imageUrl))).setUpdate i
        (.looking feed (calls ++ (List.range items.length).map (c.state.calls.length + ·))) := by
  induction items generalizing s c calls with
  | nil =>
    rw [List.map_nil, Cache.State.attempt, setCache_self hc, List.length_nil, List.range_zero, List.map_nil, List.append_nil,
      setUpdate_self hu]
    rfl
  | cons item items ih =>
    have hitem : feed.items[calls.length]? = some item := by
      rw [← Nat.add_zero calls.length, ← List.getElem?_drop, hitems, List.getElem?_cons_zero]
    have hlook : s.step? (.look i) = some _ := look?_eq_some_iff.mpr ⟨feed, calls, item, c, hu, hc, hitem, rfl⟩
    have hlt := (List.getElem?_eq_some_iff.mp hu).1
    let next := (s.setCache (c.state.beginCall c.policy .resolve item.imageUrl)).setUpdate i
      (.looking feed (calls ++ [c.state.calls.length]))
    have hu' : next.updates[i]? = some (.looking feed (calls ++ [c.state.calls.length])) := List.getElem?_set_self hlt
    have hrest : feed.items.drop (calls ++ [c.state.calls.length]).length = items := by
      rw [List.length_append, List.length_singleton, ← List.tail_drop, hitems, List.tail_cons]
    have hnext := ih hu' (cache_setCache hc (c.state.beginCall c.policy .resolve item.imageUrl)) hrest
    have hplaces : calls ++ (List.range (items.length + 1)).map (c.state.calls.length + ·) =
        calls ++ [c.state.calls.length] ++ (List.range items.length).map
          ((c.state.beginCall c.policy .resolve item.imageUrl).calls.length + ·) := by
      simp [List.range_succ_eq_map, Cache.State.beginCall_eq, Nat.add_assoc, Nat.add_comm 1]
    rw [List.length_cons, List.replicate_succ, attempt, hlook, Option.getD_some, hnext, hplaces, setUpdate_setCache_setUpdate,
      setCache_setCache]
    rfl

/-! ## One batch -/

/-- An update asks for the images of the feed that it has fetched as one batch of calls. -/
theorem beginUpdate_eq {network : Http.Network} (hc : s.cache = some c) (hf : s.fetched network = .ok feed) :
    s.beginUpdate network = { s with
      cache := some { c with state := (c.state.callAll c.policy .resolve (feed.items.map (·.imageUrl))).2 }
      updates := s.updates ++ [.looking feed (c.state.callAll c.policy .resolve (feed.items.map (·.imageUrl))).1] } := by
  let s' : Service := { s with updates := s.updates ++ [.looking feed []] }
  have hu : s'.updates[s.updates.length]? = some (.looking feed []) := by simp [s']
  have hc' : s'.cache = some c := hc
  have hfetch : s.attempt [.update, .fetch s.updates.length (s.fetched network)] = s' := by
    simp [attempt, step?, fetch?, hf, setUpdate, s']
  have hunasked : s'.unasked s.updates.length = feed.items.length := by simp [unasked, hu]
  let places := c.state.nextPlaces feed.items.length
  let looked := c.state.attempt c.policy (feed.items.map fun item => .call .resolve item.imageUrl)
  have hlooks : s'.attempt (List.replicate feed.items.length (.look s.updates.length)) =
      (s'.setCache looked).setUpdate s.updates.length (.looking feed places) := attempt_looks hu hc' (List.drop_zero ..)
  have htimeless : ∀ ce ∈ Cache.turnsOf places, ∀ nanos, ce ≠ .tick nanos := by
    rintro ce hce nanos rfl
    obtain ⟨c, -, h | h⟩ := Cache.exists_of_mem_turnsOf hce <;> nomatch h
  have hturns : places.map (fun c => Event.cache (.register c)) ++ places.map (fun c => Event.cache (.lookAgain c)) =
      (Cache.turnsOf places).map Event.cache := by
    rw [Cache.turnsOf, List.map_append, List.map_map, List.map_map]
    rfl
  have hgo := attempt_cache (s := (s'.setCache looked).setUpdate s.updates.length (.looking feed places))
    (cache_setCache hc' looked) htimeless
  have hcallAll : c.state.callAll c.policy .resolve (feed.items.map (·.imageUrl)) =
      (places, looked.attempt c.policy (Cache.turnsOf places)) := by
    rw [Cache.State.callAll_eq, List.length_map, List.map_map]
    rfl
  have hplaces : (List.range feed.items.length).map (c.state.calls.length + ·) = places := rfl
  simp only [beginUpdate, hfetch, hunasked, hc', Option.map_some, Option.getD_some, hcallAll, hplaces]
  rw [List.append_assoc, attempt_append, hlooks, hturns, hgo]
  simp [setCache, setUpdate, hc, s']

/-- An update whose calls are one batch goes on with a reference for each of them when there is one. -/
theorem gather?_eq {state : Cache.State} {calls : List Nat} (hc : s.cache = some { c with state := state })
    (hu : s.updates[i]? = some (.looking feed calls)) (hlength : calls.length = feed.items.length) :
    s.gather? i = (calls.mapM state.answer?).map fun refs =>
      s.setUpdate i (.gathered (List.zipWith FeedEntry.mk feed.items refs) feed.failedSources) := by
  simp [gather?, hu, references?, hc, hlength]

end Service

/-- What comes of a feed whose items have images behind some URLs. -/
structure ImageCache.ResolvesFeed (c : ImageCache) (urls : List String) : Prop where
  /-- An update of a service asks for the images as one batch. -/
  begun : ∀ (s : Service) network feed, s.cache = some c → s.fetched network = .ok feed → feed.items.map (·.imageUrl) = urls →
    s.beginUpdate network = { s with
      cache := some { c with state := (c.state.callAll c.policy .resolve urls).2 }
      updates := s.updates ++ [.looking feed (c.state.callAll c.policy .resolve urls).1] }
  /-- When there is a reference for each call of the batch, the update puts one beside each item, in the order of the items. -/
  gathered : ∀ (s : Service) i feed state, s.cache = some { c with state := state } →
    s.updates[i]? = some (.looking feed (c.state.callAll c.policy .resolve urls).1) → feed.items.map (·.imageUrl) = urls →
    s.gather? i = (((c.state.callAll c.policy .resolve urls).1).mapM state.answer?).map fun refs =>
      s.setUpdate i (.gathered (List.zipWith FeedEntry.mk feed.items refs) feed.failedSources)
  /-- The batch comes to a reference for each URL. -/
  batch : c.state.BatchResolved c.policy urls

/-- Looking up the images of a feed at once, with nothing in flight, gives a reference for each item in its place: none for an empty
URL, a fresh entry at once, what there was before for the one of those that share an image which registers first, and what there is
after the one download of the image for the others. -/
theorem feed_resolved {c : ImageCache} (hr : Cache.Reachable c.policy c.state) (hidle : c.state.inFlight = 0) (urls : List String) :
    c.ResolvesFeed urls where
  begun := fun s network feed hc hf hurls => hurls ▸ Service.beginUpdate_eq hc hf
  gathered := fun s i feed state hc hu hurls => by
    refine Service.gather?_eq hc hu ?_
    rw [← hurls]
    simp [Cache.State.callAll]
  batch := Cache.State.batchResolved hr hidle urls

/-- After a download that could not be begun, the images of a feed of which two are one. -/
theorem feed_resolved_two_forms : ∃ c : ImageCache, Cache.Reachable c.policy c.state ∧ c.state.inFlight = 0 ∧
    c.state.downloads.length = 1 ∧ c.ResolvesFeed ["", "https://a/b.png", "http://a/b.png"] ∧
    ∃ events t d, c.state.Gathers c.policy ["", "https://a/b.png", "http://a/b.png"] events t ∧ t.answer? 1 = some .missing ∧
      t.answer? 2 = some (.remote "https://a/b.png") ∧ t.WaitsFor c.policy 3 "https://a/b.png" d := by
  let p : Cache.Policy := ⟨10, "/", 1⟩
  let before : List Cache.Event := [.call .preload "https://a/b.png", .register 0, .queue 0, .acquire 0, .create 0, .release 0, .unmark 0,
    .signal 0]
  obtain ⟨s, hs, hdirectory, hidle, hdownloads, hcalls⟩ : ∃ s, (Cache.State.begun p .absent 0).steps? p before = some s ∧
      s.directory = .absent ∧ s.inFlight = 0 ∧ s.downloads.length = 1 ∧ s.calls.length = 1 := ⟨_, rfl, rfl, rfl, rfl, rfl⟩
  have hr := (Cache.Reachable.begun (p := p) .absent 0).steps? hs
  have resolved := feed_resolved (c := ⟨p, s⟩) hr hidle ["", "https://a/b.png", "http://a/b.png"]
  obtain ⟨events, gathers, hsorted⟩ := resolved.batch.gathers
  obtain ⟨images, gathered, -⟩ := resolved.batch.gathered events _ gathers
  have hnone : s.directory.find? (Cache.nameFor "https://a/b.png") = none := by rw [hdirectory]; rfl
  have hcold : ∀ url, ¬s.HasFresh p url := by
    rintro url ⟨entry, hentry, -⟩
    rw [hdirectory] at hentry
    nomatch hentry
  have hfirst := (gathered.inPlace hsorted 1 "https://a/b.png" rfl (by decide) (hcold _)).mpr fun j hj url hurl heq => by
    obtain rfl : j = 0 := by omega
    obtain rfl : "" = url := Option.some.inj hurl
    exact absurd heq (by decide)
  have hlater : ¬Cache.IsFirst ["", "https://a/b.png", "http://a/b.png"] (s.registrations events) 2 (Link.secure "http://a/b.png") :=
    fun h => absurd (h.unique hfirst) (by decide)
  have hmissing := gathered.missing 0 rfl
  have hremote := gathered.first 1 "https://a/b.png" rfl (by decide) (hcold _) hfirst
  obtain ⟨d, -, hwaits⟩ := gathered.later 2 "http://a/b.png" rfl (by decide) (hcold _) hlater
  simp only [hnone, hcalls] at hmissing hremote hwaits
  exact ⟨⟨p, s⟩, hr, hidle, hdownloads, resolved, events, _, d, gathers, hmissing, hremote, hwaits⟩

/-- Of two calls for one image, the one in the second place may register first. It is then answered with what there was before, and
the one in the first place with the file that the download has brought. -/
theorem second_registers_first : ∃ events t rest x,
    (Cache.State.begun ⟨10, "/", 1⟩ (.present []) 0).Gathers ⟨10, "/", 1⟩ ["https://a/b.png", "https://a/b.png"] events t ∧
    t.steps? ⟨10, "/", 1⟩ rest = some x ∧ x.inFlight = 0 ∧ x.asked = ["https://a/b.png"] ∧
    x.answer? 0 = some (.fresh ("/" ++ Cache.nameFor "https://a/b.png")) ∧ x.answer? 1 = some (.remote "https://a/b.png") := by
  let p : Cache.Policy := ⟨10, "/", 1⟩
  let url := "https://a/b.png"
  let start := Cache.State.begun p (.present []) 0
  let events : List Cache.Event := [.call .resolve "https://a/b.png", .call .resolve "https://a/b.png", .register 1, .lookAgain 1,
    .register 0]
  let gathered : Cache.State := { start.spawn url with
    calls := [⟨.resolve, url, .waiting 0⟩, ⟨.resolve, url, .answered (.remote url)⟩] }
  have hgathered : start.steps? p events = some gathered := rfl
  have hquiet : ∀ e ∈ events, e.touchesFiles = false ∧ e.nanos = 0 := by
    simp [events, Cache.Event.touchesFiles, Cache.Event.nanos]
  have gathers : start.Gathers p [url, url] events gathered := {
    run := hgathered
    made := rfl
    resolves := by simp [events]
    own := fun _ _ => Nat.zero_le _
    steady := fun m e ⟨before, after, hsplit, hm⟩ _ _ =>
      Cache.State.look_of_steps? hm (fun f hf => hquiet f (hsplit ▸ List.mem_append_left _ hf)) _
    unfinished := by simp [events]
    done := fun c x _ hc => by
      have hmem : x = ⟨.resolve, url, .waiting 0⟩ ∨ x = ⟨.resolve, url, .answered (.remote url)⟩ := by
        simpa [gathered] using List.mem_of_getElem? hc
      rcases hmem with rfl | rfl <;> exact ⟨nofun, nofun⟩ }
  let admitted : Cache.State := { gathered.setPhase 0 .admitted with free := 0 }
  have hadmitted : gathered.steps? p [.queue 0, .acquire 0] = some admitted := Cache.State.admitted rfl rfl rfl rfl
  have hcreate : admitted.directory.create? 0 0 (Cache.tempName (Cache.fileName url)) =
      some (.present [(Cache.tempName (Cache.fileName url), .file ⟨0, [], 0⟩)], 0) := rfl
  obtain ⟨directory, hcarried, hfind, -⟩ := Cache.State.carried (p := p) (s := admitted) (d := 0) rfl hcreate nofun [[7]]
  let carried : Cache.State := { admitted.leave 0 url with
    directory := directory, freshFile := 1, asked := [url], delivered := [(url, [7])] }
  have hproceed : carried.step? p (.proceed 0) = some (carried.setStage 0 .ready) :=
    Cache.State.proceed?_eq_some_iff (s := carried) (c := 0).mpr ⟨.resolve, url, 0, rfl, rfl, rfl⟩
  have hyoung : Cache.Entry.IsFresh 10 0 (.file ⟨0, [7], 0⟩) := by decide
  have hfresh : (carried.setStage 0 .ready).look p url = .fresh := Cache.Directory.look_eq_fresh_iff.mpr ⟨_, hfind, hyoung⟩
  have hagain : (carried.setStage 0 .ready).step? p (.lookAgain 0) =
      some ((carried.setStage 0 .ready).setStage 0 (.answered (.fresh ("/" ++ Cache.fileName url)))) :=
    Cache.State.lookAgain?_eq_some_iff (s := carried.setStage 0 .ready) (c := 0).mpr ⟨.resolve, url, rfl, by rw [hfresh]; rfl⟩
  have hlast := Cache.State.steps?_cons hproceed (Cache.State.steps?_singleton hagain)
  exact ⟨events, gathered, _, _, gathers, Cache.State.steps?_trans hadmitted (Cache.State.steps?_trans hcarried hlast),
    rfl, rfl, rfl, rfl⟩

/-- A fresh directory under the name of an image is taken for the image, and the source is not asked for it. -/
theorem directory_taken_for_image : ∃ t,
    (Cache.State.begun ⟨10, "/", 1⟩ (.present [(Cache.nameFor "https://a/b.png", .directory 0 [])]) 0).callAll ⟨10, "/", 1⟩ .resolve
      ["https://a/b.png"] = ([0], t) ∧
    t.directory.file? (Cache.nameFor "https://a/b.png") = none ∧ t.downloads = [] ∧ t.asked = [] ∧
    t.answer? 0 = some (.fresh ("/" ++ Cache.nameFor "https://a/b.png")) := by
  let p : Cache.Policy := ⟨10, "/", 1⟩
  let url := "https://a/b.png"
  let start := Cache.State.begun p (.present [(Cache.nameFor url, .directory 0 [])]) 0
  have hfind : start.directory.find? (Cache.nameFor url) = some (.directory 0 []) := Cache.Directory.find?_insert_self [] _ _
  have hyoung : Cache.Entry.IsFresh 10 0 (.directory 0 []) := by decide
  have hstage : start.firstStage p .resolve url = .answered (.fresh ("/" ++ Cache.nameFor url)) :=
    Cache.State.firstStage_of_hasFresh (p := p) (by decide) ⟨_, hfind, hyoung⟩ .resolve
  refine ⟨start.withCall .resolve (Link.secure url) (.answered (.fresh ("/" ++ Cache.nameFor url))), ?_, ?_, rfl, rfl, rfl⟩
  · rw [Cache.State.callAll_eq]
    show ([0], (start.beginCall p .resolve url).attempt p _) = _
    rw [Cache.State.beginCall_eq_withCall, hstage]
    rfl
  · exact Option.eq_none_iff_forall_ne_some.mpr fun f hf => nomatch (Cache.Directory.file?_eq_some_iff.mp hf).symm.trans hfind

/-- A call that has looked together with another one, and registers only when the download of this one is over, has the source asked
for the image again. -/
theorem late_call_asks_again : ∃ looked rest x,
    (Cache.State.begun ⟨10, "/", 1⟩ (.present []) 0).steps? ⟨10, "/", 1⟩
      [.call .resolve "https://a/b.png", .call .resolve "https://a/b.png"] = some looked ∧
    looked.calls = [⟨.resolve, "https://a/b.png", .looked⟩, ⟨.resolve, "https://a/b.png", .looked⟩] ∧ looked.downloads = [] ∧
    looked.steps? ⟨10, "/", 1⟩ rest = some x ∧ x.asked = ["https://a/b.png", "https://a/b.png"] := by
  let p : Cache.Policy := ⟨10, "/", 1⟩
  let url := "https://a/b.png"
  let start := Cache.State.begun p (.present []) 0
  let looked : Cache.State := { start with calls := [⟨.resolve, url, .looked⟩, ⟨.resolve, url, .looked⟩] }
  let admitted : Cache.State := { start with
    free := 0, downloads := [⟨url, .admitted⟩], markers := [(url, 0)]
    calls := [⟨.resolve, url, .answered (.remote url)⟩, ⟨.resolve, url, .looked⟩] }
  have hlooked : start.steps? p [.call .resolve "https://a/b.png", .call .resolve "https://a/b.png"] = some looked := rfl
  have hadmitted : looked.steps? p [.register 0, .lookAgain 0, .queue 0, .acquire 0] = some admitted := rfl
  obtain ⟨x, hx, hasked, -⟩ := Cache.State.asked_again (p := p) (s := admitted) (d := 0) (c := 1) rfl ⟨[], rfl⟩ nofun nofun rfl rfl
    rfl [[7]]
  exact ⟨looked, _, x, hlooked, rfl, rfl, Cache.State.steps?_trans hadmitted hx, hasked⟩

/-- The places of the calls for one image do not tell which of them is answered with what there was before; an image without a fresh
file is not always asked for; and one is asked for twice if a call that has looked registers late. -/
theorem feed_not_resolved_in_place :
    (∃ events t rest x,
      (Cache.State.begun ⟨10, "/", 1⟩ (.present []) 0).Gathers ⟨10, "/", 1⟩ ["https://a/b.png", "https://a/b.png"] events t ∧
      t.steps? ⟨10, "/", 1⟩ rest = some x ∧ x.inFlight = 0 ∧ x.asked = ["https://a/b.png"] ∧
      x.answer? 0 = some (.fresh ("/" ++ Cache.nameFor "https://a/b.png")) ∧ x.answer? 1 = some (.remote "https://a/b.png")) ∧
    (∃ t, (Cache.State.begun ⟨10, "/", 1⟩ (.present [(Cache.nameFor "https://a/b.png", .directory 0 [])]) 0).callAll ⟨10, "/", 1⟩
        .resolve ["https://a/b.png"] = ([0], t) ∧
      t.directory.file? (Cache.nameFor "https://a/b.png") = none ∧ t.downloads = [] ∧ t.asked = [] ∧
      t.answer? 0 = some (.fresh ("/" ++ Cache.nameFor "https://a/b.png"))) ∧
    ∃ looked rest x,
      (Cache.State.begun ⟨10, "/", 1⟩ (.present []) 0).steps? ⟨10, "/", 1⟩
        [.call .resolve "https://a/b.png", .call .resolve "https://a/b.png"] = some looked ∧
      looked.calls = [⟨.resolve, "https://a/b.png", .looked⟩, ⟨.resolve, "https://a/b.png", .looked⟩] ∧ looked.downloads = [] ∧
      looked.steps? ⟨10, "/", 1⟩ rest = some x ∧ x.asked = ["https://a/b.png", "https://a/b.png"] :=
  ⟨second_registers_first, directory_taken_for_image, late_call_asks_again⟩

end ChannelWatch
