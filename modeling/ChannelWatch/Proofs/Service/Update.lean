import ChannelWatch.Proofs.Cache.Waiting
import ChannelWatch.Proofs.Feed.Reference
import ChannelWatch.Proofs.Service.Steps

/-!
# Updates

An update gives what its reference says, whatever else happens in the service meanwhile. The invariant (`Meets`) ties the
stage of the update to the feed that it has fetched and to the calls that it has made for the images, one for each item in its
place; the work that is left (`workLeft`) never grows, and shrinks by some step unless the update is over or waits for a
download.
-/

namespace ChannelWatch.Service

variable {s s' : Service} {e : Event} {i since : Nat} {feed : MergedFeed} {items : List VideoItem} {calls : List Nat}
  {refs : List ImageRef}

/-! ## The calls of an update -/

/-- An update has made calls for the images of its first items, one after another, and none before a place. -/
structure HasCalled (s : Service) (since : Nat) (items : List VideoItem) (calls : List Nat) : Prop where
  ordered : calls.Pairwise (· < ·)
  made : ∀ (j call : Nat), calls[j]? = some call → since ≤ call ∧ ∃ c item stage, s.cache = some c ∧ items[j]? = some item ∧
    c.state.calls[call]? = some ⟨.resolve, Link.secure item.imageUrl, stage⟩ ∧ stage ≠ .finished

/-- The references are those to the images of the items: with a cache the answers to calls for them, in their order. -/
def Resolved (s : Service) (since : Nat) (items : List VideoItem) (refs : List ImageRef) : Prop :=
  match s.cache with
  | none => refs = items.map Snapshot.uncachedRef
  | some c => ∃ calls, s.HasCalled since items calls ∧ calls.length = items.length ∧ calls.map c.state.answer? = refs.map some

theorem HasCalled.length_le (h : s.HasCalled since items calls) : calls.length ≤ items.length := by
  refine Nat.le_of_not_lt fun hlt => ?_
  obtain ⟨-, c, item, stage, -, hitem, -⟩ := h.made items.length _ (List.getElem?_eq_getElem hlt)
  rw [List.getElem?_eq_none (Nat.le_refl _)] at hitem
  nomatch hitem

/-- There is a reference for every item. -/
theorem Resolved.length_eq (h : s.Resolved since items refs) : refs.length = items.length := by
  unfold Resolved at h
  split at h
  · rw [h, List.length_map]
  · obtain ⟨calls, -, hlen, hmap⟩ := h
    rw [← hlen, ← List.length_map (f := some), ← hmap, List.length_map]

/-- The calls that were made stay whatever the cache does. -/
theorem HasCalled.turn (h : s.HasCalled since items calls) (t : CacheTurn s s') : s'.HasCalled since items calls := by
  refine ⟨h.ordered, fun j call hj => ?_⟩
  obtain ⟨hle, c, item, stage, hc, hitem, hcall, hf⟩ := h.made j call hj
  obtain ⟨state, hcache, hcases⟩ := t.cache_stays hc
  refine ⟨hle, ⟨c.policy, state⟩, item, ?_⟩
  rcases hcases with rfl | ⟨ce, hs⟩
  · exact ⟨stage, hcache, hitem, hcall, hf⟩
  · obtain ⟨new, hnew, rfl | next⟩ := (Cache.callTurn_of_step? hs).call_stays hcall
    · exact ⟨new, hcache, hitem, hnew, hf⟩
    · refine ⟨new, hcache, hitem, hnew, ?_⟩
      cases next with
      | finish hp => nomatch hp
      | _ => exact nofun

/-- An answer stays whatever the cache does. -/
theorem answer?_stays {c : ImageCache} {state : Cache.State} {call : Nat} {ref : ImageRef}
    (hs : state = c.state ∨ ∃ ce, c.state.step? c.policy ce = some state) (h : c.state.answer? call = some ref) :
    state.answer? call = some ref := by
  rcases hs with rfl | ⟨ce, hs⟩
  · exact h
  · unfold Cache.State.answer? at h
    split at h
    · rename_i purpose url ref' hcall
      obtain rfl := Option.some.inj h
      obtain ⟨new, hnew, rfl | next⟩ := (Cache.callTurn_of_step? hs).call_stays hcall
      · rw [Cache.State.answer?, hnew]
      · cases next
    · cases h

/-- References stay whatever the cache does. -/
theorem Resolved.turn (h : s.Resolved since items refs) (t : CacheTurn s s') : s'.Resolved since items refs := by
  cases hc : s.cache with
  | none =>
    have hnone : s'.cache = none := by
      rw [← Option.not_isSome_iff_eq_none, t.cache_isSome, hc]
      exact nofun
    simp only [Resolved, hc] at h
    simp only [Resolved, hnone, h]
  | some c =>
    obtain ⟨state, hcache, hs⟩ := t.cache_stays hc
    simp only [Resolved, hc] at h
    obtain ⟨calls, hcalled, hlen, hmap⟩ := h
    simp only [Resolved, hcache]
    refine ⟨calls, hcalled.turn t, hlen, List.ext_getElem? fun j => ?_⟩
    have hj := congrArg (·[j]?) hmap
    simp only [List.getElem?_map] at hj ⊢
    cases hcall : calls[j]? with
    | none => rwa [hcall] at hj
    | some call =>
      cases href : refs[j]? with
      | none =>
        rw [hcall, href] at hj
        nomatch hj
      | some ref =>
        rw [hcall, href] at hj
        exact congrArg some (answer?_stays hs (Option.some.inj hj))

/-- A new call is for the next item. -/
theorem HasCalled.look {c : ImageCache} {item : VideoItem} (h : s.HasCalled since items calls) (hc : s.cache = some c)
    (hsince : since ≤ c.state.calls.length) (hitem : items[calls.length]? = some item)
    (hc' : s'.cache = some ⟨c.policy, c.state.beginCall c.policy .resolve item.imageUrl⟩) (t : CacheTurn s s') :
    s'.HasCalled since items (calls ++ [c.state.calls.length]) := by
  have kept := h.turn t
  constructor
  · rw [List.pairwise_append]
    refine ⟨h.ordered, List.pairwise_singleton _ _, fun a ha b hb => ?_⟩
    obtain ⟨j, hj⟩ := List.mem_iff_getElem?.mp ha
    obtain ⟨-, c₀, _, _, hc₀, -, hcall, -⟩ := h.made j a hj
    obtain rfl := Option.some.inj (hc.symm.trans hc₀)
    rw [List.mem_singleton.mp hb]
    exact (List.getElem?_eq_some_iff.mp hcall).1
  · intro j call hj
    rw [getElem?_append_singleton] at hj
    split at hj
    · rename_i hlast
      obtain rfl := Option.some.inj hj
      refine ⟨hsince, _, item, c.state.firstStage c.policy .resolve item.imageUrl, hc', hlast ▸ hitem, ?_,
        c.state.firstStage_resolve item.imageUrl⟩
      rw [Cache.State.beginCall_eq, getElem?_append_singleton, if_pos rfl]
    · exact kept.made j call hj

/-- The references that an update gathers are those to the images of its items. -/
theorem HasCalled.resolved (h : s.HasCalled since items calls) (hr : s.references? items calls = some refs) :
    s.Resolved since items refs := by
  unfold references? at hr
  unfold Resolved
  cases hc : s.cache with
  | none =>
    simp only [hc] at hr
    exact (Option.some.inj hr).symm
  | some c =>
    simp only [hc] at hr
    split at hr
    · rename_i hlen
      exact ⟨calls, h, hlen, mapM_eq_some_iff.mp hr⟩
    · nomatch hr

/-! ## The invariant -/

/-- The entries are the items in their order, each with the reference to its own image. -/
def Illustrates (s : Service) (since : Nat) (items : List VideoItem) (entries : List FeedEntry) : Prop :=
  entries.map (·.item) = items ∧ s.Resolved since items (entries.map (·.image))

/-- Where an update is that has fetched a feed: it makes calls for the images of the feed's items, and then has a snapshot of
the feed. -/
def Meets (s : Service) (since : Nat) (feed : MergedFeed) : Update → Prop
  | .looking fetched calls => fetched = feed ∧ s.HasCalled since feed.items calls
  | .gathered entries failed => failed = feed.failedSources ∧ s.Illustrates since feed.items entries
  | .stamped snapshot | .published snapshot =>
    snapshot.failedSources = feed.failedSources ∧ s.Illustrates since feed.items snapshot.entries
  | .fetching | .failed _ => False

theorem meets_looking (s : Service) (since : Nat) (feed : MergedFeed) : s.Meets since feed (.looking feed []) :=
  ⟨rfl, List.Pairwise.nil, fun _ _ h => nomatch h⟩

theorem Illustrates.turn {entries : List FeedEntry} (h : s.Illustrates since items entries) (t : CacheTurn s s') :
    s'.Illustrates since items entries := by
  exact ⟨h.1, h.2.turn t⟩

/-- The items with the references to their images are entries of the items. -/
theorem Resolved.illustrates (h : s.Resolved since items refs) :
    s.Illustrates since items (List.zipWith FeedEntry.mk items refs) := by
  have hzip : List.zipWith FeedEntry.mk items refs = (items.zip refs).map (Function.uncurry FeedEntry.mk) :=
    List.map_uncurry_zip_eq_zipWith.symm
  have himages : (List.zipWith FeedEntry.mk items refs).map (·.image) = refs := by
    rw [hzip, List.map_map]
    exact List.map_snd_zip (Nat.le_of_eq h.length_eq)
  refine ⟨?_, himages.symm ▸ h⟩
  rw [hzip, List.map_map]
  exact List.map_fst_zip (Nat.le_of_eq h.length_eq.symm)

theorem Meets.turn {u : Update} (h : s.Meets since feed u) (t : CacheTurn s s') : s'.Meets since feed u := by
  cases u with
  | fetching | failed => exact h
  | looking fetched calls => exact ⟨h.1, h.2.turn t⟩
  | gathered | stamped | published => exact ⟨h.1, h.2.turn t⟩

/-- The calls of the cache before a place stay before it. -/
theorem CacheTurn.since_le (t : CacheTurn s s') (h : ∀ c, s.cache = some c → since ≤ c.state.calls.length) :
    ∀ c, s'.cache = some c → since ≤ c.state.calls.length := by
  intro c hc
  cases t with
  | idle cache => exact h c (cache ▸ hc)
  | go c' ce state here step cache =>
    obtain rfl := Option.some.inj (cache.symm.trans hc)
    exact Nat.le_trans (h c' here) (Cache.callTurn_of_step? step).length_le

/-- The cache stays in states that it can come to. -/
theorem CacheTurn.reachable (t : CacheTurn s s') (h : ∀ c, s.cache = some c → Cache.Reachable c.policy c.state) :
    ∀ c, s'.cache = some c → Cache.Reachable c.policy c.state := by
  intro c hc
  cases t with
  | idle cache => exact h c (cache ▸ hc)
  | go c' ce state here step cache =>
    obtain rfl := Option.some.inj (cache.symm.trans hc)
    exact (h c' here).step step

/-- Every step keeps what an update that has fetched a feed is about. -/
theorem Meets.step {u : Update} (h : s.Meets since feed u) (hsince : ∀ c, s.cache = some c → since ≤ c.state.calls.length)
    (hu : s.updates[i]? = some u) (hs : s.step? e = some s') : ∃ u', s'.updates[i]? = some u' ∧ s'.Meets since feed u' := by
  obtain ⟨turn, cturn⟩ := turn_of_step? hs
  obtain ⟨new, hnew, rfl | next⟩ := turn.update_stays hu
  · exact ⟨new, hnew, h.turn cturn⟩
  · refine ⟨new, hnew, ?_⟩
    cases next with
    | fetch | fail => exact h.elim
    | look fetched calls item c hc hitem =>
      obtain ⟨rfl, hcalled⟩ := h
      obtain ⟨feed', calls', item', c', hu', hc', hitem', rfl⟩ := look?_eq_some_iff.mp hs
      obtain ⟨rfl, rfl⟩ := Update.looking.inj (Option.some.inj (hu.symm.trans hu'))
      obtain rfl := Option.some.inj (hc.symm.trans hc')
      obtain rfl := Option.some.inj (hitem.symm.trans hitem')
      exact ⟨rfl, hcalled.look hc (hsince c hc) hitem (cache_setCache hc _) cturn⟩
    | gather fetched calls refs hr =>
      obtain ⟨rfl, hcalled⟩ := h
      exact ⟨rfl, (hcalled.resolved hr).illustrates.turn cturn⟩
    | stamp entries failed => exact ⟨h.1, h.2.turn cturn⟩
    | publish snapshot => exact ⟨h.1, h.2.turn cturn⟩

/-! ## The work that is left -/

/-- How many steps a call has to take at most until it is answered. -/
def callLeft (s : Service) (call : Nat) : Nat :=
  match s.cache with
  | some c => ((c.state.calls[call]?).map (·.stage.left)).getD 0
  | none => 0

/-- How many steps some calls have to take at most until all are answered. -/
def callsLeft (s : Service) (calls : List Nat) : Nat :=
  (calls.map s.callLeft).sum

/-- How many steps an update at some stage has to take at most until it is over, those of its calls included. -/
def stepsLeft (s : Service) : Update → Nat
  | .looking feed calls => 3 + 4 * (feed.items.length - calls.length) + s.callsLeft calls
  | .gathered _ _ => 2
  | .stamped _ => 1
  | .fetching | .published _ | .failed _ => 0

/-- How many steps an update that has fetched has to take at most until it is over. -/
def workLeft (s : Service) (i : Nat) : Nat :=
  ((s.updates[i]?).map s.stepsLeft).getD 0

/-- A call has three steps to take at most. -/
theorem callLeft_le (s : Service) (call : Nat) : s.callLeft call ≤ 3 := by
  unfold callLeft
  split
  · rename_i c _
    cases c.state.calls[call]? with
    | none => exact Nat.zero_le _
    | some x => exact x.stage.left_le
  · exact Nat.zero_le _

/-- Whatever the cache does, a call does not move away from its answer. -/
theorem callLeft_turn {call : Nat} (h : s.HasCalled since items calls) (hcall : call ∈ calls) (t : CacheTurn s s') :
    s'.callLeft call ≤ s.callLeft call := by
  obtain ⟨j, hj⟩ := List.mem_iff_getElem?.mp hcall
  obtain ⟨-, c, item, stage, hc, -, hstage, -⟩ := h.made j call hj
  obtain ⟨state, hc', hcases⟩ := t.cache_stays hc
  simp only [callLeft, hc, hc', hstage, Option.map_some, Option.getD_some]
  rcases hcases with rfl | ⟨ce, hs⟩
  · rw [hstage]
    exact Nat.le_refl _
  · obtain ⟨new, hnew, rfl | next⟩ := (Cache.callTurn_of_step? hs).call_stays hstage
    · rw [hnew]
      exact Nat.le_refl _
    · rw [hnew]
      exact Nat.le_of_lt next.left_lt

theorem callsLeft_turn (h : s.HasCalled since items calls) (t : CacheTurn s s') : s'.callsLeft calls ≤ s.callsLeft calls :=
  (sum_map_le fun _ hcall => callLeft_turn h hcall t).1

/-- An update that goes on comes closer to its end. -/
theorem Meets.goes_on {u new : Update} (h : s.Meets since feed u) (hs : s.step? e = some s')
    (next : Update.Next s i e u new) : s'.stepsLeft new < s.stepsLeft u := by
  cases next with
  | fetch | fail => exact h.elim
  | look fetched calls item c hc hitem =>
    have hlt : calls.length < fetched.items.length := (List.getElem?_eq_some_iff.mp hitem).1
    have hle := callsLeft_turn h.2 (turn_of_step? hs).2
    have hnew := s'.callLeft_le c.state.calls.length
    simp only [callsLeft] at hle
    simp only [stepsLeft, callsLeft, List.length_append, List.length_singleton, List.map_append, List.sum_append,
      List.map_cons, List.map_nil, List.sum_cons, List.sum_nil]
    omega
  | gather fetched calls refs _ =>
    simp only [stepsLeft]
    omega
  | stamp | publish => exact Nat.lt_succ_self _

/-- No step gives an update that has fetched more work. -/
theorem Meets.workLeft_step {u : Update} (h : s.Meets since feed u) (hu : s.updates[i]? = some u)
    (hs : s.step? e = some s') : s'.workLeft i ≤ s.workLeft i := by
  obtain ⟨turn, cturn⟩ := turn_of_step? hs
  obtain ⟨new, hnew, hcases⟩ := turn.update_stays hu
  simp only [workLeft, hu, hnew, Option.map_some, Option.getD_some]
  rcases hcases with rfl | next
  · cases new with
    | looking fetched calls => exact Nat.add_le_add_left (callsLeft_turn h.2 cturn) _
    | _ => exact Nat.le_refl _
  · exact Nat.le_of_lt (h.goes_on hs next)

/-- An update with a call that has not been answered can have it go on, unless it waits for a download. -/
theorem HasCalled.call_goes_on {c : ImageCache} {call : Nat} (h : s.HasCalled since items calls) (hc : s.cache = some c)
    (hcall : call ∈ calls) (hanswer : c.state.answer? call = none) :
    (∃ url d, c.state.calls[call]? = some ⟨.resolve, url, .waiting d⟩ ∧ c.state.isTold d = false) ∨
      ∃ e s', s.step? e = some s' ∧ s'.updates = s.updates ∧ s'.callsLeft calls < s.callsLeft calls := by
  obtain ⟨j, hj⟩ := List.mem_iff_getElem?.mp hcall
  obtain ⟨-, c₀, item, stage, hc₀, -, hstage, hf⟩ := h.made j call hj
  obtain rfl := Option.some.inj (hc.symm.trans hc₀)
  rcases Cache.State.call_goes_on (p := c.policy) hstage hf hanswer with ⟨d, rfl, ht⟩ | ⟨ce, state, new, hne, hs, hnew, hlt⟩
  · exact Or.inl ⟨_, d, hstage, ht⟩
  · have hstep : s.step? (.cache ce) = some (s.setCache state) := cacheStep?_eq_some_iff.mpr ⟨c, state, hc, hne, hs, rfl⟩
    have hc' := cache_setCache hc state
    have hle : ∀ x ∈ calls, (s.setCache state).callLeft x ≤ s.callLeft x :=
      fun x hx => callLeft_turn h hx (turn_of_step? hstep).2
    refine Or.inr ⟨.cache ce, _, hstep, rfl, (sum_map_le hle).2 ⟨call, hcall, ?_⟩⟩
    simp only [callLeft, hc, hc', hstage, hnew, Option.map_some, Option.getD_some]
    exact hlt

/-- An update waits for a download that has not ended: one of its calls does, and the download is for the image of the
call. -/
def Waits (s : Service) (i : Nat) : Prop :=
  ∃ feed calls c call url d phase, s.updates[i]? = some (.looking feed calls) ∧ s.cache = some c ∧ call ∈ calls ∧
    c.state.calls[call]? = some ⟨.resolve, url, .waiting d⟩ ∧ c.state.downloads[d]? = some ⟨url, phase⟩ ∧ phase ≠ .ended

/-- An update that has made all its calls has their answers, or some step leaves it less work, or it waits for a download. -/
theorem HasCalled.answers {c : ImageCache} (h : s.HasCalled since feed.items calls)
    (hu : s.updates[i]? = some (.looking feed calls)) (hc : s.cache = some c) (hcache : Cache.Reachable c.policy c.state)
    (hall : calls.length = feed.items.length) :
    (∃ refs, s.references? feed.items calls = some refs) ∨
      (∃ e s', s.step? e = some s' ∧ s'.workLeft i < s.workLeft i) ∨ s.Waits i := by
  by_cases hanswered : ∃ call ∈ calls, c.state.answer? call = none
  · obtain ⟨call, hcall, hnone⟩ := hanswered
    rcases h.call_goes_on hc hcall hnone with ⟨url, d, hwaiting, ht⟩ | ⟨e, s', hs, hupdates, hleft⟩
    · obtain ⟨-, phase, hd⟩ := hcache.linked _ _ _ _ hwaiting
      refine Or.inr (Or.inr ⟨feed, calls, c, call, url, d, phase, hu, hc, hcall, hwaiting, hd, ?_⟩)
      rintro rfl
      rw [Cache.State.isTold_iff.mpr (Cache.State.phase?_eq_some_iff.mpr ⟨url, hd⟩)] at ht
      nomatch ht
    · refine Or.inr (Or.inl ⟨e, s', hs, ?_⟩)
      simp only [workLeft, hupdates, hu, Option.map_some, Option.getD_some, stepsLeft]
      omega
  · have hread : ∀ call ∈ calls, c.state.answer? call ≠ none := fun call hcall hnone => hanswered ⟨call, hcall, hnone⟩
    obtain ⟨refs, hrefs⟩ := exists_mapM_eq_some hread
    refine Or.inl ⟨refs, ?_⟩
    simp only [references?, hc, if_pos hall, hrefs]

/-- An update that has fetched is over, or some step leaves it less work, or it waits for a download. -/
theorem Meets.progress {u : Update} (h : s.Meets since feed u) (hu : s.updates[i]? = some u)
    (hcache : ∀ c, s.cache = some c → Cache.Reachable c.policy c.state) :
    (∃ snapshot, u = .published snapshot) ∨ (∃ e s', s.step? e = some s' ∧ s'.workLeft i < s.workLeft i) ∨ s.Waits i := by
  -- an event of the update itself leaves it less work
  have own : ∀ (e : Event) (s' : Service) (new : Update), s.step? e = some s' → Update.Next s i e u new →
      s'.updates[i]? = some new → ∃ e s', s.step? e = some s' ∧ s'.workLeft i < s.workLeft i := by
    intro e s' new hs next hnew
    refine ⟨e, s', hs, ?_⟩
    simp only [workLeft, hu, hnew, Option.map_some, Option.getD_some]
    exact h.goes_on hs next
  have hlt : i < s.updates.length := (List.getElem?_eq_some_iff.mp hu).1
  cases u with
  | fetching | failed => exact h.elim
  | published snapshot => exact Or.inl ⟨snapshot, rfl⟩
  | stamped snapshot =>
    have hs : s.step? (.publish i) = some _ := publish?_eq_some_iff.mpr ⟨snapshot, hu, rfl⟩
    exact Or.inr (Or.inl (own _ _ _ hs (.publish snapshot) (List.getElem?_set_self hlt)))
  | gathered entries failed =>
    have hs : s.step? (.stamp i) = some _ := stamp?_eq_some_iff.mpr ⟨entries, failed, hu, rfl⟩
    exact Or.inr (Or.inl (own _ _ _ hs (.stamp entries failed) (List.getElem?_set_self hlt)))
  | looking fetched calls =>
    have gathers : ∀ refs, s.references? fetched.items calls = some refs →
        ∃ e s', s.step? e = some s' ∧ s'.workLeft i < s.workLeft i := by
      intro refs hr
      have hs : s.step? (.gather i) = some _ := gather?_eq_some_iff.mpr ⟨fetched, calls, refs, hu, hr, rfl⟩
      exact own _ _ _ hs (.gather fetched calls refs hr) (List.getElem?_set_self hlt)
    obtain ⟨rfl, hcalled⟩ := h
    cases hc : s.cache with
    | none => exact Or.inr (Or.inl (gathers (fetched.items.map Snapshot.uncachedRef) (by simp [references?, hc])))
    | some c =>
      rcases Nat.lt_or_eq_of_le hcalled.length_le with hless | hall
      · -- the image of some item has not been asked for yet
        have hitem := List.getElem?_eq_getElem hless
        have hs : s.step? (.look i) = some _ := look?_eq_some_iff.mpr ⟨fetched, calls, _, c, hu, hc, hitem, rfl⟩
        exact Or.inr (Or.inl (own _ _ _ hs (.look fetched calls _ c hc hitem) (List.getElem?_set_self hlt)))
      · rcases hcalled.answers hu hc (hcache c hc) hall with ⟨refs, hrefs⟩ | hgoes
        · exact Or.inr (Or.inl (gathers refs hrefs))
        · exact Or.inr hgoes

/-- An update that has fetched can be led to its end, or to a wait for a download, by no more steps than are left to it. -/
theorem Meets.reaches {u : Update} (h : s.Meets since feed u) (hu : s.updates[i]? = some u)
    (hcache : ∀ c, s.cache = some c → Cache.Reachable c.policy c.state)
    (hsince : ∀ c, s.cache = some c → since ≤ c.state.calls.length) :
    ∃ events s', s.steps? events = some s' ∧ events.length ≤ s.workLeft i ∧
      ((∃ snapshot, s'.updates[i]? = some (.published snapshot)) ∨ s'.Waits i) := by
  induction hn : s.workLeft i using Nat.strongRecOn generalizing s u with
  | ind n ih =>
    rcases h.progress hu hcache with ⟨snapshot, rfl⟩ | ⟨e, mid, he, hless⟩ | hwaits
    · exact ⟨[], s, rfl, Nat.zero_le _, Or.inl ⟨snapshot, hu⟩⟩
    · obtain ⟨u', hu', hmeets⟩ := h.step hsince hu he
      have cturn := (turn_of_step? he).2
      obtain ⟨events, s', hs, hlen, hend⟩ :=
        ih (mid.workLeft i) (hn ▸ hless) hmeets hu' (cturn.reachable hcache) (cturn.since_le hsince) rfl
      refine ⟨e :: events, s', ?_, ?_, hend⟩
      · rw [steps?, he, Option.bind_some, hs]
      · rw [List.length_cons, ← hn]
        exact Nat.lt_of_le_of_lt hlen hless
    · exact ⟨[], s, rfl, Nat.zero_le _, Or.inr hwaits⟩

/-! ## The reference -/

/-- An update that has fetched a feed is on its way to the snapshot of this feed. -/
structure OnItsWay (s : Service) (i since : Nat) (feed : MergedFeed) : Prop where
  /-- At every stage the update is about the feed, and its entries have the references that were given for their images. -/
  meets : ∃ u, s.updates[i]? = some u ∧ s.Meets since feed u
  /-- The snapshot that it publishes becomes the current one. -/
  publishes : ∀ s', s.step? (.publish i) = some s' →
    ∃ snapshot, s'.updates[i]? = some (.published snapshot) ∧ s'.snapshot = some snapshot
  /-- The current snapshot stays until an update publishes. -/
  keeps : ∀ e s', s.step? e = some s' → (∀ j, e ≠ .publish j) → s'.snapshot = s.snapshot
  /-- No step gives it more work. -/
  work : ∀ e s', s.step? e = some s' → s'.workLeft i ≤ s.workLeft i
  /-- It is over, or some step leaves it less work, or it waits for a download that has not ended. -/
  progress : (∃ snapshot, s.updates[i]? = some (.published snapshot)) ∨
    (∃ e s', s.step? e = some s' ∧ s'.workLeft i < s.workLeft i) ∨ s.Waits i
  /-- So as many steps as it has left lead to its end, unless it comes to wait for a download that has not ended. -/
  reaches : ∃ events s', s.steps? events = some s' ∧ events.length ≤ s.workLeft i ∧
    ((∃ snapshot, s'.updates[i]? = some (.published snapshot)) ∨ s'.Waits i)

/-- What an update that fetches gives, for the requests of all sources and whatever answers each of them. -/
structure EqualsReference (s : Service) (i : Nat) (networks : Nat → Http.Network) (requests : List Http.Request)
    (now : Instant) : Prop where
  /-- In whatever order the fetches begin and end, and whatever the number of workers, they come to an end, and what they give
  is what the update gets. -/
  fetched : ∀ workers, workers ≠ 0 → ∀ events r,
    (Runner.Run.initial workers (Feed.tasks networks s.settings.provider requests)).steps? events = some r →
    events.length ≤ 2 * requests.length ∧
      (r.AtEnd → Feed.concluded? s.settings now r = some (Feed.fetchEach networks s.settings now))
  /-- There are items exactly if some source answers with success, its answer arrives whole, decodes and has an item. -/
  found : Feed.foundItems s.settings now (Feed.found networks s.settings requests) ≠ [] ↔
    ∃ source payload, (source, some payload) ∈ Feed.found networks s.settings requests ∧
      payload.items s.settings.urlTemplate now source ≠ []
  /-- Without items there is no content: the update is over and the snapshot is the one before. -/
  empty : Feed.foundItems s.settings now (Feed.found networks s.settings requests) = [] →
    Feed.fetchEach networks s.settings now = .error .noContent ∧
      ∃ s', s.step? (.fetch i (.error .noContent)) = some s' ∧ s'.snapshot = s.snapshot ∧ s'.cache = s.cache ∧
        ∀ events s'', s'.steps? events = some s'' → s''.updates[i]? = some (.failed .noContent)
  /-- With items, the feed has the newest of them up to the limit, and counts the sources that gave nothing. From then on the
  update is on its way to the snapshot of this feed, with a bounded number of steps to take. -/
  full : Feed.foundItems s.settings now (Feed.found networks s.settings requests) ≠ [] →
    ∃ feed sorted, Feed.fetchEach networks s.settings now = .ok feed ∧
      Feed.IsNewestFirst (Feed.foundItems s.settings now (Feed.found networks s.settings requests)) sorted ∧
      feed.items = sorted.take s.settings.effectiveLimit ∧
      feed.failedSources = Feed.missed (Feed.found networks s.settings requests) ∧
      ∃ s', s.step? (.fetch i (.ok feed)) = some s' ∧ s'.snapshot = s.snapshot ∧
        s'.workLeft i = 3 + 4 * feed.items.length ∧
        ∀ events s'', s'.steps? events = some s'' →
          s''.OnItsWay i ((s.cache.map (·.state.calls.length)).getD 0) feed

/-- An update that is over without content stays so. -/
theorem failed_stays {fault : Fault} {events : List Event} (h : s.updates[i]? = some (.failed fault))
    (hs : s.steps? events = some s') : s'.updates[i]? = some (.failed fault) := by
  refine steps?_induction (motive := fun m => m.updates[i]? = some (.failed fault)) h (fun m e m' hm he => ?_) hs
  obtain ⟨new, hnew, rfl | next⟩ := (turn_of_step? he).1.update_stays hm
  · exact hnew
  · nomatch next

/-- An update that has fetched is on its way to the snapshot of its feed, whatever happens. -/
theorem onItsWay {u : Update} {events : List Event} (hu : s.updates[i]? = some u) (hmeets : s.Meets since feed u)
    (hcache : ∀ c, s.cache = some c → Cache.Reachable c.policy c.state)
    (hsince : ∀ c, s.cache = some c → since ≤ c.state.calls.length) (hs : s.steps? events = some s') :
    s'.OnItsWay i since feed := by
  have inv := steps?_induction (motive := fun m => (∃ u, m.updates[i]? = some u ∧ m.Meets since feed u) ∧
      (∀ c, m.cache = some c → Cache.Reachable c.policy c.state) ∧ ∀ c, m.cache = some c → since ≤ c.state.calls.length)
    ⟨⟨u, hu, hmeets⟩, hcache, hsince⟩ (fun m e m' hm he => ?_) hs
  · obtain ⟨⟨u, hu, hmeets⟩, hcache, hsince⟩ := inv
    refine ⟨⟨u, hu, hmeets⟩, fun s' hs' => ?_, fun e s' hs' hne => ?_, fun e s' hs' => hmeets.workLeft_step hu hs', ?_,
      hmeets.reaches hu hcache hsince⟩
    · obtain ⟨snapshot, hstamped, rfl⟩ := publish?_eq_some_iff.mp hs'
      exact ⟨snapshot, List.getElem?_set_self (List.getElem?_eq_some_iff.mp hstamped).1, rfl⟩
    · rcases snapshot_of_step? hs' with heq | ⟨j, _, rfl, -, -⟩
      · exact heq
      · exact absurd rfl (hne j)
    · rcases hmeets.progress hu hcache with ⟨snapshot, rfl⟩ | hstep | hwaits
      · exact Or.inl ⟨snapshot, hu⟩
      · exact Or.inr (Or.inl hstep)
      · exact Or.inr (Or.inr hwaits)
  · obtain ⟨⟨u, hu, hmeets⟩, hcache, hsince⟩ := hm
    have cturn := (turn_of_step? he).2
    exact ⟨hmeets.step hsince hu he, cturn.reachable hcache, cturn.since_le hsince⟩

/-- An update that fetches a feed goes on with it, with four steps to take for each item and three more. -/
theorem goes_on_of_fetched (hi : s.updates[i]? = some .fetching)
    (hcache : ∀ c, s.cache = some c → Cache.Reachable c.policy c.state) :
    ∃ s', s.step? (.fetch i (.ok feed)) = some s' ∧ s'.snapshot = s.snapshot ∧ s'.workLeft i = 3 + 4 * feed.items.length ∧
      ∀ events s'', s'.steps? events = some s'' → s''.OnItsWay i ((s.cache.map (·.state.calls.length)).getD 0) feed := by
  have hu : (s.setUpdate i (.looking feed [])).updates[i]? = some (.looking feed []) :=
    List.getElem?_set_self (List.getElem?_eq_some_iff.mp hi).1
  refine ⟨_, fetch?_eq_some_iff.mpr ⟨hi, rfl⟩, rfl, ?_, fun events s'' hs'' => ?_⟩
  · simp only [workLeft, hu, Option.map_some, Option.getD_some, stepsLeft, callsLeft, List.map_nil, List.sum_nil,
      List.length_nil, Nat.sub_zero, Nat.add_zero]
  · refine onItsWay hu (meets_looking _ _ _) hcache (fun c hc => ?_) hs''
    have hc' : s.cache = some c := hc
    rw [hc']
    exact Nat.le_refl _

/-- A service with one channel and an image cache that is fetching. -/
def oneChannel : Service where
  settings := { VideoSettings.standard with channels := ["1"] }
  cache := some ⟨⟨10, "/", 1⟩, Cache.State.begun ⟨10, "/", 1⟩ .absent 0⟩
  clock := 0
  snapshot := some ⟨[], 1, ⟨0, 0⟩⟩
  updates := [.fetching]

/-- A network that answers every request with an archive of one video, in pieces. -/
def oneVideo : Http.Network :=
  fun _ => some ⟨200, ["\x7b\"code\":0,\"data\":\x7b\"item\":[", "\x7b\"title\":\"One\",\"bvid\":\"BV1\",\"ctime\":5\x7d",
    "]\x7d\x7d"].map (·.toUTF8.toList), true⟩

end ChannelWatch.Service
