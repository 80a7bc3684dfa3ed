import ChannelWatch.Proofs.Cache.Runs
import ChannelWatch.Service.Step
import Mathlib.Data.List.Induction

/-!
# Steps of a service

What one step does to the updates (`Service.Turn`), to the cache (`Service.CacheTurn`) and to the snapshot, and the runs of a
service. The cache of a service goes on by its own steps alone, so what holds in every state that a cache can come to holds of
the cache of a service.
-/

namespace ChannelWatch

variable {s s' : Service} {e : Service.Event} {i : Nat}

/-- An update goes on from one stage to the next by an event of its own. -/
inductive Update.Next (s : Service) (i : Nat) : Service.Event → Update → Update → Prop
  | fetch (feed : MergedFeed) : Next s i (.fetch i (.ok feed)) .fetching (.looking feed [])
  | fail (fault : Fault) : Next s i (.fetch i (.error fault)) .fetching (.failed fault)
  | look (feed : MergedFeed) (calls : List Nat) (item : VideoItem) (c : ImageCache) (cached : s.cache = some c)
      (next : feed.items[calls.length]? = some item) :
      Next s i (.look i) (.looking feed calls) (.looking feed (calls ++ [c.state.calls.length]))
  | gather (feed : MergedFeed) (calls : List Nat) (refs : List ImageRef)
      (answered : s.references? feed.items calls = some refs) :
      Next s i (.gather i) (.looking feed calls) (.gathered (List.zipWith FeedEntry.mk feed.items refs) feed.failedSources)
  | stamp (entries : List FeedEntry) (failed : Nat) :
      Next s i (.stamp i) (.gathered entries failed) (.stamped ⟨entries, failed, Instant.ofNanos s.clock⟩)
  | publish (snapshot : Snapshot) : Next s i (.publish i) (.stamped snapshot) (.published snapshot)

namespace Service

/-! ## One step -/

/-- The cache of a service does something exactly when it can; time passes for the whole service only. -/
theorem cacheStep?_eq_some_iff {ce : Cache.Event} : s.cacheStep? ce = some s' ↔
    ∃ c state, s.cache = some c ∧ (∀ nanos, ce ≠ .tick nanos) ∧ c.state.step? c.policy ce = some state ∧
      s' = s.setCache state := by
  constructor
  · intro h
    cases hc : s.cache with
    | none => cases ce <;> simp [cacheStep?, hc] at h
    | some c =>
      cases ce with
      | tick nanos => nomatch h
      | _ =>
        simp only [cacheStep?, hc] at h
        obtain ⟨state, hs, rfl⟩ := Option.map_eq_some_iff.mp h
        exact ⟨c, state, rfl, nofun, hs, rfl⟩
  · rintro ⟨c, state, hc, hne, hs, rfl⟩
    cases ce with
    | tick nanos => exact absurd rfl (hne nanos)
    | _ => simp [cacheStep?, hc, hs]

/-- A fetch ends for an update that fetches. -/
theorem fetch?_eq_some_iff {outcome : Except Fault MergedFeed} : s.fetch? i outcome = some s' ↔
    s.updates[i]? = some .fetching ∧ s' = s.setUpdate i (match outcome with
      | .ok feed => .looking feed []
      | .error fault => .failed fault) := by
  unfold fetch?
  constructor
  · intro h
    split at h
    · rename_i feed hu
      exact ⟨hu, (Option.some.inj h).symm⟩
    · rename_i fault hu
      exact ⟨hu, (Option.some.inj h).symm⟩
    · nomatch h
  · rintro ⟨hu, rfl⟩
    cases outcome <;> simp [hu]

/-- An update asks for the image of its next item if there is one, and a cache. -/
theorem look?_eq_some_iff : s.look? i = some s' ↔ ∃ feed calls item c, s.updates[i]? = some (.looking feed calls) ∧
    s.cache = some c ∧ feed.items[calls.length]? = some item ∧
    s' = (s.setCache (c.state.beginCall c.policy .resolve item.imageUrl)).setUpdate i
      (.looking feed (calls ++ [c.state.calls.length])) := by
  unfold look?
  constructor
  · intro h
    split at h
    · rename_i feed calls c hu hc
      split at h
      · rename_i item hi
        refine ⟨feed, calls, item, c, hu, hc, hi, ?_⟩
        rw [← Option.some.inj h, setCache, hc]
        rfl
      · nomatch h
    · nomatch h
  · rintro ⟨feed, calls, item, c, hu, hc, hi, rfl⟩
    simp [hu, hc, hi, setCache]

/-- An update gathers the references when it has them. -/
theorem gather?_eq_some_iff : s.gather? i = some s' ↔ ∃ feed calls refs, s.updates[i]? = some (.looking feed calls) ∧
    s.references? feed.items calls = some refs ∧
    s' = s.setUpdate i (.gathered (List.zipWith FeedEntry.mk feed.items refs) feed.failedSources) := by
  unfold gather?
  constructor
  · intro h
    split at h
    · rename_i feed calls hu
      obtain ⟨refs, hr, rfl⟩ := Option.map_eq_some_iff.mp h
      exact ⟨feed, calls, refs, hu, hr, rfl⟩
    · nomatch h
  · rintro ⟨feed, calls, refs, hu, hr, rfl⟩
    simp [hu, hr]

/-- An update with all its references reads the clock. -/
theorem stamp?_eq_some_iff : s.stamp? i = some s' ↔ ∃ entries failed, s.updates[i]? = some (.gathered entries failed) ∧
    s' = s.setUpdate i (.stamped ⟨entries, failed, Instant.ofNanos s.clock⟩) := by
  unfold stamp?
  constructor
  · intro h
    split at h
    · rename_i entries failed hu
      exact ⟨entries, failed, hu, (Option.some.inj h).symm⟩
    · nomatch h
  · rintro ⟨entries, failed, hu, rfl⟩
    simp [hu]

/-- An update with its snapshot publishes it. -/
theorem publish?_eq_some_iff : s.publish? i = some s' ↔ ∃ snapshot, s.updates[i]? = some (.stamped snapshot) ∧
    s' = { s.setUpdate i (.published snapshot) with snapshot := some snapshot } := by
  unfold publish?
  constructor
  · intro h
    split at h
    · rename_i snapshot hu
      exact ⟨snapshot, hu, (Option.some.inj h).symm⟩
    · nomatch h
  · rintro ⟨snapshot, hu, rfl⟩
    simp [hu]

/-! ## What a step does -/

/-- What a step does to the updates: nothing, one begins, or one goes on. -/
inductive Turn (s : Service) : Event → Service → Prop
  | idle {e : Event} {s' : Service} (updates : s'.updates = s.updates) : Turn s e s'
  | begin {s' : Service} (updates : s'.updates = s.updates ++ [.fetching]) : Turn s .update s'
  | go {e : Event} {s' : Service} (i : Nat) (old new : Update) (here : s.updates[i]? = some old)
      (next : Update.Next s i e old new) (updates : s'.updates = s.updates.set i new) : Turn s e s'

/-- What a step does to the cache: nothing, or the cache takes a step of its own. -/
inductive CacheTurn (s : Service) : Service → Prop
  | idle {s' : Service} (cache : s'.cache = s.cache) : CacheTurn s s'
  | go {s' : Service} (c : ImageCache) (ce : Cache.Event) (state : Cache.State) (here : s.cache = some c)
      (step : c.state.step? c.policy ce = some state) (cache : s'.cache = some ⟨c.policy, state⟩) : CacheTurn s s'

theorem cache_setCache {c : ImageCache} (hc : s.cache = some c) (state : Cache.State) :
    (s.setCache state).cache = some ⟨c.policy, state⟩ := by
  rw [setCache, hc]
  rfl

/-- Every step takes its turn with the updates and with the cache. -/
theorem turn_of_step? (h : s.step? e = some s') : Turn s e s' ∧ CacheTurn s s' := by
  cases e with
  | tick nanos =>
    obtain rfl := Option.some.inj h
    refine ⟨.idle rfl, ?_⟩
    cases hc : s.cache with
    | none => exact .idle (by simp [tick, hc])
    | some c => exact .go c (.tick nanos) _ hc rfl (by simp [tick, hc])
  | cache ce =>
    obtain ⟨c, state, hc, -, hs, rfl⟩ := cacheStep?_eq_some_iff.mp h
    exact ⟨.idle rfl, .go c ce state hc hs (cache_setCache hc state)⟩
  | update =>
    obtain rfl := Option.some.inj h
    exact ⟨.begin rfl, .idle rfl⟩
  | fetch i outcome =>
    obtain ⟨hu, rfl⟩ := fetch?_eq_some_iff.mp h
    cases outcome with
    | ok feed => exact ⟨.go i .fetching _ hu (.fetch feed) rfl, .idle rfl⟩
    | error fault => exact ⟨.go i .fetching _ hu (.fail fault) rfl, .idle rfl⟩
  | look i =>
    obtain ⟨feed, calls, item, c, hu, hc, hi, rfl⟩ := look?_eq_some_iff.mp h
    exact ⟨.go i _ _ hu (.look feed calls item c hc hi) rfl,
      .go c (.call .resolve item.imageUrl) _ hc rfl (cache_setCache hc _)⟩
  | gather i =>
    obtain ⟨feed, calls, refs, hu, hr, rfl⟩ := gather?_eq_some_iff.mp h
    exact ⟨.go i _ _ hu (.gather feed calls refs hr) rfl, .idle rfl⟩
  | stamp i =>
    obtain ⟨entries, failed, hu, rfl⟩ := stamp?_eq_some_iff.mp h
    exact ⟨.go i _ _ hu (.stamp entries failed) rfl, .idle rfl⟩
  | publish i =>
    obtain ⟨snapshot, hu, rfl⟩ := publish?_eq_some_iff.mp h
    exact ⟨.go i _ _ hu (.publish snapshot) rfl, .idle rfl⟩

/-- The snapshot changes only when an update publishes, and then it is that of the update. -/
theorem snapshot_of_step? (h : s.step? e = some s') : s'.snapshot = s.snapshot ∨
    ∃ i snapshot, e = .publish i ∧ s.updates[i]? = some (.stamped snapshot) ∧ s'.snapshot = some snapshot := by
  cases e with
  | tick | update =>
    obtain rfl := Option.some.inj h
    exact Or.inl rfl
  | cache ce =>
    obtain ⟨_, _, -, -, -, rfl⟩ := cacheStep?_eq_some_iff.mp h
    exact Or.inl rfl
  | fetch i outcome =>
    obtain ⟨-, rfl⟩ := fetch?_eq_some_iff.mp h
    exact Or.inl rfl
  | look i =>
    obtain ⟨_, _, _, _, -, -, -, rfl⟩ := look?_eq_some_iff.mp h
    exact Or.inl rfl
  | gather i =>
    obtain ⟨_, _, _, -, -, rfl⟩ := gather?_eq_some_iff.mp h
    exact Or.inl rfl
  | stamp i =>
    obtain ⟨_, _, -, rfl⟩ := stamp?_eq_some_iff.mp h
    exact Or.inl rfl
  | publish i =>
    obtain ⟨snapshot, hu, rfl⟩ := publish?_eq_some_iff.mp h
    exact Or.inr ⟨i, snapshot, rfl, hu, rfl⟩

/-- An update stays in its place, and its stage changes only by an event of its own. -/
theorem Turn.update_stays (t : Turn s e s') {old : Update} (h : s.updates[i]? = some old) :
    ∃ new, s'.updates[i]? = some new ∧ (new = old ∨ Update.Next s i e old new) := by
  cases t with
  | idle updates => exact ⟨old, by rw [updates, h], Or.inl rfl⟩
  | begin updates =>
    refine ⟨old, ?_, Or.inl rfl⟩
    have hne : i ≠ s.updates.length := Nat.ne_of_lt (List.getElem?_eq_some_iff.mp h).1
    rw [updates, getElem?_append_singleton, if_neg hne, h]
  | go j here new hj next updates =>
    rw [updates, getElem?_set_of_eq_some hj]
    by_cases hi : i = j
    · subst hi
      obtain rfl := Option.some.inj (h.symm.trans hj)
      exact ⟨new, if_pos rfl, Or.inr next⟩
    · exact ⟨old, by rw [if_neg hi, h], Or.inl rfl⟩

/-- A service gets no cache, and loses none, by a step. -/
theorem CacheTurn.cache_isSome (t : CacheTurn s s') : s'.cache.isSome = s.cache.isSome := by
  cases t with
  | idle cache => rw [cache]
  | go c ce state here _ cache => rw [cache, here]; rfl

/-- The cache of a service stays, and its state is the same or one step further. -/
theorem CacheTurn.cache_stays (t : CacheTurn s s') {c : ImageCache} (h : s.cache = some c) :
    ∃ state, s'.cache = some ⟨c.policy, state⟩ ∧ (state = c.state ∨ ∃ ce, c.state.step? c.policy ce = some state) := by
  cases t with
  | idle cache => exact ⟨c.state, cache.trans h, Or.inl rfl⟩
  | go c' ce state here step cache =>
    obtain rfl := Option.some.inj (h.symm.trans here)
    exact ⟨state, cache, Or.inr ⟨ce, step⟩⟩

/-- The cache takes its steps by events of its own, but that time passes for the whole service and updates make calls. -/
theorem cache_of_step? {c : ImageCache} (h : s.step? e = some s') (hc : s.cache = some c) :
    ∃ state, s'.cache = some ⟨c.policy, state⟩ ∧ (state = c.state ∨ ∃ ce, c.state.step? c.policy ce = some state ∧
      (e = .cache ce ∨ (∃ nanos, ce = .tick nanos) ∨ ∃ purpose url, ce = .call purpose url)) := by
  -- an event of an update other than `look` leaves the cache alone
  have idle : s'.cache = s.cache → ∃ state, s'.cache = some ⟨c.policy, state⟩ ∧ (state = c.state ∨
      ∃ ce, c.state.step? c.policy ce = some state ∧
        (e = .cache ce ∨ (∃ nanos, ce = .tick nanos) ∨ ∃ purpose url, ce = .call purpose url)) :=
    fun heq => ⟨c.state, heq.trans hc, Or.inl rfl⟩
  cases e with
  | tick nanos =>
    obtain rfl := Option.some.inj h
    exact ⟨_, by simp [tick, hc], Or.inr ⟨.tick nanos, rfl, Or.inr (Or.inl ⟨nanos, rfl⟩)⟩⟩
  | cache ce =>
    obtain ⟨c', state, hc', -, hs, rfl⟩ := cacheStep?_eq_some_iff.mp h
    obtain rfl := Option.some.inj (hc.symm.trans hc')
    exact ⟨state, cache_setCache hc state, Or.inr ⟨ce, hs, Or.inl rfl⟩⟩
  | look i =>
    obtain ⟨_, _, item, c', _, hc', _, rfl⟩ := look?_eq_some_iff.mp h
    obtain rfl := Option.some.inj (hc.symm.trans hc')
    exact ⟨_, cache_setCache hc _, Or.inr ⟨.call .resolve item.imageUrl, rfl, Or.inr (Or.inr ⟨_, _, rfl⟩)⟩⟩
  | update =>
    obtain rfl := Option.some.inj h
    exact idle rfl
  | fetch i outcome =>
    obtain ⟨-, rfl⟩ := fetch?_eq_some_iff.mp h
    exact idle rfl
  | gather i =>
    obtain ⟨_, _, _, -, -, rfl⟩ := gather?_eq_some_iff.mp h
    exact idle rfl
  | stamp i =>
    obtain ⟨_, _, -, rfl⟩ := stamp?_eq_some_iff.mp h
    exact idle rfl
  | publish i =>
    obtain ⟨_, -, rfl⟩ := publish?_eq_some_iff.mp h
    exact idle rfl

/-! ## Runs -/

/-- What holds before a run and is kept by each of its steps holds after it. -/
theorem steps?_induction {motive : Service → Prop} (start : motive s)
    (step : ∀ m e m', motive m → m.step? e = some m' → motive m') {es : List Event} (h : s.steps? es = some s') :
    motive s' := by
  induction es generalizing s with
  | nil =>
    obtain rfl := Option.some.inj h
    exact start
  | cons e es ih =>
    obtain ⟨m, hm, hes⟩ := Option.bind_eq_some_iff.mp h
    exact ih (step s e m start hm) hes

/-- A run of two lists of events is a run of the first and then one of the second. -/
theorem steps?_append (s : Service) (es fs : List Event) :
    s.steps? (es ++ fs) = (s.steps? es).bind fun m => m.steps? fs := by
  induction es generalizing s with
  | nil => rfl
  | cons e es ih =>
    simp only [List.cons_append, steps?]
    cases s.step? e with
    | none => rfl
    | some m => exact ih m

theorem steps?_trans {m : Service} {es fs : List Event} (h : s.steps? es = some m) (h' : m.steps? fs = some s') :
    s.steps? (es ++ fs) = some s' := by
  rw [steps?_append, h, Option.bind_some, h']

theorem steps?_singleton (h : s.step? e = some s') : s.steps? [e] = some s' := by
  rw [steps?, h]
  rfl

/-- A run of the cache in which no time passes is one of the service. -/
theorem steps?_cache {c : ImageCache} {ces : List Cache.Event} {state : Cache.State} (hc : s.cache = some c)
    (hces : ∀ ce ∈ ces, ∀ nanos, ce ≠ .tick nanos) (hs : c.state.steps? c.policy ces = some state) :
    s.steps? (ces.map .cache) = some (s.setCache state) := by
  induction ces generalizing s c with
  | nil =>
    obtain rfl := Option.some.inj hs
    rw [setCache, hc, Option.map_some, ← hc]
    rfl
  | cons ce ces ih =>
    obtain ⟨m, hm, hs⟩ := Option.bind_eq_some_iff.mp hs
    have hstep : s.step? (.cache ce) = some (s.setCache m) :=
      cacheStep?_eq_some_iff.mpr ⟨c, m, hc, hces ce List.mem_cons_self, hm, rfl⟩
    have hrest := ih (cache_setCache hc m) (fun x hx => hces x (List.mem_cons_of_mem ce hx)) hs
    rw [List.map_cons, steps?, hstep, Option.bind_some, hrest]
    simp [setCache, hc]

theorem steps?_snoc_iff {es : List Event} :
    s.steps? (es ++ [e]) = some s' ↔ ∃ m, s.steps? es = some m ∧ m.step? e = some s' := by
  rw [steps?_append, Option.bind_eq_some_iff]
  simp [steps?]

/-- What holds before a run and is kept by each of its steps holds after it, where what holds may speak about the events so
far. -/
theorem steps?_along {motive : List Event → Service → Prop} (nil : motive [] s)
    (snoc : ∀ es m e m', s.steps? es = some m → motive es m → m.step? e = some m' → motive (es ++ [e]) m')
    {es : List Event} (h : s.steps? es = some s') : motive es s' := by
  induction es using List.reverseRecOn generalizing s' with
  | nil =>
    obtain rfl := Option.some.inj h
    exact nil
  | append_singleton es e ih =>
    obtain ⟨m, hm, he⟩ := steps?_snoc_iff.mp h
    exact snoc es m e s' hm (ih hm) he

/-- In the course of a run from `s`, the event `e` happens in the state `m`. -/
def Happens (s : Service) (events : List Event) (m : Service) (e : Event) : Prop :=
  ∃ before after, events = before ++ e :: after ∧ s.steps? before = some m

theorem Happens.append {m : Service} {es : List Event} (h : s.Happens es m e) (fs : List Event) :
    s.Happens (es ++ fs) m e := by
  obtain ⟨before, after, rfl, hm⟩ := h
  exact ⟨before, after ++ fs, by simp, hm⟩

theorem happens_last {m : Service} {es : List Event} (h : s.steps? es = some m) : s.Happens (es ++ [e]) m e :=
  ⟨es, [], rfl, h⟩

theorem happens_snoc {m : Service} {es : List Event} {f : Event} (h : s.Happens (es ++ [f]) m e) :
    s.Happens es m e ∨ e = f ∧ s.steps? es = some m := by
  obtain ⟨before, after, heq, hm⟩ := h
  rcases append_singleton_eq_append_cons heq with ⟨rest, rfl⟩ | ⟨rfl, rfl⟩
  · exact Or.inl ⟨before, rest, rfl, hm⟩
  · exact Or.inr ⟨rfl, hm⟩

end Service

end ChannelWatch
