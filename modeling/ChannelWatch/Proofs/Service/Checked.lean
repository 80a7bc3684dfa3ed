import ChannelWatch.Proofs.Feed.Reference
import ChannelWatch.Proofs.Service.Steps
import ChannelWatch.Service.Loop
import ChannelWatch.Service.Start
import ChannelWatch.Settings.Document

/-!
# Settings that pass the check

What settings that pass the check lead to (`Settings.dependable_of_check`): both loops start, every fetch job has sources and
workers, and an update fails only for want of content. The check knows no upper bound, though, and a pool of downloads has one:
settings that pass the check and ask for more permits than that make the start crash (`Settings.crashed_of_check`).
-/

namespace ChannelWatch

/-! ## The check -/

namespace Settings

variable {s : Settings}

/-- A chain of refusals that ends well has passed its first link. -/
theorem refuse_passed {c : Prop} [Decidable c] {key message : String} {rest : Except Fault Unit}
    (h : (if c then refuse key message else rest) = .ok ()) : ¬c ∧ rest = .ok () := by
  by_cases hc : c
  · rw [if_pos hc] at h
    nomatch h
  · rw [if_neg hc] at h
    exact ⟨hc, h⟩

/-- Settings that pass the check have a source, workers and intervals, and what a cache needs if they have one. -/
theorem of_check (h : s.check = .ok ()) : s.videos.sources ≠ [] ∧ s.videos.workers ≠ 0 ∧ s.videos.refreshInterval ≠ 0 ∧
    (s.cache.enabled = true → s.cache.sweepInterval ≠ 0 ∧ s.cache.ttl ≠ 0 ∧ s.cache.maxDownloads ≠ 0) := by
  unfold check at h
  obtain ⟨hsources, h⟩ := refuse_passed h
  obtain ⟨hworkers, h⟩ := refuse_passed h
  obtain ⟨hrefresh, h⟩ := refuse_passed h
  refine ⟨fun hnone => hsources ?_, hworkers, hrefresh, fun henabled => ?_⟩
  · simpa [VideoSettings.sources] using hnone
  · rw [if_neg (not_not_intro henabled)] at h
    obtain ⟨hsweep, h⟩ := refuse_passed h
    obtain ⟨httl, h⟩ := refuse_passed h
    exact ⟨hsweep, httl, (refuse_passed h).1⟩

end Settings

/-! ## Fetching -/

/-- There was nothing to show, if only because a request could not be built. -/
inductive Fault.LacksContent : Fault → Prop
  | empty : LacksContent .noContent
  | unbuilt (fault : NetworkFault) : LacksContent (.noContentBecause (.network fault))

namespace Feed

variable {v : VideoSettings}

/-- A list of results that can be read as a list of values has none else. -/
theorem eq_map_ok_of_mapM_id {α ε : Type} {l : List (Except ε α)} {values : List α} (h : l.mapM id = .ok values) :
    l = values.map .ok := by
  induction l generalizing values with
  | nil =>
    obtain rfl := Except.ok.inj h
    rfl
  | cons x l ih =>
    rw [List.mapM_cons] at h
    cases x with
    | error => nomatch h
    | ok a =>
      cases hl : l.mapM id with
      | error => rw [hl] at h; nomatch h
      | ok rest =>
        rw [hl] at h
        obtain rfl := Except.ok.inj h
        rw [ih hl]
        rfl

/-- A merge fails only for want of items. -/
theorem lacksContent_of_mergeOutcomes {now : Instant} {outcomes : List (Except Fault Payload)} {fault : Fault}
    (h : mergeOutcomes v now outcomes = .error fault) : fault.LacksContent := by
  unfold mergeOutcomes merge at h
  simp only at h
  split at h
  · obtain rfl := Except.error.inj h
    exact .empty
  · nomatch h

/-- With sources and workers, a cycle of fetching fails only for want of content. -/
theorem lacksContent_of_fetchEach (hsources : v.sources ≠ []) (hworkers : v.workers ≠ 0) {networks : Nat → Http.Network}
    {now : Instant} {fault : Fault} (h : fetchEach networks v now = .error fault) : fault.LacksContent := by
  cases hm : v.requests.mapM id with
  | ok requests =>
    rw [fetchEach_eq (eq_map_ok_of_mapM_id hm) hsources hworkers] at h
    exact lacksContent_of_mergeOutcomes h
  | error refused =>
    have hbuilt : builtRequests v = .error (.noContentBecause (.network refused)) := by rw [builtRequests, hm]
    rw [fetchEach, hbuilt] at h
    obtain rfl := Except.error.inj h
    exact .unbuilt refused

end Feed

/-! ## Updates -/

namespace Service

variable {s s' : Service} {v : VideoSettings}

/-- What a fetch of the event gives is what a cycle of fetching for the settings gives, whatever answers each request. -/
def Event.FetchesFor (v : VideoSettings) : Event → Prop
  | .fetch _ outcome => ∃ networks now, outcome = Feed.fetchEach networks v now
  | _ => True

/-- No update has failed but for want of content. -/
def LacksContentOnly (s : Service) : Prop :=
  ∀ fault, Update.failed fault ∈ s.updates → fault.LacksContent

/-- Updates that fetch for settings with sources and workers fail only for want of content. -/
theorem LacksContentOnly.step {e : Event} (h : s.LacksContentOnly) (hs : s.step? e = some s') (he : e.FetchesFor v)
    (hsources : v.sources ≠ []) (hworkers : v.workers ≠ 0) : s'.LacksContentOnly := by
  intro fault hmem
  cases (turn_of_step? hs).1 with
  | idle updates => exact h fault (updates ▸ hmem)
  | begin updates =>
    rw [updates, List.mem_append, List.mem_singleton] at hmem
    rcases hmem with hmem | hnew
    · exact h fault hmem
    · nomatch hnew
  | go i old new here next updates =>
    rw [updates] at hmem
    rcases List.mem_or_eq_of_mem_set hmem with hmem | rfl
    · exact h fault hmem
    · cases next with
      | fail =>
        obtain ⟨networks, now, houtcome⟩ := he
        exact Feed.lacksContent_of_fetchEach hsources hworkers houtcome.symm

/-- A run in which all fetches are for settings with sources and workers has no update fail but for want of content. -/
theorem LacksContentOnly.steps? {events : List Event} (h : s.LacksContentOnly) (hs : s.steps? events = some s')
    (he : ∀ e ∈ events, e.FetchesFor v) (hsources : v.sources ≠ []) (hworkers : v.workers ≠ 0) : s'.LacksContentOnly := by
  refine steps?_along (motive := fun es m => (∀ e ∈ es, e.FetchesFor v) → m.LacksContentOnly) (fun _ => h)
    (fun es m e m' _ ih hstep he => ?_) hs he
  exact (ih fun x hx => he x (List.mem_append_left _ hx)).step hstep (he e (by simp)) hsources hworkers

end Service

/-! ## Starting -/

namespace ImageCache

/-- A cache cannot be built exactly when its pool would be too large. -/
theorem build?_eq_none_iff {c : CacheSettings} {directory : Cache.Directory} {clock : Int} (hpool : c.maxDownloads ≠ 0) :
    build? c directory clock = none ↔ Cache.maxPermits < c.maxDownloads := by
  have hpermits : (Cache.Policy.ofSettings c).permits = c.maxDownloads :=
    Nat.max_eq_right (Nat.one_le_iff_ne_zero.mpr hpool)
  simp only [build?, hpermits]
  split <;> simp_all

end ImageCache

namespace Http

/-- A setting is refused as a header value with its own key. -/
theorem headerValue_eq_error {key value : String} {fault : Fault} (h : headerValue key value = .error fault) :
    fault = .config "invalid header value: failed to parse header value" (some key) := by
  unfold headerValue at h
  split at h
  · nomatch h
  · exact (Except.error.inj h).symm

/-- A client is made of settings whose two headers are in order. -/
theorem AssetClient.ofSettings_of_isHeaderValue {c : CacheSettings} (hreferer : isHeaderValue c.referer = true)
    (hagent : isHeaderValue c.userAgent = true) : ofSettings c = .ok ⟨c.downloadTimeout, c.userAgent, c.referer⟩ := by
  simp only [ofSettings, headerValue, hreferer, hagent, if_true]
  rfl

/-- A client is refused only for one of its two headers. -/
theorem AssetClient.ofSettings_eq_error {c : CacheSettings} {fault : Fault} (h : ofSettings c = .error fault) :
    ∃ key ∈ ["referer", "user_agent"], fault = .config "invalid header value: failed to parse header value" (some key) := by
  unfold ofSettings at h
  cases hreferer : headerValue "referer" c.referer with
  | error refused =>
    rw [hreferer] at h
    obtain rfl := Except.error.inj h
    exact ⟨"referer", by simp, headerValue_eq_error hreferer⟩
  | ok referer =>
    cases hagent : headerValue "user_agent" c.userAgent with
    | error refused =>
      rw [hreferer, hagent] at h
      obtain rfl := Except.error.inj h
      exact ⟨"user_agent", by simp, headerValue_eq_error hagent⟩
    | ok agent =>
      rw [hreferer, hagent] at h
      nomatch h

end Http

namespace Settings

variable {s : Settings} {directory : Cache.Directory} {clock : Int}

/-- Settings that pass the check make the start crash exactly if they want a cache, its headers are in order, and its pool would
be too large. -/
theorem crashed_iff (h : s.check = .ok ()) : (Service.start s directory clock).1 = .crashed ↔
    s.cache.enabled = true ∧ (∃ client, Http.AssetClient.ofSettings s.cache = .ok client) ∧
      Cache.maxPermits < s.cache.maxDownloads := by
  rw [Service.start, h]
  cases henabled : s.cache.enabled with
  | false => simp [Service.build]
  | true =>
    have hpool := ((of_check h).2.2.2 henabled).2.2
    cases hclient : Http.AssetClient.ofSettings s.cache with
    | error fault => simp
    | ok client =>
      rw [← @ImageCache.build?_eq_none_iff s.cache (directory.ensured clock) clock hpool]
      cases hbuild : ImageCache.build? s.cache (directory.ensured clock) clock <;> simp [Service.build, hbuild]

/-- Settings that pass the check are refused only for a header. -/
theorem refused_of_check (h : s.check = .ok ()) {fault : Fault} (hr : (Service.start s directory clock).1 = .refused fault) :
    ∃ key ∈ ["referer", "user_agent"], fault = .config "invalid header value: failed to parse header value" (some key) := by
  rw [Service.start, h] at hr
  cases henabled : s.cache.enabled with
  | false => simp [henabled, Service.build] at hr
  | true =>
    cases hclient : Http.AssetClient.ofSettings s.cache with
    | error refused =>
      simp only [henabled, hclient, if_true] at hr
      obtain rfl := Start.refused.inj hr
      exact Http.AssetClient.ofSettings_eq_error hclient
    | ok client =>
      cases hbuild : ImageCache.build? s.cache (directory.ensured clock) clock <;>
        simp [henabled, hclient, Service.build, hbuild] at hr

/-- A service that has just started has made no update. -/
theorem updates_of_ready {service : Service} (hr : (Service.start s directory clock).1 = .ready service) :
    service.updates = [] := by
  unfold Service.start at hr
  split at hr
  · nomatch hr
  · split at hr
    · split at hr
      · nomatch hr
      · simp only [Service.build] at hr
        split at hr
        · obtain rfl := Start.ready.inj hr
          rfl
        · nomatch hr
    · obtain rfl := Start.ready.inj hr
      rfl

/-- What can be said of a service with some settings, whatever lies under the path of its cache and whatever happens. -/
structure Dependable (s : Settings) : Prop where
  /-- Only a pool of downloads with more permits than there can be makes the start crash. -/
  crashed : ∀ directory clock, (Service.start s directory clock).1 = .crashed ↔ s.cache.enabled = true ∧
    (∃ client, Http.AssetClient.ofSettings s.cache = .ok client) ∧ Cache.maxPermits < s.cache.maxDownloads
  /-- The start is refused for a header alone. -/
  refused : ∀ directory clock fault, (Service.start s directory clock).1 = .refused fault →
    ∃ key ∈ ["referer", "user_agent"], fault = .config "invalid header value: failed to parse header value" (some key)
  refreshes : ∀ now cancelled, ∃ loop, Loop.start? s.videos.refreshInterval now cancelled = some loop
  sweeps : s.cache.enabled = true → ∀ now cancelled, ∃ loop, Loop.start? s.cache.sweepInterval now cancelled = some loop
  /-- The pool of a fetch job has a permit, and no more than there are sources. -/
  pool : 0 < Runner.slots s.videos.workers s.videos.sources.length ∧
    Runner.slots s.videos.workers s.videos.sources.length ≤ s.videos.sources.length
  /-- Any number of updates, whatever answers their requests and whatever happens meanwhile, fail only for want of content. -/
  updates : ∀ directory clock service events later, (Service.start s directory clock).1 = .ready service →
    (∀ e ∈ events, Service.Event.FetchesFor s.videos e) → service.steps? events = some later → later.LacksContentOnly

/-- Settings that pass the check, read from a text or made in any other way, can be depended on, but for the size of the pool of
downloads. -/
theorem dependable_of_check (h : s.check = .ok ()) : s.Dependable := by
  obtain ⟨hsources, hworkers, hrefresh, hcache⟩ := of_check h
  refine {
    crashed := fun _ _ => crashed_iff h
    refused := fun _ _ _ => refused_of_check h
    refreshes := fun _ _ => ⟨_, if_neg hrefresh⟩
    sweeps := fun henabled _ _ => ⟨_, if_neg (hcache henabled).1⟩
    pool := ⟨?_, Nat.min_le_right ..⟩
    updates := fun _ _ service events later hready he hs => ?_ }
  · exact Nat.lt_min.mpr ⟨Nat.pos_of_ne_zero hworkers, List.length_pos_iff.mpr hsources⟩
  · have hnone : service.LacksContentOnly := fun fault hmem => by rw [updates_of_ready hready] at hmem; nomatch hmem
    exact hnone.steps? hs he hsources hworkers

/-- The settings of a text with one channel can be depended on. -/
theorem dependable_of_check_one_channel : ∃ s, read? "\x7b\"videos\": \x7b\"channels\": [\"1\"]\x7d\x7d" = some s ∧
    s.check = .ok () ∧ s.Dependable :=
  ⟨{ standard with videos := { VideoSettings.standard with channels := ["1"] } }, by decide +kernel, by decide,
    dependable_of_check (by decide)⟩

/-- Settings can be read from a text, pass the check and make the start crash: their pool has one permit too many. -/
theorem crashed_of_check : ∃ s, read? ("\x7b\"videos\": \x7b\"channels\": [\"1\"]\x7d, " ++
      "\"cache\": \x7b\"max_concurrent_downloads\": 2305843009213693952\x7d\x7d") = some s ∧
    s.check = .ok () ∧ (Service.start s .absent 0).1 = .crashed := by
  refine ⟨{
    standard with
    videos := { VideoSettings.standard with channels := ["1"] }
    cache := { CacheSettings.standard with maxDownloads := 2305843009213693952 } }, by decide +kernel, by decide, ?_⟩
  have hclient := Http.AssetClient.ofSettings_of_isHeaderValue
    (c := { CacheSettings.standard with maxDownloads := 2305843009213693952 }) (by decide +kernel) (by decide +kernel)
  exact (crashed_iff (by decide)).mpr ⟨rfl, ⟨_, hclient⟩, by decide⟩

end Settings

end ChannelWatch
