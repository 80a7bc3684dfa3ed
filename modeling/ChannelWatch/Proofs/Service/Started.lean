import ChannelWatch.Proofs.Service.Checked

/-!
# A service starts whole or not at all

Settings have conditions in a fixed order (`Settings.conditions`). A start is ready exactly if all of them hold, and else it is
refused for the first one that does not, before anything is made on the disk (`Service.started_whole`). Those of the cache count
only with the cache on.
-/

namespace ChannelWatch

/-! ## Conditions and verdicts -/

/-- A condition on settings: the key and the words of its fault, and what it says. -/
structure Condition where
  key : String
  message : String
  Holds : Prop

/-- The fault of a condition that does not hold. -/
def Condition.fault (c : Condition) : Fault :=
  .config c.message (some c.key)

/-- The condition is the first one of a list that does not hold. -/
def Condition.IsFirstViolated (c : Condition) (conditions : List Condition) : Prop :=
  ∃ before after, conditions = before ++ c :: after ∧ (∀ b ∈ before, b.Holds) ∧ ¬c.Holds

/-- The verdict on a list of conditions: a pass if all hold, and else the fault of the first one that does not. -/
inductive Verdict {α : Type} : List Condition → Except Fault α → Prop
  | passed (value : α) : Verdict [] (.ok value)
  | held {c : Condition} {rest : List Condition} {v : Except Fault α} (holds : c.Holds) (h : Verdict rest v) :
      Verdict (c :: rest) v
  | violated {c : Condition} (rest : List Condition) (fails : ¬c.Holds) : Verdict (c :: rest) (.error c.fault)

namespace Verdict

variable {α β : Type} {conditions more : List Condition} {v : Except Fault α}

/-- A pass says that all conditions hold. -/
theorem holds_of_ok {value : α} (h : Verdict conditions (.ok value)) : ∀ c ∈ conditions, c.Holds := by
  generalize hv : Except.ok value = v at h
  induction h with
  | passed => exact List.forall_mem_nil _
  | held holds _ ih => exact List.forall_mem_cons.mpr ⟨holds, ih hv⟩
  | violated => nomatch hv

/-- A fault is that of the first condition that does not hold. -/
theorem exists_of_error {fault : Fault} (h : Verdict conditions (.error fault : Except Fault α)) :
    ∃ c : Condition, c.IsFirstViolated conditions ∧ fault = c.fault := by
  generalize hv : (Except.error fault : Except Fault α) = v at h
  induction h with
  | passed => nomatch hv
  | @held first _ _ holds _ ih =>
    obtain ⟨c, ⟨before, after, rfl, hbefore, hc⟩, hfault⟩ := ih hv
    exact ⟨c, ⟨first :: before, after, rfl, List.forall_mem_cons.mpr ⟨holds, hbefore⟩, hc⟩, hfault⟩
  | @violated c rest fails => exact ⟨c, ⟨[], rest, rfl, List.forall_mem_nil _, fails⟩, Except.error.inj hv⟩

/-- Conditions that all hold are passed. -/
theorem of_forall (h : ∀ c ∈ conditions, c.Holds) (value : α) : Verdict conditions (.ok value) := by
  induction conditions with
  | nil => exact .passed value
  | cons c conditions ih =>
    obtain ⟨hc, hrest⟩ := List.forall_mem_cons.mp h
    exact .held hc (ih hrest)

/-- A refusal before a verdict adds its condition in front. -/
theorem refuse {c : Condition} {p : Prop} [Decidable p] {v : Except Fault Unit} (hc : c.Holds ↔ ¬p) (h : Verdict conditions v) :
    Verdict (c :: conditions) (if p then Settings.refuse c.key c.message else v) := by
  by_cases hp : p
  · rw [if_pos hp]
    exact .violated conditions fun holds => hc.mp holds hp
  · rw [if_neg hp]
    exact .held (hc.mpr hp) h

/-- What is done after a pass adds its conditions at the end. -/
theorem bind {f : α → Except Fault β} (h : Verdict conditions v) (hmore : ∀ value, v = .ok value → Verdict more (f value)) :
    Verdict (conditions ++ more) (v >>= f) := by
  induction h with
  | passed value => exact hmore value rfl
  | held holds _ ih => exact .held holds (ih hmore)
  | violated rest fails => exact .violated (rest ++ more) fails

end Verdict

/-! ## The conditions of settings -/

/-- The text may stand in a header: tabs apart, it has no control characters. -/
def Http.IsHeaderText (value : String) : Prop :=
  ∀ c ∈ value.toList, c = '\t' ∨ 0x20 ≤ c.toNat ∧ c.toNat ≠ 0x7F

namespace Settings

/-- The conditions on settings as such. -/
def checkedConditions (s : Settings) : List Condition := [
  ⟨"channels", "at least one channel or playlist is required", s.videos.channels ≠ [] ∨ s.videos.playlists ≠ []⟩,
  ⟨"workers", "workers must be at least 1", s.videos.workers ≠ 0⟩,
  ⟨"refresh_interval", "refresh_interval must be greater than zero", s.videos.refreshInterval ≠ 0⟩,
  ⟨"sweep_interval", "sweep_interval must be greater than zero", s.cache.enabled = true → s.cache.sweepInterval ≠ 0⟩,
  ⟨"ttl", "cache ttl must be greater than zero", s.cache.enabled = true → s.cache.ttl ≠ 0⟩,
  ⟨"max_concurrent_downloads", "max_concurrent_downloads must be at least 1",
    s.cache.enabled = true → s.cache.maxDownloads ≠ 0⟩]

/-- The conditions on the headers that images are asked for with. -/
def headerConditions (s : Settings) : List Condition := [
  ⟨"referer", "invalid header value: failed to parse header value", s.cache.enabled = true → Http.IsHeaderText s.cache.referer⟩,
  ⟨"user_agent", "invalid header value: failed to parse header value",
    s.cache.enabled = true → Http.IsHeaderText s.cache.userAgent⟩]

/-- All conditions on settings in the order in which they are looked at. -/
def conditions (s : Settings) : List Condition :=
  s.checkedConditions ++ s.headerConditions

/-- What is looked at before anything is made: the settings as such, and the headers of a cache. -/
def screened (s : Settings) : Except Fault Unit := do
  s.check
  if s.cache.enabled then discard (Http.AssetClient.ofSettings s.cache)

/-- The check is a verdict on the settings as such. -/
theorem verdict_check (s : Settings) : Verdict s.checkedConditions s.check := by
  unfold check checkedConditions
  refine .refuse ?_ (.refuse Iff.rfl (.refuse Iff.rfl ?_))
  · simp only [List.isEmpty_iff, not_and_or, ne_eq]
  · cases henabled : s.cache.enabled with
    | false =>
      rw [if_pos Bool.false_ne_true]
      exact .of_forall (by simp) ()
    | true =>
      rw [if_neg (not_not_intro rfl)]
      refine .refuse ?_ (.refuse ?_ (.refuse ?_ (.passed ()))) <;> simp

/-- Whether a text may be a header value is a verdict. -/
theorem verdict_headerValue (c : Condition) {value : String} (hc : c.Holds ↔ Http.IsHeaderText value)
    (hmessage : c.message = "invalid header value: failed to parse header value") :
    Verdict [c] (Http.headerValue c.key value) := by
  have htext : Http.isHeaderValue value = true ↔ c.Holds := by
    simp [hc, Http.isHeaderValue, Http.IsHeaderText]
  unfold Http.headerValue
  rw [← hmessage]
  by_cases hvalue : Http.isHeaderValue value = true
  · rw [if_pos hvalue]
    exact .held (htext.mp hvalue) (.passed value)
  · rw [if_neg hvalue]
    exact .violated [] fun holds => hvalue (htext.mpr holds)

/-- The headers of a cache are looked at one after the other. -/
theorem verdict_headers {s : Settings} (henabled : s.cache.enabled = true) :
    Verdict s.headerConditions (discard (Http.AssetClient.ofSettings s.cache)) := by
  have hsteps : discard (Http.AssetClient.ofSettings s.cache) =
      (Http.headerValue "referer" s.cache.referer >>= fun _ =>
        Http.headerValue "user_agent" s.cache.userAgent >>= fun _ => Except.ok ()) := by
    unfold Http.AssetClient.ofSettings
    cases Http.headerValue "referer" s.cache.referer with
    | error fault => rfl
    | ok referer => cases Http.headerValue "user_agent" s.cache.userAgent <;> rfl
  rw [hsteps]
  unfold headerConditions
  change Verdict ([_] ++ ([_] ++ [])) _
  refine .bind (verdict_headerValue _ ?_ rfl) fun _ _ => .bind (verdict_headerValue _ ?_ rfl) fun _ _ => .passed ()
  · simp [henabled]
  · simp [henabled]

/-- What is looked at before anything is made is a verdict on all conditions. -/
theorem verdict_screened (s : Settings) : Verdict s.conditions s.screened := by
  refine .bind s.verdict_check fun _ _ => ?_
  cases henabled : s.cache.enabled with
  | false => exact .of_forall (by simp [headerConditions, henabled]) ()
  | true => exact verdict_headers henabled

end Settings

/-! ## Starting -/

/-- The directory once it has been made: nothing changes if it is there, or if something is in its way. -/
def Cache.Directory.made : Directory → Directory
  | absent => present []
  | present entries => present entries
  | obstructed => obstructed

/-- Making sure of a directory makes it if it is missing, and changes nothing else. -/
theorem Cache.Directory.ensured_eq_made (d : Directory) (now : Int) : d.ensured now = d.made := by
  cases d <;> rfl

namespace Service

variable {s : Settings}

/-- The directory under the path of the cache after a service was built. -/
def directoryBuilt (s : Settings) (directory : Cache.Directory) : Cache.Directory :=
  if s.cache.enabled then directory.made else directory

/-- What comes of a start is decided by what is looked at before: a fault leaves everything as it is, and after a pass the service
is built. -/
theorem start_eq (s : Settings) (directory : Cache.Directory) (clock : Int) : start s directory clock =
    match s.screened with
    | .error fault => (.refused fault, directory)
    | .ok () => (build s.videos (if s.cache.enabled then some s.cache else none) (directoryBuilt s directory) clock,
        directoryBuilt s directory) := by
  unfold start Settings.screened directoryBuilt
  cases hcheck : s.check with
  | error fault => rfl
  | ok _ =>
    cases henabled : s.cache.enabled with
    | false => rfl
    | true =>
      cases hclient : Http.AssetClient.ofSettings s.cache with
      | error fault => rfl
      | ok client =>
        simp only [if_true, Cache.Directory.ensured_eq_made]
        rfl

/-- A service is built if its pool is not too large: it has a cache exactly if there are settings for one, and nothing has happened
to it yet. -/
theorem exists_built (hpool : s.cache.maxDownloads ≤ Cache.maxPermits) (directory : Cache.Directory) (clock : Int) :
    ∃ service, build s.videos (if s.cache.enabled then some s.cache else none) directory clock = .ready service ∧
      service.cache.isSome = s.cache.enabled ∧ (∀ c, service.cache = some c → c.state.inFlight = 0) ∧
      service.snapshot = none ∧ service.updates = [] := by
  cases s.cache.enabled with
  | false => exact ⟨_, rfl, rfl, fun c hc => (nomatch hc), rfl, rfl⟩
  | true =>
    have hpermits : ¬Cache.maxPermits < (Cache.Policy.ofSettings s.cache).permits :=
      Nat.not_lt.mpr (Nat.max_le.mpr ⟨by decide, hpool⟩)
    simp only [build, ImageCache.build?, if_neg hpermits, if_true]
    exact ⟨_, rfl, rfl, fun c hc => Option.some.inj hc ▸ rfl, rfl, rfl⟩

/-- A start from settings, over what lies under the path of the cache, is all or nothing. -/
structure StartsWhole (s : Settings) (directory : Cache.Directory) (clock : Int) : Prop where
  /-- The start is ready exactly if all conditions hold, whatever lies under the path. -/
  ready : (∃ service, (start s directory clock).1 = .ready service) ↔ ∀ c ∈ s.conditions, c.Holds
  /-- Else it is refused with the fault of the first one that does not, and nothing has been made. -/
  refused : (¬∀ c ∈ s.conditions, c.Holds) → ∃ c : Condition, c.IsFirstViolated s.conditions ∧
    start s directory clock = (.refused (.config c.message (some c.key)), directory)
  /-- A service that is ready has a cache exactly if the settings want one, nothing is in flight, and nothing else has happened; the
  directory of a cache has been made if it was missing, and does no harm if it cannot be. -/
  built : ∀ service, (start s directory clock).1 = .ready service →
    service.cache.isSome = s.cache.enabled ∧ (∀ c, service.cache = some c → c.state.inFlight = 0) ∧
      service.snapshot = none ∧ service.updates = [] ∧
      (start s directory clock).2 = if s.cache.enabled then directory.made else directory

/-- Settings whose pool is not too large lead to a service that starts whole, or to nothing at all. -/
theorem started_whole (hpool : s.cache.maxDownloads ≤ Cache.maxPermits) (directory : Cache.Directory) (clock : Int) :
    StartsWhole s directory clock := by
  have hverdict := s.verdict_screened
  have hstart := start_eq s directory clock
  obtain ⟨service, hbuilt, hwhole⟩ := exists_built hpool (directoryBuilt s directory) clock
  cases hscreened : s.screened with
  | ok value =>
    rw [hscreened] at hverdict hstart
    have hall := hverdict.holds_of_ok
    have hready : start s directory clock = (.ready service, directoryBuilt s directory) := hstart.trans (by rw [hbuilt])
    refine ⟨⟨fun _ => hall, fun _ => ⟨service, by rw [hready]⟩⟩, fun hnot => absurd hall hnot, fun other hother => ?_⟩
    rw [hready] at hother ⊢
    obtain rfl := Start.ready.inj hother
    exact ⟨hwhole.1, hwhole.2.1, hwhole.2.2.1, hwhole.2.2.2, rfl⟩
  | error fault =>
    rw [hscreened] at hverdict hstart
    obtain ⟨c, hfirst, rfl⟩ := hverdict.exists_of_error
    have hnot : ¬∀ c ∈ s.conditions, c.Holds := by
      obtain ⟨before, after, hconditions, -, hc⟩ := hfirst
      intro hall
      exact hc (hall c (by simp [hconditions]))
    have hnever : ∀ other, (start s directory clock).1 ≠ .ready other := fun other hother => by
      rw [hstart] at hother
      nomatch hother
    exact ⟨⟨fun ⟨other, hother⟩ => absurd hother (hnever other), fun hall => absurd hall hnot⟩, fun _ => ⟨c, hfirst, hstart⟩,
      fun other hother => absurd hother (hnever other)⟩

/-- Settings with one channel whose cache would never be swept and asks for images with a referer that is no header value. -/
def twiceAtFault : Settings :=
  { Settings.standard with
    videos := { VideoSettings.standard with channels := ["42"] }
    cache := { CacheSettings.standard with sweepInterval := 0, referer := "a\nb" } }

/-- The same settings with their cache off. -/
def withoutCache : Settings :=
  { twiceAtFault with cache := { twiceAtFault.cache with enabled := false } }

/-- Of two faults of a cache the first one is told and no directory is made; with the cache off neither counts. -/
theorem started_whole_despite_cache :
    (twiceAtFault.cache.maxDownloads ≤ Cache.maxPermits ∧ StartsWhole twiceAtFault .absent 0 ∧
      start twiceAtFault .absent 0 =
        (.refused (.config "sweep_interval must be greater than zero" (some "sweep_interval")), .absent)) ∧
    withoutCache.cache.maxDownloads ≤ Cache.maxPermits ∧
      ∃ service, (start withoutCache .obstructed 0).1 = .ready service ∧ service.cache.isSome = false := by
  have hpool : twiceAtFault.cache.maxDownloads ≤ Cache.maxPermits := by decide
  have hsame : withoutCache.cache.maxDownloads ≤ Cache.maxPermits := by decide
  have hoff : ∀ c ∈ withoutCache.conditions, c.Holds := by
    simp [withoutCache, twiceAtFault, Settings.conditions, Settings.checkedConditions, Settings.headerConditions,
      Settings.standard, VideoSettings.standard, defaultWorkers]
  have hwhole := started_whole hsame .obstructed 0
  obtain ⟨service, hready⟩ := hwhole.ready.mpr hoff
  exact ⟨⟨hpool, started_whole hpool .absent 0, rfl⟩, hsame, service, hready, (hwhole.built service hready).1⟩

end Service

end ChannelWatch
