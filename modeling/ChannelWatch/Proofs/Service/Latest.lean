import ChannelWatch.Proofs.Json.Record
import ChannelWatch.Proofs.Service.Published

/-!
# The latest snapshot is shown

What the service answers to a request for its videos: a report that there is no content until an update succeeds, and from then
on the snapshot that the last update to succeed has returned, whatever else the service does and whatever is asked of it.
-/

namespace ChannelWatch

/-! ## How a snapshot is shown -/

namespace Api

/-- The state of the image of an item that is shown. -/
def shownState? (item : Json) : Option String :=
  match item.fields? ["thumbnail"] with
  | some [some image] =>
    match image.fields? ["state"] with
    | some [some state] => state.asText?
    | _ => none
  | _ => none

/-- An item is shown with the state of its image. -/
theorem shownState?_toJson (entry : FeedEntry) : shownState? entry.toJson = some entry.image.state := by
  have hitem : entry.toJson.fields? ["thumbnail"] = some [some entry.image.toJson] := by
    simp [FeedEntry.toJson, FeedEntry.members, VideoItem.members, Json.fields?_record, Json.member?]
  have himage : entry.image.toJson.fields? ["state"] = some [some (.text entry.image.state)] := by
    rw [ImageRef.toJson, Json.fields?_record]
    cases entry.image <;> simp [ImageRef.members, Json.member?]
  simp only [shownState?, hitem, himage]
  rfl

/-- An item is shown with an image that stands in for a fresh file. -/
def isShownFallback (item : Json) : Bool :=
  shownState? item = some "stale" ∨ shownState? item = some "remote"

theorem isShownFallback_toJson (entry : FeedEntry) : isShownFallback entry.toJson = entry.image.isFallback := by
  simp only [isShownFallback, shownState?_toJson]
  cases entry.image <;> simp [ImageRef.state, ImageRef.isFallback]

/-- A body describes a snapshot: its items are the entries in their order, and it counts the sources that failed and those of its
items whose image is stale or remote. -/
def Describes (body : Json) (snapshot : Snapshot) : Prop :=
  ∃ items, items = snapshot.entries.map FeedEntry.toJson ∧
    body.fields? ["items", "degraded", "fallback_thumbnails", "updated_at"] = some [some (.array items),
      some (.nat snapshot.failedSources), some (.nat (items.countP isShownFallback)),
      some (.text snapshot.updatedAt.render)]

/-- The snapshot is shown by a body that describes it. -/
theorem describes_videosJson (snapshot : Snapshot) : Describes (videosJson snapshot) snapshot := by
  have hcount : (snapshot.entries.map FeedEntry.toJson).countP isShownFallback = snapshot.fallbackImages := by
    rw [List.countP_map, Snapshot.fallbackImages]
    exact congrArg (List.countP · _) (funext isShownFallback_toJson)
  refine ⟨_, rfl, ?_⟩
  rw [hcount, videosJson, Json.fields?_record]
  simp [Json.member?]

/-- The path of the videos leads to the latest snapshot. -/
theorem respond?_videos (v : View) : respond? v "GET" "/api/videos" = some (videos v) := by
  have hpath : Http.Target.ofText? "/api/videos" = some (Utf8.ofString "/api/videos") := by decide
  have hroute : Route.ofPath (Utf8.ofString "/api/videos") = .videos := rfl
  have hmethod : isMethod "GET" = true := by decide
  simp [respond?, hpath, hroute, hmethod, Route.answer]

theorem ofJson?_noContent : ErrorReport.ofJson? (ErrorReport.ofFault .noContent).toJson = some (.ofFault .noContent) :=
  rfl

end Api

/-! ## Runs with requests -/

namespace Service

variable {s s' : Service} {settings : VideoSettings} {cache : Option ImageCache} {clock : Int}

/-- What happens to a service: it takes a step of its own, or answers a request. -/
inductive Occurrence
  | step (e : Event)
  | request (method target : String)

/-- The step that happens, if it is one. -/
def Occurrence.event? : Occurrence → Option Event
  | step e => some e
  | request _ _ => none

/-- The service after something has happened to it; a request that can be made is answered, and that is all. -/
def occur? (s : Service) : Occurrence → Option Service
  | .step e => s.step? e
  | .request method target => (s.respond? method target).map fun _ => s

/-- The service after a list of occurrences, if each is possible in its turn. -/
def occurs? : Service → List Occurrence → Option Service
  | s, [] => some s
  | s, o :: os => (s.occur? o).bind fun next => occurs? next os

/-- What happens to a service comes to a run of its own steps. -/
theorem steps?_of_occurs? {occurrences : List Occurrence} (h : s.occurs? occurrences = some s') :
    s.steps? (occurrences.filterMap Occurrence.event?) = some s' := by
  induction occurrences generalizing s with
  | nil => exact h
  | cons o os ih =>
    obtain ⟨m, hm, hos⟩ := Option.bind_eq_some_iff.mp h
    cases o with
    | step e =>
      have he : s.step? e = some m := hm
      simp only [List.filterMap_cons, Occurrence.event?, steps?, he, Option.bind_some]
      exact ih hos
    | request method target =>
      obtain ⟨response, -, rfl⟩ := Option.map_eq_some_iff.mp hm
      simp only [List.filterMap_cons, Occurrence.event?]
      exact ih hos

/-- The answer to a request for the videos is that of the current snapshot. -/
theorem respond?_videos (s : Service) : s.respond? "GET" "/api/videos" = some (match s.snapshot with
    | some snapshot => .json 200 (Api.videosJson snapshot)
    | none => .fault .noContent) := by
  rw [respond?, Api.respond?_videos]
  rfl

/-- What a service that has come so far answers to a request for its videos. -/
structure ShowsLatest (start : Service) (events : List Event) (s : Service) : Prop where
  /-- As long as no update has succeeded, there is no content. -/
  empty : s.lastReturned? = none → ∃ body report, s.respond? "GET" "/api/videos" = some (.json 503 body) ∧
    ErrorReport.ofJson? body = some report ∧ report.code = "no_content"
  /-- Afterwards, the snapshot that the last update to succeed has returned is shown. -/
  full : ∀ snapshot, s.lastReturned? = some snapshot → ∃ body, s.respond? "GET" "/api/videos" = some (.json 200 body) ∧
    Api.Describes body snapshot
  /-- The snapshot of an update shows the items that it has fetched, each with the answer to the call that it has then made
  for the image, and counts the sources that had failed. -/
  resolved : ∀ i snapshot, s.updates[i]? = some (.published snapshot) → ∃ m feed, start.Happens events m (.fetch i (.ok feed)) ∧
    snapshot.failedSources = feed.failedSources ∧ s.Illustrates m.callCount feed.items snapshot.entries
  /-- The answer stays the same whatever happens, except when an update succeeds. -/
  stays : ∀ o s', s.occur? o = some s' → (∀ i, o ≠ .step (.publish i)) →
    s'.respond? "GET" "/api/videos" = s.respond? "GET" "/api/videos"

end Service

end ChannelWatch
