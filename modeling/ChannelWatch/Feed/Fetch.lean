import ChannelWatch.Feed.Merge
import ChannelWatch.Provider.Bilibili
import ChannelWatch.Provider.Request
import ChannelWatch.Provider.YouTube
import ChannelWatch.Runner.Job

/-!
# Fetching feeds

One cycle of fetching: the requests of all sources are built, run as one job and decoded, and what came of them is
merged. If a request cannot be built, or the job cannot be dispatched, there is no content because of that.
-/

namespace ChannelWatch

/-- A decoded feed of either provider. -/
inductive Payload
  | archive (a : Bilibili.Archive)
  | uploads (u : YouTube.Uploads)

namespace Payload

/-- The items of a payload. -/
def items (template : String) (now : Instant) (source : SourceId) : Payload → List VideoItem
  | archive a => a.items source template now
  | uploads u => u.items template now

/-- How the decoding of a body ends; `url` is where the body came from. -/
def decode (provider : Provider) (url body : String) : Runner.Ending Payload :=
  match provider with
  | .bilibili =>
    match Bilibili.Archive.read? body with
    | some a => .value (archive a)
    | none => .fault (.decode ("invalid JSON from " ++ url))
  | .youtube =>
    match YouTube.Uploads.read body with
    | .ok u => .value (uploads u)
    | .error .malformed => .fault (.decode ("invalid XML from " ++ url))
    | .error .interruptedText => .crash

end Payload

namespace Feed

/-- How the fetch of one feed ends. -/
def fetchOne (network : Http.Network) (provider : Provider) (request : Http.Request) : Runner.Ending Payload :=
  match Http.fetchText network request with
  | .ok body => Payload.decode provider request.url.render body
  | .error f => .fault f

/-- The requests of all sources, or the fault of the first that cannot be built. -/
def builtRequests (v : VideoSettings) : Except Fault (List Http.Request) :=
  match v.requests.mapM id with
  | .ok list => .ok list
  | .error f => .error (.noContentBecause (.network f))

/-- The tasks of a cycle, one for each request; what answers a request is up to its place. -/
def tasks (networks : Nat → Http.Network) (provider : Provider) (requests : List Http.Request) :
    List (Runner.Task Payload) :=
  requests.mapIdx fun i r => ⟨1, fetchOne (networks i) provider r⟩

/-- The merge of the outcomes of a cycle's job. -/
def mergeOutcomes (v : VideoSettings) (now : Instant) (outcomes : List (Except Fault Payload)) : Except Fault MergedFeed :=
  merge v.sources outcomes v.effectiveLimit (Payload.items v.urlTemplate now)

/-- One cycle of fetching, in which each request has an answer of its own. -/
def fetchEach (networks : Nat → Http.Network) (v : VideoSettings) (now : Instant) : Except Fault MergedFeed := do
  let requests ← builtRequests v
  match Runner.execute v.workers (tasks networks v.provider requests) with
  | .error f => throw (.noContentBecause f)
  | .ok outcomes => mergeOutcomes v now outcomes

/-- One cycle of fetching over a network that answers equal requests alike. -/
def fetchAll (network : Http.Network) (v : VideoSettings) (now : Instant) : Except Fault MergedFeed :=
  fetchEach (fun _ => network) v now

end Feed

end ChannelWatch
