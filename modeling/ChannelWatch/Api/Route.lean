import ChannelWatch.Api.Response
import ChannelWatch.Cache.State
import ChannelWatch.Feed.Snapshot
import ChannelWatch.Http.Uri
import ChannelWatch.Url.Percent

/-!
# Routes

Three paths answer: the health of the service, the latest snapshot, and the files of the image cache under their own
names. A path is compared as it is written; only the name of an image is percent-decoded, after the path has been divided.
-/

namespace ChannelWatch.Api

/-- Where a path leads. -/
inductive Route
  | health
  | videos
  | image (segment : List UInt8)
  | nowhere

/-- Where images are. -/
def imagesPath : String :=
  "/cache/images/"

/-- The bytes after a given beginning. -/
def after? : List UInt8 → List UInt8 → Option (List UInt8)
  | [], path => some path
  | _ :: _, [] => none
  | p :: ps, b :: bs => if p = b then after? ps bs else none

/-- Where a path leads. An image's name is one segment and not empty. -/
def Route.ofPath (path : List UInt8) : Route :=
  if path = Utf8.ofString "/health" then .health
  else if path = Utf8.ofString "/api/videos" then .videos
  else match after? (Utf8.ofString imagesPath) path with
    | some segment => if segment.isEmpty ∨ segment.contains 0x2F then .nowhere else .image segment
    | none => .nowhere

/-- What the routes show: the cache, if there is one, and the latest snapshot, if there is one. -/
structure View where
  cache : Option Cache.State
  snapshot : Option Snapshot

/-- The version that the service reports. -/
def version : String :=
  "0.1.0"

/-- The health of the service. -/
def health (v : View) : Response :=
  .json 200 (.record [
    ("status", .text "ok"),
    ("version", .text version),
    ("cache_enabled", .bool v.cache.isSome),
    ("downloads_in_flight", .nat ((v.cache.map (·.inFlight)).getD 0))])

/-- A snapshot as the service shows it. -/
def videosJson (s : Snapshot) : Json :=
  .record [
    ("items", .array (s.entries.map FeedEntry.toJson)),
    ("degraded", .nat s.failedSources),
    ("fallback_thumbnails", .nat s.fallbackImages),
    ("updated_at", .text s.updatedAt.render)]

/-- The latest snapshot. -/
def videos (v : View) : Response :=
  match v.snapshot with
  | some s => .json 200 (videosJson s)
  | none => .fault .noContent

/-- The file of a cached image: only a name that the cache gives is looked for. -/
def image (v : View) (name : String) : Response :=
  let missing := Response.notFound ("cached image " ++ name)
  match v.cache, ImageFormat.ofName? name with
  | some cache, some format =>
    match cache.directory.read name with
    | .ok content => .image format.mediaType content
    | .error f => if f.kind = .notFound then missing else .fault (.io f)
  | _, _ => missing

/-- The answer of a route to GET. -/
def Route.answer (v : View) : Route → Response
  | health => Api.health v
  | videos => Api.videos v
  | image segment =>
    match Utf8.decode? (Percent.decodeBytes segment) with
    | some name => Api.image v (String.ofList name)
    | none => .badPath "file"
  | nowhere => .noRoute

/-- A byte of a method's name. -/
def inMethod (c : Char) : Bool :=
  Text.isLetter c || Text.isDigit c || "!#$%&*+-.^_|~\x27\x60".toList.contains c

/-- The text is the name of a method. -/
def isMethod (method : String) : Bool :=
  !method.isEmpty && method.toList.all inMethod

/-- The answer to a request: `none` if the request cannot be made. -/
def respond? (v : View) (method target : String) : Option Response :=
  match Http.Target.ofText? target with
  | none => none
  | some path =>
    if !isMethod method then none
    else match Route.ofPath path with
      | .nowhere => some .noRoute
      | route =>
        if method = "GET" then some (route.answer v)
        else if method = "HEAD" then some (route.answer v).withoutBody
        else some .badMethod

end ChannelWatch.Api
