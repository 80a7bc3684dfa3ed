import ChannelWatch.Feed.Item
import ChannelWatch.Json.Reader
import ChannelWatch.Link
import ChannelWatch.Source

/-!
# Bilibili archives

The answer of the space archive: a code, a message and, unless the request was refused, the author's videos. Any field may
be missing.
-/

namespace ChannelWatch.Bilibili

/-- A video of an archive; `uploaded` is in seconds after the epoch. -/
structure Video where
  title : String
  cover : String
  uploaded : Int
  author : String
  id : String
  deriving DecidableEq

/-- The answer of the space archive. -/
structure Archive where
  code : Int
  message : String
  videos : Option (List Video)
  deriving DecidableEq

/-- The video that a value holds. -/
def Video.ofJson? (j : Json) : Option Video := do
  match ← j.fields? ["title", "cover", "ctime", "author", "bvid"] with
  | [title, cover, uploaded, author, id] =>
    some {
      title := ← Json.field? Json.asText? "" title
      cover := ← Json.field? Json.asText? "" cover
      uploaded := ← Json.field? Json.asInt64? 0 uploaded
      author := ← Json.field? Json.asText? "" author
      id := ← Json.field? Json.asText? "" id }
  | _ => none

/-- The videos of an archive's payload. -/
def videosOfJson? (j : Json) : Option (List Video) := do
  match ← j.fields? ["item"] with
  | [videos] => Json.field? (Json.list? Video.ofJson?) [] videos
  | _ => none

/-- The payload that a value holds; null is none. -/
def payloadOfJson? : Json → Option (Option (List Video))
  | .null => some none
  | j => (videosOfJson? j).map some

/-- The archive that a value holds. -/
def Archive.ofJson? (j : Json) : Option Archive := do
  match ← j.fields? ["code", "message", "data"] with
  | [code, message, payload] =>
    some {
      code := ← Json.field? Json.asInt64? 0 code
      message := ← Json.field? Json.asText? "" message
      videos := ← Json.field? payloadOfJson? none payload }
  | _ => none

/-- The archive that a text holds. -/
def Archive.read? (text : String) : Option Archive :=
  (Json.read? text).bind ofJson?

/-- The link of a video without a template. -/
def videoUrl (id : String) : String :=
  "https://www.bilibili.com/video/" ++ id

/-- The item of a video; an upload time that cannot be represented becomes `now`. -/
def Video.item (source : SourceId) (template : String) (now : Instant) (v : Video) : VideoItem where
  title := v.title
  url := Link.secure (if template.isEmpty then videoUrl v.id else Link.fillTemplate template v.id)
  author := v.author
  authorUrl := "https://space.bilibili.com/" ++ source.id
  imageUrl := v.cover
  published := (Instant.ofSeconds? v.uploaded).getD now

/-- The items of an archive. -/
def Archive.items (source : SourceId) (template : String) (now : Instant) (a : Archive) : List VideoItem :=
  (a.videos.getD []).map (Video.item source template now)

end ChannelWatch.Bilibili
