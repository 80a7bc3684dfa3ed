import ChannelWatch.Json.Record
import ChannelWatch.Time.Written

/-!
# Feed items

One video of a feed, in the same shape for every provider.
-/

namespace ChannelWatch

/-- A video: its link is always secure, and its image is at the remote URL that the provider gave. -/
structure VideoItem where
  title : String
  url : String
  author : String
  authorUrl : String
  imageUrl : String
  published : Instant
  deriving DecidableEq

namespace VideoItem

/-- The members of the item's JSON object. -/
def members (v : VideoItem) : List (String × Json) := [
  ("title", .text v.title),
  ("url", .text v.url),
  ("author", .text v.author),
  ("author_url", .text v.authorUrl),
  ("thumbnail_url", .text v.imageUrl),
  ("published", .text v.published.render)]

/-- The item as JSON. -/
def toJson (v : VideoItem) : Json :=
  .record v.members

/-- The instant that a value gives. -/
def instantOfJson? : Json → Option Instant
  | .string (some s) => Instant.readLoose? s
  | _ => none

/-- The item that a value holds; no field may be missing. -/
def ofJson? (j : Json) : Option VideoItem := do
  match ← j.fields? ["title", "url", "author", "author_url", "thumbnail_url", "published"] with
  | [title, url, author, authorUrl, imageUrl, published] =>
    some {
      title := ← Json.required? Json.asText? title
      url := ← Json.required? Json.asText? url
      author := ← Json.required? Json.asText? author
      authorUrl := ← Json.required? Json.asText? authorUrl
      imageUrl := ← Json.required? Json.asText? imageUrl
      published := ← Json.required? instantOfJson? published }
  | _ => none

end VideoItem

end ChannelWatch
