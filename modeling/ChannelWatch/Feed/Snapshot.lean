import ChannelWatch.Cache.Reference
import ChannelWatch.Feed.Item

/-!
# Feed snapshots

What the last successful cycle produced: its items with their images, how many sources failed in it, and when it ended.
-/

namespace ChannelWatch

/-- An item together with the image that clients load for it. -/
structure FeedEntry where
  item : VideoItem
  image : ImageRef
  deriving DecidableEq

/-- The result of a successful cycle. -/
structure Snapshot where
  entries : List FeedEntry
  failedSources : Nat
  updatedAt : Instant
  deriving DecidableEq

namespace FeedEntry

/-- The members of the entry's JSON object: those of its item and the image. -/
def members (e : FeedEntry) : List (String × Json) :=
  e.item.members ++ [("thumbnail", e.image.toJson)]

/-- The entry as JSON. -/
def toJson (e : FeedEntry) : Json :=
  .record e.members

end FeedEntry

namespace Snapshot

/-- How many entries have an image that is not a fresh local file. -/
def fallbackImages (s : Snapshot) : Nat :=
  s.entries.countP (·.image.isFallback)

/-- The reference to an item's image in a feed without a cache. -/
def uncachedRef (v : VideoItem) : ImageRef :=
  if v.imageUrl.isEmpty then .missing else .remote v.imageUrl

end Snapshot

end ChannelWatch
