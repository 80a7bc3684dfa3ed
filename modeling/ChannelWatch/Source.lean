import ChannelWatch.Text.Search

/-!
# Sources

A source is a channel or a playlist of the provider. It is written as the provider's id, a playlist with `playlist:`
before it.
-/

namespace ChannelWatch

/-- The identifier of a source as it is written. -/
structure SourceId where
  written : String
  deriving DecidableEq

namespace SourceId

/-- What marks a playlist. -/
def playlistMark : String :=
  "playlist:"

/-- The source of a bare playlist id. -/
def playlist (id : String) : SourceId :=
  ⟨playlistMark ++ id⟩

/-- The id after the playlist mark, if the source is a playlist. -/
def playlistId? (s : SourceId) : Option String :=
  (Text.stripStart? playlistMark.toList s.written.toList).map String.ofList

/-- The source is a playlist. -/
def isPlaylist (s : SourceId) : Bool :=
  s.playlistId?.isSome

/-- The provider's bare id. -/
def id (s : SourceId) : String :=
  s.playlistId?.getD s.written

end SourceId

end ChannelWatch
