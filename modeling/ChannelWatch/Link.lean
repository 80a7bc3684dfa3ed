import ChannelWatch.Text.Search

/-!
# Links

Every link the feed hands out and every asset it asks for uses https: a leading `http://` becomes `https://`, and
nothing else changes.
-/

namespace ChannelWatch.Link

/-- The link with a leading `http://` turned into `https://`. -/
def secure (link : String) : String :=
  match Text.stripStart? "http://".toList link.toList with
  | some rest => String.ofList ("https://".toList ++ rest)
  | none => link

/-- What a link template holds in the place of the video's id. -/
def placeholder : String :=
  "\x7bVIDEO-ID\x7d"

/-- A link template with the id of a video in every place that asks for it. -/
def fillTemplate (template videoId : String) : String :=
  String.ofList (Text.replaceAll placeholder.toList videoId.toList template.toList)

end ChannelWatch.Link
