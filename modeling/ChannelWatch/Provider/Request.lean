import ChannelWatch.Http.Exchange
import ChannelWatch.Link
import ChannelWatch.Settings.Basic

/-!
# Requests for feeds

Each source has one request: the provider's endpoint under the base URL of the settings, with one pair in its query that
names the source.
-/

namespace ChannelWatch

namespace Bilibili

/-- The user agent of archive requests. -/
def userAgent : String :=
  "Mozilla/5.0 (Windows NT 10.0; Win64; x64) AppleWebKit/537.36 (KHTML, like Gecko) Chrome/91.0.4472.124 Safari/537.36"

/-- The referer of archive requests. -/
def referer : String :=
  "https://www.bilibili.com/"

/-- Where archives are, under the base URL. -/
def endpoint : String :=
  "/x/v2/space/archive/cursor"

/-- The pair that names a source. -/
def sourcePair (source : SourceId) : String × String :=
  ("vmid", source.id)

end Bilibili

namespace YouTube

/-- Where feeds are, under the base URL. -/
def endpoint : String :=
  "/feeds/videos.xml"

/-- The pair that names a source. A channel without its shorts is the playlist of its other uploads, whose id has `UULF`
for the channel id's `UC`. -/
def sourcePair (includeShorts : Bool) (source : SourceId) : String × String :=
  if source.isPlaylist then ("playlist_id", source.id)
  else match Text.stripStart? "UC".toList source.id.toList with
    | some rest =>
      if includeShorts then ("channel_id", source.id) else ("playlist_id", "UULF" ++ String.ofList rest)
    | none => ("channel_id", source.id)

end YouTube

namespace VideoSettings

/-- The base URL of the provider, without slashes at its end. -/
def base (v : VideoSettings) : String :=
  let base := match v.provider with
    | .bilibili => v.bilibiliBase
    | .youtube => v.youtubeBase
  String.ofList (Text.dropEndWhile (· = '/') base.toList)

/-- The endpoint of the provider. -/
def endpoint (v : VideoSettings) : String :=
  match v.provider with
  | .bilibili => Bilibili.endpoint
  | .youtube => YouTube.endpoint

/-- The pair that names a source to the provider. -/
def sourcePair (v : VideoSettings) (source : SourceId) : String × String :=
  match v.provider with
  | .bilibili => Bilibili.sourcePair source
  | .youtube => YouTube.sourcePair v.includeShorts source

/-- The user agent and the referer that the provider wants. -/
def headers (v : VideoSettings) : Option String × Option String :=
  match v.provider with
  | .bilibili => (some Bilibili.userAgent, some Bilibili.referer)
  | .youtube => (none, none)

/-- The request for a source's feed. -/
def request (v : VideoSettings) (source : SourceId) : Except NetworkFault Http.Request :=
  (Http.target (v.base ++ v.endpoint)).map fun url =>
    ⟨url.addPair (v.sourcePair source), v.requestTimeout, v.headers.1, v.headers.2⟩

/-- The requests for all sources, in their order. -/
def requests (v : VideoSettings) : List (Except NetworkFault Http.Request) :=
  v.sources.map v.request

end VideoSettings

end ChannelWatch
