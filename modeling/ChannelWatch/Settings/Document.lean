import ChannelWatch.Json.Reader
import ChannelWatch.Json.Record
import ChannelWatch.Settings.Basic

/-!
# Settings as JSON

Settings are read from a JSON record in which any field may be missing and takes its standard value, and written with
all fields. Numbers have 64 bits.
-/

namespace ChannelWatch

/-- Numbers in settings lie below this. -/
def Settings.numberBound : Nat :=
  Nat.pow 2 64

/-- A number in settings. -/
def Settings.number? : Json → Option Nat :=
  Json.asNat? Settings.numberBound

namespace Provider

/-- The name of a provider. -/
def name : Provider → String
  | bilibili => "bilibili"
  | youtube => "youtube"

/-- The provider with a name. -/
def ofName? (s : String) : Option Provider :=
  [bilibili, youtube].find? (·.name = s)

/-- The provider that a value names: by a text, or by the key of an object with nothing but a null. -/
def ofJson? : Json → Option Provider
  | .string (some s) => ofName? s
  | .object [(some s, .null)] => ofName? s
  | _ => none

end Provider

namespace VideoSettings

/-- The names of the fields. -/
def keys : List String :=
  ["provider", "channels", "playlists", "video_url_template", "include_shorts", "limit", "workers", "request_timeout",
    "refresh_interval", "bilibili_api_base", "youtube_feed_base"]

/-- The settings that a value holds. -/
def ofJson? (j : Json) : Option VideoSettings := do
  match ← j.fields? keys with
  | [provider, channels, playlists, urlTemplate, includeShorts, limit, workers, requestTimeout, refreshInterval,
      bilibiliBase, youtubeBase] =>
    some {
      provider := ← Json.field? Provider.ofJson? standard.provider provider
      channels := ← Json.field? (Json.list? Json.asText?) standard.channels channels
      playlists := ← Json.field? (Json.list? Json.asText?) standard.playlists playlists
      urlTemplate := ← Json.field? Json.asText? standard.urlTemplate urlTemplate
      includeShorts := ← Json.field? Json.asBool? standard.includeShorts includeShorts
      limit := ← Json.field? Settings.number? standard.limit limit
      workers := ← Json.field? Settings.number? standard.workers workers
      requestTimeout := ← Json.field? Settings.number? standard.requestTimeout requestTimeout
      refreshInterval := ← Json.field? Settings.number? standard.refreshInterval refreshInterval
      bilibiliBase := ← Json.field? Json.asText? standard.bilibiliBase bilibiliBase
      youtubeBase := ← Json.field? Json.asText? standard.youtubeBase youtubeBase }
  | _ => none

/-- The settings as JSON. -/
def toJson (v : VideoSettings) : Json :=
  .record [
    ("provider", .text v.provider.name),
    ("channels", .array (v.channels.map .text)),
    ("playlists", .array (v.playlists.map .text)),
    ("video_url_template", .text v.urlTemplate),
    ("include_shorts", .bool v.includeShorts),
    ("limit", .nat v.limit),
    ("workers", .nat v.workers),
    ("request_timeout", .nat v.requestTimeout),
    ("refresh_interval", .nat v.refreshInterval),
    ("bilibili_api_base", .text v.bilibiliBase),
    ("youtube_feed_base", .text v.youtubeBase)]

end VideoSettings

namespace CacheSettings

/-- The names of the fields. -/
def keys : List String :=
  ["enabled", "cache_dir", "ttl", "download_timeout", "max_concurrent_downloads", "sweep_interval", "url_prefix",
    "user_agent", "referer"]

/-- The settings that a value holds. -/
def ofJson? (j : Json) : Option CacheSettings := do
  match ← j.fields? keys with
  | [enabled, directory, ttl, downloadTimeout, maxDownloads, sweepInterval, urlStart, userAgent, referer] =>
    some {
      enabled := ← Json.field? Json.asBool? standard.enabled enabled
      directory := ← Json.field? Json.asText? standard.directory directory
      ttl := ← Json.field? Settings.number? standard.ttl ttl
      downloadTimeout := ← Json.field? Settings.number? standard.downloadTimeout downloadTimeout
      maxDownloads := ← Json.field? Settings.number? standard.maxDownloads maxDownloads
      sweepInterval := ← Json.field? Settings.number? standard.sweepInterval sweepInterval
      urlStart := ← Json.field? Json.asText? standard.urlStart urlStart
      userAgent := ← Json.field? Json.asText? standard.userAgent userAgent
      referer := ← Json.field? Json.asText? standard.referer referer }
  | _ => none

/-- The settings as JSON. -/
def toJson (c : CacheSettings) : Json :=
  .record [
    ("enabled", .bool c.enabled),
    ("cache_dir", .text c.directory),
    ("ttl", .nat c.ttl),
    ("download_timeout", .nat c.downloadTimeout),
    ("max_concurrent_downloads", .nat c.maxDownloads),
    ("sweep_interval", .nat c.sweepInterval),
    ("url_prefix", .text c.urlStart),
    ("user_agent", .text c.userAgent),
    ("referer", .text c.referer)]

end CacheSettings

namespace ServerSettings

/-- The address that a value holds. -/
def addressOfJson? : Json → Option SocketAddress
  | .string (some s) => SocketAddress.read? s
  | _ => none

/-- The settings that a value holds. -/
def ofJson? (j : Json) : Option ServerSettings := do
  match ← j.fields? ["bind_address"] with
  | [address] => some ⟨← Json.field? addressOfJson? standard.address address⟩
  | _ => none

/-- The settings as JSON. -/
def toJson (s : ServerSettings) : Json :=
  .record [("bind_address", .text s.address.render)]

end ServerSettings

namespace Settings

/-- The settings that a value holds. -/
def ofJson? (j : Json) : Option Settings := do
  match ← j.fields? ["videos", "cache", "server"] with
  | [videos, cache, server] =>
    some {
      videos := ← Json.field? VideoSettings.ofJson? .standard videos
      cache := ← Json.field? CacheSettings.ofJson? .standard cache
      server := ← Json.field? ServerSettings.ofJson? .standard server }
  | _ => none

/-- The settings that a text holds. -/
def read? (text : String) : Option Settings :=
  (Json.read? text).bind ofJson?

/-- The settings as JSON. -/
def toJson (s : Settings) : Json :=
  .record [("videos", s.videos.toJson), ("cache", s.cache.toJson), ("server", s.server.toJson)]

end Settings

end ChannelWatch
