import ChannelWatch.Fault
import ChannelWatch.Net.Address
import ChannelWatch.Source

/-!
# Settings

What is watched and how, how images are cached, and where answers are served. Durations are whole seconds.
`Settings.check` finds the first setting that would make a run misbehave.
-/

namespace ChannelWatch

/-- Whose feeds the sources are. -/
inductive Provider
  | bilibili
  | youtube
  deriving DecidableEq

/-- How many fetches run at once if nothing else is said. -/
def defaultWorkers : Nat :=
  30

/-- How many items a feed keeps if nothing else is said. -/
def defaultLimit : Nat :=
  25

/-- What is watched and how. -/
structure VideoSettings where
  provider : Provider
  channels : List String
  playlists : List String
  urlTemplate : String
  includeShorts : Bool
  limit : Nat
  workers : Nat
  requestTimeout : Nat
  refreshInterval : Nat
  bilibiliBase : String
  youtubeBase : String
  deriving DecidableEq

/-- How images are cached. -/
structure CacheSettings where
  enabled : Bool
  directory : String
  ttl : Nat
  downloadTimeout : Nat
  maxDownloads : Nat
  sweepInterval : Nat
  urlStart : String
  userAgent : String
  referer : String
  deriving DecidableEq

/-- Where answers are served. -/
structure ServerSettings where
  address : SocketAddress
  deriving DecidableEq

/-- All settings. -/
structure Settings where
  videos : VideoSettings
  cache : CacheSettings
  server : ServerSettings
  deriving DecidableEq

namespace VideoSettings

/-- The settings that hold if nothing else is said: no sources. -/
def standard : VideoSettings where
  provider := .bilibili
  channels := []
  playlists := []
  urlTemplate := ""
  includeShorts := false
  limit := defaultLimit
  workers := defaultWorkers
  requestTimeout := 15
  refreshInterval := 3600
  bilibiliBase := "https://app.bilibili.com"
  youtubeBase := "https://www.youtube.com"

/-- The sources in the order they are fetched: the channels, then the playlists. -/
def sources (v : VideoSettings) : List SourceId :=
  v.channels.map SourceId.mk ++ v.playlists.map SourceId.playlist

/-- How many items the feed keeps; a limit of zero means the default. -/
def effectiveLimit (v : VideoSettings) : Nat :=
  if v.limit = 0 then defaultLimit else v.limit

end VideoSettings

namespace CacheSettings

/-- The settings that hold if nothing else is said. -/
def standard : CacheSettings where
  enabled := true
  directory := "./cache/images"
  ttl := 86400
  downloadTimeout := 15
  maxDownloads := 8
  sweepInterval := 3600
  urlStart := "/cache/images/"
  userAgent := "Mozilla/5.0 (Windows NT 10.0; Win64; x64) AppleWebKit/537.36 (KHTML, like Gecko) Chrome/120.0.0.0 Safari/537.36"
  referer := "https://www.bilibili.com/"

end CacheSettings

namespace ServerSettings

/-- The settings that hold if nothing else is said. -/
def standard : ServerSettings where
  address := ⟨.v4 [127, 0, 0, 1], 8080⟩

end ServerSettings

namespace Settings

/-- The settings that hold if nothing else is said. -/
def standard : Settings :=
  ⟨.standard, .standard, .standard⟩

/-- The fault of a setting. -/
def refuse (key message : String) : Except Fault Unit :=
  .error (.config message (some key))

/-- The first setting that would make a run misbehave, if there is one. Cache settings count only with the cache on. -/
def check (s : Settings) : Except Fault Unit :=
  if s.videos.channels.isEmpty ∧ s.videos.playlists.isEmpty then
    refuse "channels" "at least one channel or playlist is required"
  else if s.videos.workers = 0 then refuse "workers" "workers must be at least 1"
  else if s.videos.refreshInterval = 0 then refuse "refresh_interval" "refresh_interval must be greater than zero"
  else if ¬s.cache.enabled then .ok ()
  else if s.cache.sweepInterval = 0 then refuse "sweep_interval" "sweep_interval must be greater than zero"
  else if s.cache.ttl = 0 then refuse "ttl" "cache ttl must be greater than zero"
  else if s.cache.maxDownloads = 0 then
    refuse "max_concurrent_downloads" "max_concurrent_downloads must be at least 1"
  else .ok ()

end Settings

end ChannelWatch
