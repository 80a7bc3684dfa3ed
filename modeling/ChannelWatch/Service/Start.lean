import ChannelWatch.Cache.Tree
import ChannelWatch.Http.Asset
import ChannelWatch.Service.State

/-!
# Starting a service

A service is built from settings that have been checked. Nothing is made on the disk before all settings are found in
order; then the cache directory is made, and it does no harm if it cannot be. A pool with more permits than there can be
makes the start crash.
-/

namespace ChannelWatch

/-- How the start of a service ends. -/
inductive Start
  | ready (service : Service)
  | refused (fault : Fault)
  | crashed

namespace Cache

/-- The cache directory after it was made sure that there is one, if there can be. -/
def Directory.ensured (d : Directory) (now : Int) : Directory :=
  (d.makeDirectory? now "" now).getD d

end Cache

namespace ImageCache

/-- A cache over a directory, with nothing in flight: none if its pool would be too large. -/
def build? (s : CacheSettings) (directory : Cache.Directory) (clock : Int) : Option ImageCache :=
  let policy := Cache.Policy.ofSettings s
  if Cache.maxPermits < policy.permits then none
  else some ⟨policy, { Cache.State.initial policy directory directory.freshId with clock := clock }⟩

end ImageCache

namespace Service

/-- A service with an image cache, if there are settings for one, over a directory. -/
def build (videos : VideoSettings) (cache : Option CacheSettings) (directory : Cache.Directory) (clock : Int) : Start :=
  match cache with
  | none => .ready (initial videos none clock)
  | some settings =>
    match ImageCache.build? settings directory clock with
    | some c => .ready (initial videos (some c) clock)
    | none => .crashed

/-- A service with settings that are checked first, and what then lies under the path of its cache. -/
def start (s : Settings) (directory : Cache.Directory) (clock : Int) : Start × Cache.Directory :=
  match s.check with
  | .error fault => (.refused fault, directory)
  | .ok () =>
    if s.cache.enabled then
      match Http.AssetClient.ofSettings s.cache with
      | .error fault => (.refused fault, directory)
      | .ok _ =>
        let directory := directory.ensured clock
        (build s.videos (some s.cache) directory clock, directory)
    else (build s.videos none directory clock, directory)

end Service

end ChannelWatch
