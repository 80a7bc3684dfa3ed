import ChannelWatch.Api.Route
import ChannelWatch.Cache.Rest
import ChannelWatch.Feed.Fetch

/-!
# The service

A service watches its sources, keeps the latest snapshot and may have an image cache. An update goes from fetching to a
published snapshot or to a fault; any number of updates may be under way at once. Updates are known by their places in
the order in which they began and stay when they are over.
-/

namespace ChannelWatch

/-- An image cache in use: how it works and how it stands. -/
structure ImageCache where
  policy : Cache.Policy
  state : Cache.State

/-- Where an update stands. With a cache, `looking` makes a call for one item after another and waits for the answers;
at `stamped` the snapshot is complete but not yet the current one. -/
inductive Update
  | fetching
  | looking (feed : MergedFeed) (calls : List Nat)
  | gathered (entries : List FeedEntry) (failedSources : Nat)
  | stamped (snapshot : Snapshot)
  | published (snapshot : Snapshot)
  | failed (fault : Fault)

/-- The result of an update that is over. -/
def Update.result? : Update → Option (Except Fault Snapshot)
  | published snapshot => some (.ok snapshot)
  | failed fault => some (.error fault)
  | _ => none

/-- A service. Its clock counts nanoseconds and is that of its cache. -/
structure Service where
  settings : VideoSettings
  cache : Option ImageCache
  clock : Int
  snapshot : Option Snapshot
  updates : List Update

namespace Service

/-- A service that nothing has happened to yet. -/
def initial (settings : VideoSettings) (cache : Option ImageCache) (clock : Int) : Service where
  settings := settings
  cache := cache
  clock := clock
  snapshot := none
  updates := []

/-- What the routes show of a service. -/
def view (s : Service) : Api.View where
  cache := s.cache.map (·.state)
  snapshot := s.snapshot

/-- The answer of the service to a request: `none` if the request cannot be made. -/
def respond? (s : Service) (method target : String) : Option Api.Response :=
  Api.respond? s.view method target

/-- How many downloads are in flight, if there is a cache. -/
def inFlight? (s : Service) : Option Nat :=
  s.cache.map (·.state.inFlight)

/-- The service with an update at another place. -/
def setUpdate (s : Service) (i : Nat) (update : Update) : Service :=
  { s with updates := s.updates.set i update }

/-- The service with a cache that has gone on. -/
def setCache (s : Service) (state : Cache.State) : Service :=
  { s with cache := s.cache.map fun c => { c with state := state } }

end Service

end ChannelWatch
