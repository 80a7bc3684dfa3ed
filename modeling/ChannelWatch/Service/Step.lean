import ChannelWatch.Service.State

/-!
# Steps of the service

`Service.step?` is the smallest thing that can happen in a service: the cache does something, or an update does one of
its own steps. It fetches, asks the cache for one image after another, gathers the answers, reads the clock and publishes;
nothing keeps the steps of different updates from mixing.
-/

namespace ChannelWatch.Service

/-- Something that can happen. Numbers are the places of updates. -/
inductive Event
  | tick (nanos : Nat)
  | cache (event : Cache.Event)
  | update
  | fetch (update : Nat) (outcome : Except Fault MergedFeed)
  | look (update : Nat)
  | gather (update : Nat)
  | stamp (update : Nat)
  | publish (update : Nat)

/-- Time passes, for the cache too. -/
def tick (s : Service) (nanos : Nat) : Service :=
  { s with
    clock := s.clock + nanos
    cache := s.cache.map fun c => { c with state := { c.state with clock := c.state.clock + nanos } } }

/-- Something happens in the cache; time passes for the whole service only. -/
def cacheStep? (s : Service) (e : Cache.Event) : Option Service :=
  match e, s.cache with
  | .tick _, _ => none
  | _, none => none
  | e, some c => (c.state.step? c.policy e).map s.setCache

/-- A fetch ends: an update without content is over, and the snapshot stays. -/
def fetch? (s : Service) (i : Nat) (outcome : Except Fault MergedFeed) : Option Service :=
  match s.updates[i]?, outcome with
  | some .fetching, .ok feed => some (s.setUpdate i (.looking feed []))
  | some .fetching, .error fault => some (s.setUpdate i (.failed fault))
  | _, _ => none

/-- An update asks the cache for the image of its next item. -/
def look? (s : Service) (i : Nat) : Option Service :=
  match s.updates[i]?, s.cache with
  | some (.looking feed calls), some c =>
    match feed.items[calls.length]? with
    | some item =>
      some (({ s with cache := some { c with state := c.state.beginCall c.policy .resolve item.imageUrl } }).setUpdate i
        (.looking feed (calls ++ [c.state.calls.length])))
    | none => none
  | _, _ => none

/-- The references to the images of some items: without a cache at once, with one when all calls are answered. -/
def references? (s : Service) (items : List VideoItem) (calls : List Nat) : Option (List ImageRef) :=
  match s.cache with
  | none => some (items.map Snapshot.uncachedRef)
  | some c => if calls.length = items.length then calls.mapM c.state.answer? else none

/-- An update puts its items together with their images. -/
def gather? (s : Service) (i : Nat) : Option Service :=
  match s.updates[i]? with
  | some (.looking feed calls) =>
    (s.references? feed.items calls).map fun refs =>
      s.setUpdate i (.gathered (List.zipWith FeedEntry.mk feed.items refs) feed.failedSources)
  | _ => none

/-- An update reads the clock. -/
def stamp? (s : Service) (i : Nat) : Option Service :=
  match s.updates[i]? with
  | some (.gathered entries failed) => some (s.setUpdate i (.stamped ⟨entries, failed, Instant.ofNanos s.clock⟩))
  | _ => none

/-- The snapshot of an update becomes the current one. -/
def publish? (s : Service) (i : Nat) : Option Service :=
  match s.updates[i]? with
  | some (.stamped snapshot) => some { s.setUpdate i (.published snapshot) with snapshot := some snapshot }
  | _ => none

/-- The service after an event, if it is possible. -/
def step? (s : Service) : Event → Option Service
  | .tick nanos => some (s.tick nanos)
  | .cache e => s.cacheStep? e
  | .update => some { s with updates := s.updates ++ [.fetching] }
  | .fetch i outcome => s.fetch? i outcome
  | .look i => s.look? i
  | .gather i => s.gather? i
  | .stamp i => s.stamp? i
  | .publish i => s.publish? i

/-- The service after a list of events, if each is possible in its turn. -/
def steps? : Service → List Event → Option Service
  | s, [] => some s
  | s, e :: es => (s.step? e).bind fun next => steps? next es

/-- The service after those of a list of events that are possible in their turn. -/
def attempt : Service → List Event → Service
  | s, [] => s
  | s, e :: es => attempt ((s.step? e).getD s) es

/-- What a cycle of fetching over a network yields now. -/
def fetched (s : Service) (network : Http.Network) : Except Fault MergedFeed :=
  Feed.fetchAll network s.settings (Instant.ofNanos s.clock)

/-- What an update does after it has asked for the images of all its items. -/
def complete (update : Nat) : List Event :=
  [.gather update, .stamp update, .publish update]

/-- How many items an update has still to ask an image for. -/
def unasked (s : Service) (i : Nat) : Nat :=
  match s.updates[i]? with
  | some (.looking feed calls) => feed.items.length - calls.length
  | _ => 0

/-- An update begins: it fetches over a network and asks for all images at once. -/
def beginUpdate (s : Service) (network : Http.Network) : Service :=
  let i := s.updates.length
  let s := s.attempt [.update, .fetch i (s.fetched network)]
  let first := ((s.cache.map (·.state.calls.length)).getD 0)
  let places := (List.range (s.unasked i)).map (first + ·)
  s.attempt (List.replicate (s.unasked i) (.look i)
    ++ places.map (fun c => .cache (.register c)) ++ places.map (fun c => .cache (.lookAgain c)))

end ChannelWatch.Service
