import ChannelWatch.Http.Exchange
import ChannelWatch.Http.Header
import ChannelWatch.Settings.Basic

/-!
# Image downloads

Images are fetched with the headers of a browser and copied piece by piece into a sink that may be too small. A copy
succeeds only if the whole body arrived and the sink took all of it.
-/

namespace ChannelWatch.Http

/-- What every image request sends. -/
structure AssetClient where
  timeout : Nat
  userAgent : String
  referer : String

/-- A setting as a header value. -/
def headerValue (key value : String) : Except Fault String :=
  if isHeaderValue value then .ok value
  else .error (.config "invalid header value: failed to parse header value" (some key))

/-- The client that cache settings describe. -/
def AssetClient.ofSettings (s : CacheSettings) : Except Fault AssetClient := do
  let referer ← headerValue "referer" s.referer
  let userAgent ← headerValue "user_agent" s.userAgent
  pure ⟨s.downloadTimeout, userAgent, referer⟩

/-- The request for the image behind a URL. -/
def AssetClient.request (c : AssetClient) (url : String) : Except NetworkFault Request :=
  (target url).map fun u => ⟨u, c.timeout, some c.userAgent, some c.referer⟩

/-- A sink: what it has taken, and how many more bytes it takes if there is a limit. -/
structure Sink where
  taken : List UInt8
  room : Option Nat

/-- An empty sink with a limit. -/
def Sink.empty (limit : Option Nat) : Sink :=
  ⟨[], limit⟩

/-- The sink after it has been given some bytes, and whether it took all of them. -/
def Sink.take (s : Sink) (bytes : List UInt8) : Sink × Bool :=
  match s.room with
  | none => (⟨s.taken ++ bytes, none⟩, true)
  | some room => (⟨s.taken ++ bytes.take room, some (room - bytes.length)⟩, bytes.length ≤ room)

/-- The pieces of a body copied into a sink: how many bytes were copied, and whether the sink took them all. -/
def copy (s : Sink) (written : Nat) : List (List UInt8) → Sink × Nat × Bool
  | [] => (s, written, true)
  | chunk :: rest =>
    match s.take chunk with
    | (s, true) => copy s (written + chunk.length) rest
    | (s, false) => (s, written, false)

/-- A response copied into a sink: how many bytes were written. `url` is the image's URL as it was asked for, `sent` the
one that the request went to. -/
def Response.copyInto (r : Response) (url sent : String) (s : Sink) : Except Fault Nat × Sink :=
  if !isSuccess r.status then (.error (.httpStatus r.status url), s)
  else match copy s 0 r.chunks with
    | (s, _, false) => (.error (.io .storageFull), s)
    | (s, written, true) => if r.complete then (.ok written, s) else (.error (.network (.brokenOff sent)), s)

/-- The image behind a URL copied into a sink. -/
def AssetClient.fetchInto (c : AssetClient) (network : Network) (url : String) (s : Sink) : Except Fault Nat × Sink :=
  match c.request url with
  | .error fault => (.error (.network fault), s)
  | .ok request =>
    match send network request with
    | .error fault => (.error (.network fault), s)
    | .ok response => response.copyInto url request.url.render s

end ChannelWatch.Http
