import ChannelWatch.Fault
import ChannelWatch.Http.Uri
import ChannelWatch.Text.Utf8
import ChannelWatch.Url.Parse

/-!
# Requests and responses

A request is a GET of a URL. The network is a function that says what answers a request, if anything does; `send` adds
what keeps a request from being sent at all.
-/

namespace ChannelWatch.Http

/-- A GET request; a header that is `none` is not set. -/
structure Request where
  url : Url
  timeout : Nat
  userAgent : Option String
  referer : Option String

/-- A response: its status, its body as it arrives in pieces, and whether the body arrived whole. -/
structure Response where
  status : Nat
  chunks : List (List UInt8)
  complete : Bool

/-- What answers a request: nothing where the connection fails. -/
abbrev Network := Request → Option Response

/-- A network in which nothing can be reached. -/
def Network.silent : Network :=
  fun _ => none

/-- The URL that a text names as the target of a request: it has a host, and its credentials are no part of it. -/
def target (text : String) : Except NetworkFault Url :=
  match Url.parse text with
  | .error fault => .error (.badUrl fault)
  | .ok url => if url.hasHost then .ok url.withoutCredentials else .error (.schemeNotAllowed url.render)

/-- A request without headers of its own. -/
def get (text : String) (timeout : Nat) : Except NetworkFault Request :=
  (target text).map fun url => ⟨url, timeout, none, none⟩

/-- The request sent over a network. -/
def send (network : Network) (request : Request) : Except NetworkFault Response :=
  let url := request.url.render
  if !request.url.isWeb then .error (.schemeNotAllowed url)
  else if (Target.ofText? url).isNone then .error (.notRequestable url)
  else match network request with
    | none => .error (.unreachable url)
    | some response => .ok response

/-- A status that reports success. -/
def isSuccess (status : Nat) : Bool :=
  200 ≤ status && status ≤ 299

/-- The body of a response as text: a byte order mark is dropped, and bytes that are no UTF-8 are replaced. -/
def Response.text (r : Response) : String :=
  String.ofList <| match Utf8.decodeLossy r.chunks.flatten with
    | '\uFEFF' :: rest => rest
    | text => text

/-- The body that answers a request, as text. -/
def fetchText (network : Network) (request : Request) : Except Fault String :=
  match send network request with
  | .error fault => .error (.network fault)
  | .ok response =>
    if !isSuccess response.status then .error (.httpStatus response.status request.url.render)
    else if !response.complete then .error (.network (.brokenOff request.url.render))
    else .ok response.text

end ChannelWatch.Http
