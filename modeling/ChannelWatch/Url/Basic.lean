import ChannelWatch.Net.Address
import ChannelWatch.Url.Form

/-!
# URLs

A URL in its parts, each already in the form in which it is written: percent-encoded, with its dot segments resolved and
without the default port of its scheme.
-/

namespace ChannelWatch

/-- The host of a URL. -/
inductive UrlHost
  | empty
  | domain (name : List Char)
  | ipv4 (value : Nat)
  | ipv6 (groups : List Nat)
  deriving DecidableEq

/-- The authority of a URL: credentials, host and port. An empty password is none. -/
structure UrlAuthority where
  username : List Char
  password : List Char
  host : UrlHost
  port : Option Nat
  deriving DecidableEq

/-- The path of a URL: text that is not divided, or segments with a slash before each. -/
inductive UrlPath
  | bare (text : List Char)
  | rooted (segments : List (List Char))
  deriving DecidableEq

/-- A URL. -/
structure Url where
  scheme : List Char
  authority : Option UrlAuthority
  path : UrlPath
  query : Option (List Char)
  fragment : Option (List Char)
  deriving DecidableEq

namespace UrlHost

/-- The host as text. -/
def render : UrlHost → List Char
  | empty => []
  | domain name => name
  | ipv4 value => Net.renderOctets [value / Nat.pow 2 24, value / Nat.pow 2 16 % 256, value / 256 % 256, value % 256]
  | ipv6 groups => '[' :: Net.renderShort groups ++ [']']

end UrlHost

namespace UrlAuthority

/-- The credentials with their at sign, if there are any. -/
def renderUserInfo (a : UrlAuthority) : List Char :=
  if a.username.isEmpty ∧ a.password.isEmpty then []
  else a.username ++ (if a.password.isEmpty then [] else ':' :: a.password) ++ ['@']

/-- The authority as text. -/
def render (a : UrlAuthority) : List Char :=
  a.renderUserInfo ++ a.host.render ++ match a.port with
    | some port => ':' :: Text.ofNat port
    | none => []

end UrlAuthority

namespace UrlPath

/-- The path as text. -/
def render : UrlPath → List Char
  | bare text => text
  | rooted segments => segments.flatMap ('/' :: ·)

end UrlPath

namespace Url

/-- The text after the scheme and before the query; a path of two slashes without an authority is kept from reading as
one. -/
def renderBody (u : Url) : List Char :=
  match u.authority, u.path with
  | some a, path => "//".toList ++ a.render ++ path.render
  | none, .rooted ([] :: s :: rest) => "/.".toList ++ (UrlPath.rooted ([] :: s :: rest)).render
  | none, path => path.render

/-- A part of a URL behind the character that begins it, if the URL has it. -/
def renderPart (mark : Char) : Option (List Char) → List Char
  | some text => mark :: text
  | none => []

/-- The URL as text. -/
def chars (u : Url) : List Char :=
  u.scheme ++ ':' :: u.renderBody ++ renderPart '?' u.query ++ renderPart '#' u.fragment

/-- The URL as text. -/
def render (u : Url) : String :=
  String.ofList u.chars

/-- The URL names a host. -/
def hasHost (u : Url) : Bool :=
  match u.authority with
  | some a => a.host ≠ .empty
  | none => false

/-- The URL is for the web. -/
def isWeb (u : Url) : Bool :=
  u.scheme = "http".toList || u.scheme = "https".toList

/-- The pairs of the URL's query. -/
def pairs (u : Url) : List (List Char × List Char) :=
  Form.decodePairs (u.query.getD [])

/-- The URL with one more pair at the end of its query. -/
def addPair (u : Url) (pair : String × String) : Url :=
  match u.query with
  | none | some [] => { u with query := some (Form.encodePair pair) }
  | some query => { u with query := some (query ++ '&' :: Form.encodePair pair) }

/-- The URL without its credentials. Credentials whose bytes are no text are left where they are: a user name always, a
password only beside an empty user name. -/
def withoutCredentials (u : Url) : Url :=
  match u.authority with
  | none => u
  | some a =>
    let username := Utf8.decode? (Percent.decode a.username)
    let password := if a.password.isEmpty then none else Utf8.decode? (Percent.decode a.password)
    if username.isSome ∧ (username ≠ some [] ∨ password.isSome) then
      { u with authority := some { a with username := [], password := [] } }
    else u

end Url

end ChannelWatch
