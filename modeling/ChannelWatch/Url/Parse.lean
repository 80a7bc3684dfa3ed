import ChannelWatch.Url.Host

/-!
# Reading URLs

`Url.parse` reads an absolute URL. Control characters and spaces around it and tabs and line breaks inside it do not
count. The schemes of the web and their like take any number of slashes, forward or backward, before their host; other
schemes have a host only behind exactly two slashes, and file URLs may do without one.
-/

namespace ChannelWatch.Url

/-- How a URL of a scheme is built. -/
inductive SchemeKind
  | web
  | file
  | other
  deriving DecidableEq

/-- The port that a scheme's URLs need not name. -/
def defaultPort? (scheme : List Char) : Option Nat :=
  if scheme = "http".toList ∨ scheme = "ws".toList then some 80
  else if scheme = "https".toList ∨ scheme = "wss".toList then some 443
  else if scheme = "ftp".toList then some 21
  else none

/-- The kind of a scheme. -/
def SchemeKind.of (scheme : List Char) : SchemeKind :=
  if scheme = "file".toList then .file
  else if (defaultPort? scheme).isSome then .web
  else .other

/-- A character of a scheme. -/
def isSchemeChar (c : Char) : Bool :=
  Text.isLetter c || Text.isDigit c || c = '+' || c = '-' || c = '.'

/-- The text without what does not count in a URL. -/
def clean (text : List Char) : List Char :=
  (Text.trimWhile (·.toNat ≤ 0x20) text).filter fun c => c ≠ '\t' && c ≠ '\n' && c ≠ '\r'

/-- The scheme in lowercase and the text after its colon. -/
def cutScheme? (text : List Char) : Option (List Char × List Char) :=
  match text.span isSchemeChar with
  | (c :: cs, ':' :: rest) => if Text.isLetter c then some ((c :: cs).map Char.toLower, rest) else none
  | _ => none

/-- A character that ends a segment of the path. -/
def isSlash (kind : SchemeKind) (c : Char) : Bool :=
  c = '/' || (kind ≠ .other && c = '\\')

/-- A segment that stands for its own directory. -/
def isDot (segment : List Char) : Bool :=
  segment.map Char.toLower ∈ [".".toList, "%2e".toList]

/-- A segment that stands for the directory above. -/
def isDoubleDot (segment : List Char) : Bool :=
  segment.map Char.toLower ∈ ["..".toList, ".%2e".toList, "%2e.".toList, "%2e%2e".toList]

/-- A letter and a colon or a bar: the name of a drive. -/
def isDrive : List Char → Bool
  | [c, d] => Text.isLetter c && (d = ':' || d = '|')
  | _ => false

/-- The path so far, last segment first, without its last segment; what reads as a drive stays, whatever the scheme. -/
def dropLast : List (List Char) → List (List Char)
  | [] => []
  | s :: rest => if isDrive s then s :: rest else rest

/-- A segment as it stands in the path; a file's path that begins with a drive writes it with a colon. -/
def encodeSegment (kind : SchemeKind) (isFirst : Bool) (segment : List Char) : List Char :=
  if kind = .file ∧ isFirst ∧ isDrive segment then segment.take 1 ++ [':'] else Percent.encode Percent.inPath segment

/-- The path so far, last segment first, with the segments still to come: dot segments are resolved, and one that comes
last leaves an empty segment. -/
def resolve (kind : SchemeKind) (done : List (List Char)) : List (List Char) → List (List Char)
  | [] => done
  | s :: rest =>
    if isDoubleDot s then resolve kind (if rest.isEmpty then [] :: dropLast done else dropLast done) rest
    else if isDot s then resolve kind (if rest.isEmpty then [] :: done else done) rest
    else resolve kind (encodeSegment kind done.isEmpty s :: done) rest

/-- The segments of a file's path: it does not begin with empty ones. -/
def dropEmpty : List (List Char) → List (List Char)
  | [] :: s :: rest => dropEmpty (s :: rest)
  | segments => segments

/-- The segments of a path with its dot segments resolved, from the text after its first slash. -/
def resolved (kind : SchemeKind) (text : List Char) : List (List Char) :=
  (resolve kind [] (Text.splitOn (isSlash kind) text)).reverse

/-- The segments of a path, from the text after its first slash. -/
def segments (kind : SchemeKind) (text : List Char) : List (List Char) :=
  if kind = .file then dropEmpty (resolved kind text) else resolved kind text

/-- The path behind an authority: empty only outside the web, and with a first slash even if none is written. -/
def pathAfterHost (kind : SchemeKind) : List Char → UrlPath
  | [] => if kind = .other then .rooted [] else .rooted [[]]
  | c :: cs => if isSlash kind c then .rooted (segments kind cs) else .rooted (segments kind (c :: cs))

/-- The text of a host and, behind a colon outside brackets, the text after it. -/
def cutPort (inside : Bool) : List Char → List Char × Option (List Char)
  | [] => ([], none)
  | c :: cs =>
    if c = ':' ∧ ¬inside then ([], some cs)
    else
      let (host, port) := cutPort (if c = '[' then true else if c = ']' then false else inside) cs
      (c :: host, port)

/-- The user name and password of a URL's credentials. -/
def credentials (text : List Char) : List Char × List Char :=
  let (user, password) := Text.cutAt ':' text
  (Percent.encode Percent.inUserInfo user, Percent.encode Percent.inUserInfo (password.getD []))

/-- The port that a text gives, unless it is the scheme's own, and the text left for the path. -/
def port (scheme text : List Char) : Except UrlFault (Option Nat × List Char) :=
  let digits := text.takeWhile Text.isDigit
  let rest := text.drop digits.length
  let value := Text.decimal digits
  if 65535 < value ∨ (rest.head? ≠ none ∧ rest.head? ≠ some '\\') then .error .badPort
  else .ok (if digits.isEmpty ∨ defaultPort? scheme = some value then none else some value, rest)

/-- The authority of a URL and its path, from the text after the slashes before its host; `more` tells that a query or a
fragment follows. -/
def withAuthority (scheme : List Char) (kind : SchemeKind) (more : Bool) (text : List Char) :
    Except UrlFault (UrlAuthority × UrlPath) := do
  let (authority, path) := text.span (!isSlash kind ·)
  let (user, server) := Text.cutAtLast '@' authority
  if user = some [] ∧ server.isEmpty ∧ (more ∨ !path.isEmpty) then throw .emptyHost
  let (username, password) := credentials (user.getD [])
  let (hostText, portText) := cutPort false server
  if kind = .web ∧ hostText.isEmpty then throw .emptyHost
  let host ← if kind = .web then UrlHost.ofText hostText else UrlHost.ofForeignText hostText
  if host = .empty ∧ portText.isSome then throw .emptyHost
  let (port, rest) ← match portText with
    | some text => port scheme text
    | none => pure (none, [])
  if host = .empty ∧ !(username.isEmpty && password.isEmpty) then throw .emptyHost
  pure (⟨username, password, host, port⟩, pathAfterHost kind (rest ++ path))

/-- The authority of a file on a host. -/
def fileAuthority (host : UrlHost) : UrlAuthority :=
  ⟨[], [], host, none⟩

/-- The path of a file on a host begins with a drive. -/
def beginsWithDrive (text : List Char) : Bool :=
  match resolved .file text with
  | first :: _ => isDrive first
  | [] => false

/-- The host of a file and its path, from the text after the two slashes before the host. The machine itself is written
as no host, a drive is no host, and a path that begins with a drive has none. The slash before a path without a host is
one more empty segment in front of it. -/
def fileOnHost (text : List Char) : Except UrlFault (UrlAuthority × UrlPath) := do
  let (hostText, path) := text.span (!isSlash .file ·)
  if isDrive hostText then pure (fileAuthority .empty, .rooted (segments .file text))
  else
    let host ← if hostText.isEmpty then pure .empty else UrlHost.ofText hostText
    if host = .empty ∨ host = .domain "localhost".toList then
      pure (fileAuthority .empty, .rooted (segments .file path))
    else
      let path := path.drop 1
      pure (fileAuthority (if beginsWithDrive path then .empty else host), .rooted (segments .file path))

/-- The host of a file and its path. -/
def fileBody (text : List Char) : Except UrlFault (UrlAuthority × UrlPath) :=
  match text with
  | a :: b :: rest =>
    if isSlash .file a ∧ isSlash .file b then fileOnHost rest
    else .ok (fileAuthority .empty, pathAfterHost .file text)
  | _ => .ok (fileAuthority .empty, pathAfterHost .file text)

/-- The authority and path of a URL, from the text between its scheme and its query. -/
def body (scheme : List Char) (more : Bool) (text : List Char) : Except UrlFault (Option UrlAuthority × UrlPath) :=
  match SchemeKind.of scheme with
  | .web => do
    let (authority, path) ← withAuthority scheme .web more (text.dropWhile (isSlash .web))
    pure (some authority, path)
  | .file => do
    let (authority, path) ← fileBody text
    pure (some authority, path)
  | .other =>
    match Text.stripStart? "//".toList text, text with
    | some rest, _ => do
      let (authority, path) ← withAuthority scheme .other more rest
      pure (some authority, path)
    | none, '/' :: rest => .ok (none, .rooted (segments .other rest))
    | none, _ => .ok (none, .bare (Percent.encode Percent.isControl text))

/-- The URL that a text is. -/
def parse (text : String) : Except UrlFault Url :=
  match cutScheme? (clean text.toList) with
  | none => .error .relativeWithoutBase
  | some (scheme, rest) => do
    let (rest, fragment) := Text.cutAt '#' rest
    let (rest, query) := Text.cutAt '?' rest
    let (authority, path) ← body scheme (query.isSome || fragment.isSome) rest
    let encodes := if SchemeKind.of scheme = .other then Percent.inQuery else Percent.inSpecialQuery
    pure ⟨scheme, authority, path, query.map (Percent.encode encodes), fragment.map (Percent.encode Percent.inFragment)⟩

end ChannelWatch.Url
