import ChannelWatch.Feed.Item
import ChannelWatch.Link
import ChannelWatch.Markup.Content
import ChannelWatch.Url.Parse

/-!
# YouTube uploads

The Atom document of a channel's or playlist's uploads: an author and entries. Elements are told apart by their local
names, those that nobody asks for are passed over, and any may be missing; but none that is asked for may come twice, and
the entries stand together.
-/

namespace ChannelWatch.YouTube

open Markup

/-- An entry of an uploads feed. -/
structure Entry where
  title : String
  published : String
  link : String
  image : String
  deriving DecidableEq

/-- An uploads feed. -/
structure Uploads where
  authorName : String
  authorUri : String
  entries : List Entry
  deriving DecidableEq

/-- A feed as far as it has been read: a part not met yet is `none`. -/
structure Uploads.Draft where
  author : Option (String × String)
  entries : Option (List Entry)
  listed : Option (List Char)

/-- The value for a field that may be filled once. -/
def once {α : Type} (field : Option α) (value : Except MarkupFault α) : Except MarkupFault (Option α) :=
  match field with
  | some _ => .error .malformed
  | none => value.map some

/-- The children of an element taken one after another: a run of text is looked at and passed over. -/
def eachElement {σ : Type} (take : σ → List Char → List Char → List Node → Except MarkupFault σ) :
    σ → List Node → Except MarkupFault σ
  | s, [] => .ok s
  | _, .broken :: _ => .error .malformed
  | s, .text chunks :: rest => do
    let _ ← runValue chunks
    eachElement take s rest
  | s, .element name attributes children :: rest => do
    let s ← take s name attributes children
    eachElement take s rest

/-- The attributes of an element that is asked for. -/
def attributesOf (text : List Char) : Except MarkupFault (List Attribute) :=
  match attributes? text with
  | some list => .ok list
  | none => .error .malformed

/-- The value of an attribute. -/
def attributeValue (a : Attribute) : Except MarkupFault String :=
  match unescape? a.value with
  | some value => .ok (String.ofList value)
  | none => .error .malformed

/-- The field after one attribute: the one asked for may fill it once. -/
def takeAttribute (key : List Char) (field : Option String) (a : Attribute) : Except MarkupFault (Option String) :=
  if a.key = key then once field (attributeValue a) else .ok field

/-- The value of an attribute of an element with nothing else to say, empty if it is missing. An element whose name is an
at sign and the attribute's counts for it. -/
def attributeOnly (key : String) (attributes : List Char) (children : List Node) : Except MarkupFault String := do
  let list ← attributesOf attributes
  let field ← list.foldlM (takeAttribute key.toList) none
  let field ← eachElement (fun field name _ inner =>
    if localName name = '@' :: key.toList then once field ((textOf inner).map String.ofList)
    else do skip inner; pure field) field children
  pure (field.getD "")

/-- The text of an element. -/
def stringOf (children : List Node) : Except MarkupFault String :=
  (textOf children).map String.ofList

/-- The author of a feed after one child of its element. -/
def takeAuthor (draft : Option String × Option String) (name _attributes : List Char) (children : List Node) :
    Except MarkupFault (Option String × Option String) :=
  if localName name = "name".toList then do pure (← once draft.1 (stringOf children), draft.2)
  else if localName name = "uri".toList then do pure (draft.1, ← once draft.2 (stringOf children))
  else do skip children; pure draft

/-- The author of a feed: a name and a link. -/
def author (attributes : List Char) (children : List Node) : Except MarkupFault (String × String) := do
  let _ ← attributesOf attributes
  let (name, uri) ← eachElement takeAuthor (none, none) children
  pure (name.getD "", uri.getD "")

/-- The image of an entry, from its media group. -/
def groupImage (attributes : List Char) (children : List Node) : Except MarkupFault String := do
  let _ ← attributesOf attributes
  let image ← eachElement (fun image name attributes inner =>
    if localName name = "thumbnail".toList then once image (attributeOnly "url" attributes inner)
    else do skip inner; pure image) none children
  pure (image.getD "")

/-- An entry as far as it has been read. -/
structure Entry.Draft where
  title : Option String
  published : Option String
  link : Option String
  image : Option String

/-- An entry after one child of its element. -/
def takeEntryPart (draft : Entry.Draft) (name attributes : List Char) (children : List Node) :
    Except MarkupFault Entry.Draft := do
  let key := localName name
  if key = "title".toList then pure { draft with title := ← once draft.title (stringOf children) }
  else if key = "published".toList then pure { draft with published := ← once draft.published (stringOf children) }
  else if key = "link".toList then pure { draft with link := ← once draft.link (attributeOnly "href" attributes children) }
  else if key = "group".toList then pure { draft with image := ← once draft.image (groupImage attributes children) }
  else do skip children; pure draft

/-- An entry. -/
def entry (attributes : List Char) (children : List Node) : Except MarkupFault Entry := do
  let _ ← attributesOf attributes
  let draft ← eachElement takeEntryPart ⟨none, none, none, none⟩ children
  pure ⟨draft.title.getD "", draft.published.getD "", draft.link.getD "", draft.image.getD ""⟩

/-- A feed after one child of its element that does not go on with a list of entries. -/
def takeFeedPart (draft : Uploads.Draft) (name attributes : List Char) (children : List Node) :
    Except MarkupFault Uploads.Draft := do
  let key := localName name
  if key = "author".toList then
    pure { draft with author := ← once draft.author (author attributes children), listed := none }
  else if key = "entry".toList then
    let entries ← once draft.entries ((entry attributes children).map fun e => [e])
    pure { draft with entries := entries, listed := some name }
  else do skip children; pure { draft with listed := none }

/-- A feed after the children of its element. While entries are listed, elements of the same full name go on with the
list, last one first, and text may not come between. -/
def takeFeed : Uploads.Draft → List Node → Except MarkupFault Uploads.Draft
  | draft, [] => .ok draft
  | _, .broken :: _ => .error .malformed
  | draft, .text chunks :: rest =>
    match draft.listed with
    | some _ => .error .malformed
    | none => do
      let _ ← runValue chunks
      takeFeed draft rest
  | draft, .element name attributes children :: rest =>
    if draft.listed = some name then do
      let e ← entry attributes children
      takeFeed { draft with entries := some (e :: draft.entries.getD []) } rest
    else do
      let draft ← takeFeedPart draft name attributes children
      takeFeed draft rest

/-- The feed that a document holds: its first element, whatever its name, is the feed. -/
def Uploads.ofNodes (nodes : List Node) : Except MarkupFault Uploads := do
  match nodes with
  | .element _ attributes children :: _ => do
    let _ ← attributesOf attributes
    let draft ← takeFeed ⟨none, none, none⟩ children
    let (name, uri) := draft.author.getD ("", "")
    pure ⟨name, uri, (draft.entries.getD []).reverse⟩
  | _ => throw .malformed

/-- The feed that a text holds. -/
def Uploads.read (text : String) : Except MarkupFault Uploads :=
  Uploads.ofNodes (Node.ofText text.toList)

/-- The id of the video that a link leads to: the first value for `v` in its query. -/
def videoId (link : Url) : String :=
  match link.pairs.find? (·.1 = ['v']) with
  | some pair => String.ofList pair.2
  | none => ""

/-- The link of an entry: its own, or the template with the video's id; a link that is no URL has no id and leads
nowhere. -/
def videoUrl (template link : String) : String :=
  if template.isEmpty then Link.secure link
  else match Url.parse link with
    | .ok url => Link.secure (Link.fillTemplate template (videoId url))
    | .error _ => "#"

/-- The item of an entry; a time that is not in RFC 3339 becomes `now`. -/
def Entry.item (feed : Uploads) (template : String) (now : Instant) (e : Entry) : VideoItem where
  title := e.title
  url := videoUrl template e.link
  author := feed.authorName
  authorUrl := feed.authorUri ++ "/videos"
  imageUrl := e.image
  published := (Instant.readStrict? e.published).getD now

/-- The items of a feed. -/
def Uploads.items (template : String) (now : Instant) (feed : Uploads) : List VideoItem :=
  feed.entries.map (Entry.item feed template now)

end ChannelWatch.YouTube
