import ChannelWatch.Proofs.Link
import ChannelWatch.Proofs.Text.Replaced
import ChannelWatch.Proofs.Url.Form
import ChannelWatch.Proofs.Url.Parse
import ChannelWatch.Provider.YouTube

/-!
# Links from a template

With a template the link of an upload is the template with the id of the video put in, and nothing else of the link that the feed
gives counts (`YouTube.link_of_template`). The id is the first value for `v` among the pairs that the query of that link encodes.
-/

namespace ChannelWatch

/-! ## The pairs of a link -/

/-- The query of a link, which is a URL, encodes pairs. -/
inductive Url.Encodes (pairs : List (String × String)) (link : String) (url : Url) : Prop
  /-- The link is written with that query, and whatever fragment, behind a text without question marks and number signs. -/
  | written (start : List Char) (query fragment : Option (List Char))
      (link_eq : link.toList = start ++ renderPart '?' query ++ renderPart '#' fragment) (start_plain : '?' ∉ start ∧ '#' ∉ start)
      (query_eq : query.getD [] = Form.encodePairs pairs)
  /-- The URL has that query, however the link is written. -/
  | read (query_eq : url.query.getD [] = Form.encodePairs pairs)

/-- The pairs of a link's URL are those that its query encodes. -/
theorem Url.Encodes.pairs_eq {pairs : List (String × String)} {link : String} {url : Url} (h : url.Encodes pairs link)
    (hparse : Url.parse link = .ok url) : url.pairs = pairs.map fun pair => (pair.1.toList, pair.2.toList) := by
  have hquery : url.query.getD [] = Form.encodePairs pairs := by
    cases h with
    | read query_eq => exact query_eq
    | written start query fragment link_eq start_plain query_eq =>
      have hplain : ∀ text ∈ query, ∀ c ∈ text, c.toNat < 0x80 ∧ isSolid c = true ∧ Percent.inSpecialQuery c = false := by
        rintro text rfl c hc
        obtain rfl : text = Form.encodePairs pairs := query_eq
        obtain ⟨hascii, hsolid, hkept⟩ := Form.plain_of_mem_encodePairs hc
        exact ⟨hascii, decide_eq_true hsolid, hkept⟩
      rw [Url.query_eq hparse link_eq start_plain.1 start_plain.2 hplain, query_eq]
  rw [Url.pairs, hquery, Form.decodePairs_encodePairs]

namespace YouTube

/-- The id of the video that pairs name: the value of the first pair for `v`, and nothing if there is none. -/
inductive NamesVideo : List (String × String) → String → Prop
  | none {pairs : List (String × String)} (absent : ∀ pair ∈ pairs, pair.1 ≠ "v") : NamesVideo pairs ""
  | first {before : List (String × String)} (absent : ∀ pair ∈ before, pair.1 ≠ "v") (id : String) (after : List (String × String)) :
      NamesVideo (before ++ ("v", id) :: after) id

/-- Pairs name one video. -/
theorem namesVideo_iff {pairs : List (String × String)} {id : String} :
    NamesVideo pairs id ↔ ((pairs.find? (·.1 = "v")).map (·.2)).getD "" = id := by
  constructor
  · rintro (absent | ⟨absent, _, after⟩)
    · rw [List.find?_eq_none.mpr fun pair hpair => by simpa using absent pair hpair]
      rfl
    · rw [List.find?_append, List.find?_eq_none.mpr fun pair hpair => by simpa using absent pair hpair]
      simp
  · rintro rfl
    cases hfind : pairs.find? (·.1 = "v") with
    | none => exact .none fun pair hpair => by simpa using List.find?_eq_none.mp hfind pair hpair
    | some pair =>
      obtain ⟨hkey, before, after, rfl, hbefore⟩ := List.find?_eq_some_iff_append.mp hfind
      obtain ⟨key, id⟩ := pair
      obtain rfl : key = "v" := of_decide_eq_true hkey
      exact .first (fun other hother => by simpa using hbefore other hother) id after

/-- The id that is taken from a URL is the one that its pairs name. -/
theorem namesVideo_videoId {pairs : List (String × String)} {url : Url}
    (h : url.pairs = pairs.map fun pair => (pair.1.toList, pair.2.toList)) : NamesVideo pairs (videoId url) := by
  have hkey : ((fun pair : List Char × List Char => decide (pair.1 = ['v'])) ∘ fun pair : String × String =>
      (pair.1.toList, pair.2.toList)) = fun pair => decide (pair.1 = "v") :=
    funext fun pair => decide_eq_decide.mpr (@String.toList_inj pair.1 "v")
  refine namesVideo_iff.mpr ?_
  rw [videoId, h, List.find?_map, hkey]
  cases pairs.find? (·.1 = "v") with
  | none => rfl
  | some pair => exact String.ofList_toList.symm

/-- What the link of an upload is with a template, if the query of the link in the feed encodes pairs. -/
structure LinkFilled (template link : String) (pairs : List (String × String)) : Prop where
  /-- The pairs name one id, and there is one way to put it in the place of every placeholder; a leading `http://` is made secure
  after that. -/
  filled : ∃ id text, (∀ named, NamesVideo pairs named ↔ named = id) ∧
    (∀ result, Text.Replaced Link.placeholder.toList id.toList template.toList result ↔ result = text) ∧
    videoUrl template link = Link.secure (String.ofList text)
  /-- It is the same for any other link with that id, whatever else that link has. -/
  determined : ∀ (id other : String) (otherUrl : Url) (otherPairs : List (String × String)), Url.parse other = .ok otherUrl →
    otherUrl.Encodes otherPairs other → NamesVideo pairs id → NamesVideo otherPairs id →
    videoUrl template other = videoUrl template link
  /-- It never begins with `http://`. -/
  secure : ¬Link.IsInsecure (videoUrl template link)

/-- With a template that is not empty, the link of an upload whose link is a URL is the filled template. -/
theorem link_of_template {template link : String} {url : Url} {pairs : List (String × String)} (htemplate : template ≠ "")
    (hparse : Url.parse link = .ok url) (hpairs : url.Encodes pairs link) : LinkFilled template link pairs := by
  have hfill : ∀ {other : String} {otherUrl : Url}, Url.parse other = .ok otherUrl →
      videoUrl template other = Link.secure (Link.fillTemplate template (videoId otherUrl)) := by
    intro other otherUrl hother
    rw [videoUrl, if_neg (by simpa using htemplate), hother]
  have hnames := namesVideo_videoId (hpairs.pairs_eq hparse)
  have hone : ∀ named, NamesVideo pairs named ↔ named = videoId url := fun named => by
    rw [namesVideo_iff, namesVideo_iff.mp hnames, eq_comm]
  refine ⟨⟨videoId url, _, hone, fun result => Text.replaced_iff (by decide), hfill hparse⟩, ?_, ?_⟩
  · intro id other otherUrl otherPairs hother hotherPairs hid hotherId
    have hsame : videoId otherUrl = videoId url := by
      rw [← namesVideo_iff.mp (namesVideo_videoId (hotherPairs.pairs_eq hother)), namesVideo_iff.mp hotherId, (hone id).mp hid]
    rw [hfill hother, hfill hparse, hsame]
  · rw [hfill hparse]
    exact Link.not_isInsecure_secure _

/-- The pairs of a link whose id brings a scheme and a placeholder of its own. -/
def boldPairs : List (String × String) :=
  [("V", "1"), ("v", "http://\x7bVIDEO-ID\x7d"), ("v", "2 & 3")]

/-- A link with these pairs. -/
def boldLink : String :=
  "https://videos/watch?V=1&v=http%3A%2F%2F%7BVIDEO-ID%7D&v=2+%26+3#v=4"

/-- The id is put in once, the scheme that it brings is made secure, and what else the link has does not count. -/
theorem link_of_template_bold :
    "\x7bVIDEO-ID\x7d?" ≠ "" ∧ (∃ url, Url.parse boldLink = .ok url ∧ url.Encodes boldPairs boldLink) ∧
      LinkFilled "\x7bVIDEO-ID\x7d?" boldLink boldPairs ∧
      videoUrl "\x7bVIDEO-ID\x7d?" boldLink = "https://\x7bVIDEO-ID\x7d?" := by
  have htemplate : "\x7bVIDEO-ID\x7d?" ≠ "" := by decide
  have hparses : (Url.parse boldLink).toOption.isSome = true := by decide +kernel
  cases hparse : Url.parse boldLink with
  | error fault =>
    rw [hparse] at hparses
    nomatch hparses
  | ok url =>
    have hpairs : url.Encodes boldPairs boldLink :=
      .written "https://videos/watch".toList (some (Form.encodePairs boldPairs)) (some "v=4".toList) (by decide +kernel)
        (by decide) rfl
    exact ⟨htemplate, ⟨url, rfl, hpairs⟩, link_of_template htemplate hparse hpairs, by decide +kernel⟩

end YouTube

end ChannelWatch
