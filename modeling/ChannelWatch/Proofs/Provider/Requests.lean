import ChannelWatch.Proofs.Text.Search
import ChannelWatch.Proofs.Url.Form
import ChannelWatch.Proofs.Url.Web
import ChannelWatch.Provider.Request

/-!
# Requests name their sources

Under a base URL of the web that has plain segments (`BaseUrl`), each source has one request, in the order of the sources: its path is
that of the base and then the provider's endpoint, and its query has one pair that names the source (`VideoSettings.requests_name`),
whatever characters its id has.
-/

namespace ChannelWatch

/-- A string that has the characters of another one before some others is that one with the others behind it. -/
theorem Text.eq_append_ofList {start text : String} {rest : List Char} (h : text.toList = start.toList ++ rest) :
    text = start ++ String.ofList rest := by
  rw [← String.toList_inj, h, String.toList_append]
  exact congrArg _ String.toList_ofList.symm

/-! ## Base URLs -/

/-- A base URL of the web: an origin, segments, and slashes at its end. -/
structure BaseUrl where
  origin : Origin
  segments : List (List Char)
  slashes : Nat

namespace BaseUrl

/-- The segments with a slash before each. -/
def path (b : BaseUrl) : List Char :=
  b.segments.flatMap ('/' :: ·)

/-- The base URL as it is written. -/
def text (b : BaseUrl) : String :=
  String.ofList (b.origin.text ++ b.path ++ List.replicate b.slashes '/')

/-- A base URL on a host whose segments have letters and digits of ASCII only. -/
structure IsAt (b : BaseUrl) (host : UrlHost) : Prop where
  /-- The origin names the host. -/
  origin : b.origin.IsAt host
  /-- The segments are not empty and have letters and digits. -/
  segments : ∀ s ∈ b.segments, s ≠ [] ∧ ∀ c ∈ s, Text.isLetter c = true ∨ Text.isDigit c = true

/-- Before the slashes at its end a base URL ends in a word without slashes: its last segment, or else its host and port. -/
theorem IsAt.exists_word {b : BaseUrl} {host : UrlHost} (hb : b.IsAt host) :
    ∃ start word, b.origin.text ++ b.path = start ++ word ∧ word ≠ [] ∧ ∀ c ∈ word, c ≠ '/' := by
  rcases List.eq_nil_or_concat b.segments with hnone | ⟨before, last, hlast⟩
  · have htext : b.origin.text ++ b.path = b.origin.scheme ++ [':', '/', '/'] ++ b.origin.server := by
      simp [Origin.text, path, hnone]
    refine ⟨_, b.origin.server, htext, Url.server_ne_nil hb.origin, ?_⟩
    rintro c hc rfl
    exact (Url.plain_of_mem_server hb.origin '/' hc).2 (by decide)
  · rw [List.concat_eq_append] at hlast
    have htext : b.origin.text ++ b.path = b.origin.text ++ before.flatMap ('/' :: ·) ++ ['/'] ++ last := by
      simp [path, hlast]
    obtain ⟨hsome, hplain⟩ := hb.segments last (by simp [hlast])
    refine ⟨_, last, htext, hsome, ?_⟩
    rintro c hc rfl
    exact absurd (hplain '/' hc) (by decide)

end BaseUrl

/-! ## What sources mean -/

namespace SourceId

/-- What a source means that is written down: with its mark it is a playlist of what follows the mark, and else a channel. -/
inductive Means : SourceId → Bool → String → Prop
  | playlist (id : String) : Means ⟨"playlist:" ++ id⟩ true id
  | channel {id : String} (unmarked : ¬"playlist:".toList <+: id.toList) : Means ⟨id⟩ false id

/-- The kind and the id of a source are what it means. -/
theorem means_iff {source : SourceId} {isPlaylist : Bool} {id : String} :
    source.Means isPlaylist id ↔ source.isPlaylist = isPlaylist ∧ source.id = id := by
  have hmarked : ∀ rest : String, playlistId? ⟨"playlist:" ++ rest⟩ = some rest := fun rest => by
    rw [playlistId?, playlistMark, String.toList_append, Text.stripStart?_append, Option.map_some, String.ofList_toList]
  have hunmarked : ∀ written : String, ¬"playlist:".toList <+: written.toList → playlistId? ⟨written⟩ = none := by
    intro written hnot
    rw [playlistId?, playlistMark, Text.stripStart?_eq_none_iff.mpr hnot, Option.map_none]
  constructor
  · rintro (_ | hnot)
    · simp [isPlaylist, SourceId.id, hmarked]
    · simp [isPlaylist, SourceId.id, hunmarked _ hnot]
  · rintro ⟨rfl, rfl⟩
    obtain ⟨written⟩ := source
    by_cases hmark : "playlist:".toList <+: written.toList
    · obtain ⟨rest, hrest⟩ := hmark
      obtain rfl := Text.eq_append_ofList hrest.symm
      simp only [isPlaylist, SourceId.id, hmarked]
      exact .playlist _
    · simp only [isPlaylist, SourceId.id, hunmarked _ hmark]
      exact .channel hmark

end SourceId

namespace VideoSettings

/-- The base URL of the provider as it is written in the settings. -/
def writtenBase (v : VideoSettings) : String :=
  match v.provider with
  | .bilibili => v.bilibiliBase
  | .youtube => v.youtubeBase

/-- The pair that a source is asked for with, key and value. -/
inductive Asks (v : VideoSettings) (source : SourceId) : String → String → Prop
  /-- The author of an archive. -/
  | author {isPlaylist : Bool} {id : String} (provider : v.provider = .bilibili) (means : source.Means isPlaylist id) :
      Asks v source "vmid" id
  /-- A playlist. -/
  | playlist {id : String} (provider : v.provider = .youtube) (means : source.Means true id) : Asks v source "playlist_id" id
  /-- A channel without its shorts. -/
  | uploads {rest : String} (provider : v.provider = .youtube) (means : source.Means false ("UC" ++ rest))
      (shorts : v.includeShorts = false) : Asks v source "playlist_id" ("UULF" ++ rest)
  /-- Any other channel, and one with its shorts. -/
  | channel {id : String} (provider : v.provider = .youtube) (means : source.Means false id)
      (whole : v.includeShorts = true ∨ ¬"UC".toList <+: id.toList) : Asks v source "channel_id" id

/-- A source is asked for with the pair that is made for it. -/
theorem asks_sourcePair (v : VideoSettings) (source : SourceId) :
    v.Asks source (v.sourcePair source).1 (v.sourcePair source).2 := by
  have means : source.Means source.isPlaylist source.id := SourceId.means_iff.mpr ⟨rfl, rfl⟩
  cases provider : v.provider with
  | bilibili =>
    simp only [sourcePair, provider]
    exact .author provider means
  | youtube =>
    simp only [sourcePair, provider, YouTube.sourcePair]
    cases hkind : source.isPlaylist with
    | true =>
      rw [hkind] at means
      exact .playlist provider means
    | false =>
      rw [hkind] at means
      cases hstart : Text.stripStart? "UC".toList source.id.toList with
      | none => exact .channel provider means (Or.inr (Text.stripStart?_eq_none_iff.mp hstart))
      | some rest =>
        cases hshorts : v.includeShorts with
        | true => exact .channel provider means (Or.inl hshorts)
        | false =>
          have hid := Text.eq_append_ofList (Text.eq_append_of_stripStart? hstart)
          exact .uploads provider (hid ▸ means) hshorts

/-- A source is asked for with one pair only. -/
theorem Asks.eq_sourcePair {v : VideoSettings} {source : SourceId} {key value : String} (h : v.Asks source key value) :
    v.sourcePair source = (key, value) := by
  cases h with
  | author provider means =>
    obtain ⟨-, hid⟩ := SourceId.means_iff.mp means
    simp only [sourcePair, provider, Bilibili.sourcePair, hid]
  | playlist provider means =>
    obtain ⟨hkind, hid⟩ := SourceId.means_iff.mp means
    simp only [sourcePair, provider, YouTube.sourcePair, hkind, hid, if_true]
  | uploads provider means shorts =>
    obtain ⟨hkind, hid⟩ := SourceId.means_iff.mp means
    simp only [sourcePair, provider, YouTube.sourcePair, hkind, hid, shorts, String.toList_append, Text.stripStart?_append,
      String.ofList_toList, if_neg Bool.false_ne_true]
  | channel provider means whole =>
    obtain ⟨hkind, hid⟩ := SourceId.means_iff.mp means
    simp only [sourcePair, provider, YouTube.sourcePair, hkind, hid, if_neg Bool.false_ne_true]
    cases hstart : Text.stripStart? "UC".toList value.toList with
    | none => rfl
    | some rest =>
      have hnot : ¬¬"UC".toList <+: value.toList := not_not_intro ⟨rest, (Text.eq_append_of_stripStart? hstart).symm⟩
      simp only [whole.resolve_right hnot, if_true]

/-- The pairs that a source may be asked for with are one. -/
theorem asks_iff {v : VideoSettings} {source : SourceId} {key value : String} :
    v.Asks source key value ↔ v.sourcePair source = (key, value) := by
  refine ⟨Asks.eq_sourcePair, fun h => ?_⟩
  have hasks := v.asks_sourcePair source
  rw [h] at hasks
  exact hasks

/-! ## What is requested -/

/-- No slashes are left at the end of a base URL. -/
theorem base_eq {v : VideoSettings} {b : BaseUrl} {host : UrlHost} (hb : b.IsAt host) (hbase : v.writtenBase = b.text) :
    v.base = String.ofList (b.origin.text ++ b.path) := by
  have hdrop : v.base = String.ofList (Text.dropEndWhile (· = '/') v.writtenBase.toList) := by
    unfold base writtenBase
    cases v.provider <;> rfl
  have hslashes : Text.dropEndWhile (· = '/') (List.replicate b.slashes '/') = [] :=
    List.rdropWhile_eq_nil_iff.mpr fun c hc => decide_eq_true (List.eq_of_mem_replicate hc)
  obtain ⟨start, word, htext, hne, hword⟩ := hb.exists_word
  rw [hdrop, hbase, BaseUrl.text, String.toList_ofList, htext,
    Text.dropEndWhile_append hne (fun c hc => decide_eq_false (hword c hc)), hslashes, List.append_nil]

/-- The endpoints are paths of plain segments. -/
theorem exists_endpoint (v : VideoSettings) : ∃ parts : List (List Char), parts ≠ [] ∧ (∀ s ∈ parts, Url.IsPlainSegment s) ∧
    v.endpoint.toList = parts.flatMap ('/' :: ·) := by
  unfold endpoint
  cases v.provider with
  | bilibili =>
    refine ⟨["x".toList, "v2".toList, "space".toList, "archive".toList, "cursor".toList], by decide, ?_, by decide⟩
    simp [Url.IsPlainSegment, Text.isLetter, Text.isDigit]
  | youtube =>
    refine ⟨["feeds".toList, "videos.xml".toList], by decide, ?_, by decide⟩
    simp [Url.IsPlainSegment, Text.isLetter, Text.isDigit]

/-- A request for a URL at an origin goes there. -/
theorem target_origin {o : Origin} {host : UrlHost} (ho : o.IsAt host) {parts : List (List Char)} (hne : parts ≠ [])
    (h : ∀ s ∈ parts, Url.IsPlainSegment s) :
    Http.target (String.ofList (o.text ++ parts.flatMap ('/' :: ·))) = .ok (o.url host parts) := by
  have hhost : (o.url host parts).hasHost = true := decide_eq_true (Url.ne_empty_of_ofText ho.names).2
  have hsame : (o.url host parts).withoutCredentials = o.url host parts := by
    have hnobody : Utf8.decode? (Percent.decode []) = some [] := by decide
    simp [Origin.url, Url.withoutCredentials, hnobody]
  rw [Http.target, Url.parse_origin ho hne h]
  simp only [if_pos hhost, hsame]

/-- The request for a source under a base URL. -/
structure IsFor (v : VideoSettings) (b : BaseUrl) (host : UrlHost) (source : SourceId) (r : Http.Request) : Prop where
  /-- It goes where the base URL leads. -/
  scheme : r.url.scheme = b.origin.scheme
  authority : r.url.authority = some ⟨[], [], host, b.origin.port?⟩
  /-- The path is that of the base without slashes at its end, and then the provider's endpoint. -/
  path : r.url.path.render = b.path ++ v.endpoint.toList
  /-- One pair names the source, and the query has this pair only. -/
  query : ∃ key value, (∀ k w, v.Asks source k w ↔ (key, value) = (k, w)) ∧ r.url.pairs = [(key.toList, value.toList)]
  /-- There is no fragment. -/
  fragment : r.url.fragment = none

/-- There is a request for each source. -/
theorem exists_request {v : VideoSettings} {b : BaseUrl} {host : UrlHost} (hb : b.IsAt host) (hbase : v.writtenBase = b.text)
    (source : SourceId) : ∃ r, v.request source = .ok r ∧ v.IsFor b host source r ∧
      r.url.pairs = [((v.sourcePair source).1.toList, (v.sourcePair source).2.toList)] := by
  obtain ⟨parts, hne, hparts, hendpoint⟩ := v.exists_endpoint
  have hsegments : ∀ s ∈ b.segments ++ parts, Url.IsPlainSegment s := by
    refine List.forall_mem_append.mpr ⟨fun s hs => ?_, hparts⟩
    obtain ⟨hsome, hchars⟩ := hb.segments s hs
    obtain ⟨c, cs, rfl⟩ := List.exists_cons_of_ne_nil hsome
    refine ⟨fun d hd => (hchars d hd).imp_right Or.inl, c, List.mem_cons_self, ?_⟩
    rintro rfl
    exact absurd (hchars '.' List.mem_cons_self) (by decide)
  have hall : b.segments ++ parts ≠ [] := List.append_ne_nil_of_right_ne_nil _ hne
  have htext : v.base ++ v.endpoint = String.ofList (b.origin.text ++ (b.segments ++ parts).flatMap ('/' :: ·)) := by
    rw [← String.toList_inj, String.toList_append, base_eq hb hbase, String.toList_ofList, String.toList_ofList, hendpoint,
      List.flatMap_append, BaseUrl.path, List.append_assoc]
  have hrequest : v.request source = .ok ⟨(b.origin.url host (b.segments ++ parts)).addPair (v.sourcePair source),
      v.requestTimeout, v.headers.1, v.headers.2⟩ := by
    rw [request, htext, target_origin hb.origin hall hsegments]
    rfl
  have hpairs : ((b.origin.url host (b.segments ++ parts)).addPair (v.sourcePair source)).pairs =
      [((v.sourcePair source).1.toList, (v.sourcePair source).2.toList)] := by
    have hone := Form.decodePairs_encodePairs [v.sourcePair source]
    rw [Form.encodePairs, List.map_singleton, List.intercalate_singleton] at hone
    exact hone
  refine ⟨_, hrequest, ⟨rfl, rfl, ?_, ⟨_, _, fun k w => asks_iff, hpairs⟩, rfl⟩, hpairs⟩
  rw [hendpoint, BaseUrl.path, ← List.flatMap_append]
  rfl

/-- The requests for sources under a base URL. -/
structure RequestsName (v : VideoSettings) (b : BaseUrl) (host : UrlHost) : Prop where
  /-- There is one request for each source, in the order of the sources. -/
  inOrder : v.requests.length = v.sources.length ∧ ∀ (i : Nat) (source : SourceId), v.sources[i]? = some source →
    ∃ r : Http.Request, v.requests[i]? = some (Except.ok r) ∧ v.IsFor b host source r
  /-- A playlist is asked for with the id that the settings have. -/
  playlists : ∀ (j : Nat) (p : String), v.playlists[j]? = some p → ∃ (r : Http.Request) (key : String),
    v.requests[v.channels.length + j]? = some (Except.ok r) ∧ (key = "vmid" ∨ key = "playlist_id") ∧
      r.url.pairs = [(key.toList, p.toList)]

/-- With a base URL of the web the requests name exactly their sources. -/
theorem requests_name {v : VideoSettings} {b : BaseUrl} {host : UrlHost} (hb : b.IsAt host) (hbase : v.writtenBase = b.text) :
    v.RequestsName b host := by
  have hrequest : ∀ (i : Nat) (source : SourceId), v.sources[i]? = some source → ∃ r : Http.Request,
      v.requests[i]? = some (Except.ok r) ∧ v.IsFor b host source r ∧
        r.url.pairs = [((v.sourcePair source).1.toList, (v.sourcePair source).2.toList)] := by
    intro i source hsource
    obtain ⟨r, hr, hfor, hpairs⟩ := exists_request hb hbase source
    exact ⟨r, by rw [requests, List.getElem?_map, hsource, Option.map_some, hr], hfor, hpairs⟩
  refine ⟨⟨List.length_map _, fun i source hsource => ?_⟩, fun j p hp => ?_⟩
  · obtain ⟨r, hr, hfor, -⟩ := hrequest i source hsource
    exact ⟨r, hr, hfor⟩
  · have hsource : v.sources[v.channels.length + j]? = some (SourceId.playlist p) := by
      rw [sources, List.getElem?_append_right (by simp), List.length_map, Nat.add_sub_cancel_left, List.getElem?_map, hp,
        Option.map_some]
    obtain ⟨r, hr, -, hpairs⟩ := hrequest _ _ hsource
    have hmeans : (SourceId.playlist p).Means true p := .playlist p
    cases provider : v.provider with
    | bilibili =>
      rw [(Asks.author provider hmeans).eq_sourcePair] at hpairs
      exact ⟨r, "vmid", hr, Or.inl rfl, hpairs⟩
    | youtube =>
      rw [(Asks.playlist provider hmeans).eq_sourcePair] at hpairs
      exact ⟨r, "playlist_id", hr, Or.inr rfl, hpairs⟩

/-- Settings with ids that read like marks, prefixes and queries, and a base URL with slashes at its end. -/
def awkward : VideoSettings :=
  { VideoSettings.standard with
    provider := .youtube
    channels := ["playlist:a&b=c", "UCUC%+#"]
    playlists := ["playlist:x y"]
    youtubeBase := "http://[::1]:8080/a1//" }

/-- Their base URL in its parts. -/
def awkwardBase : BaseUrl :=
  ⟨⟨false, "[::1]".toList, some "8080".toList⟩, ["a1".toList], 2⟩

/-- Only the first `UC` of an id is a prefix, and only the first mark of a playlist its mark. -/
theorem requests_name_awkward :
    awkwardBase.IsAt (.ipv6 [0, 0, 0, 0, 0, 0, 0, 1]) ∧ awkward.writtenBase = awkwardBase.text ∧
      (∃ r : Http.Request, awkward.requests[1]? = some (Except.ok r) ∧
        r.url.pairs = [("playlist_id".toList, "UULFUC%+#".toList)]) ∧
      ∃ (r : Http.Request) (key : String), awkward.requests[2]? = some (Except.ok r) ∧
        r.url.pairs = [(key.toList, "playlist:x y".toList)] := by
  have hinner : ∀ c ∈ "::1".toList, Url.isSolid c = true ∧ c ∉ "/\\?#@[]".toList := by simp [Url.isSolid]
  have hport : ∀ digits ∈ awkwardBase.origin.port, (∀ c ∈ digits, Text.isDigit c = true) ∧ Text.decimal digits ≤ 65535 := by
    rintro digits ⟨⟩
    exact ⟨List.all_eq_true.mp (by decide), by decide⟩
  have hsegments : ∀ s ∈ awkwardBase.segments, s ≠ [] ∧ ∀ c ∈ s, Text.isLetter c = true ∨ Text.isDigit c = true := by
    simp [awkwardBase, Text.isLetter, Text.isDigit]
  have hat : awkwardBase.IsAt (.ipv6 [0, 0, 0, 0, 0, 0, 0, 1]) := ⟨⟨.bracketed hinner, rfl, hport⟩, hsegments⟩
  have hbase : awkward.writtenBase = awkwardBase.text := by decide
  have hnames := requests_name hat hbase
  obtain ⟨r, hr, hfor⟩ := hnames.inOrder.2 1 ⟨"UCUC%+#"⟩ rfl
  obtain ⟨key, value, hone, hpairs⟩ := hfor.query
  have hasks : awkward.Asks ⟨"UCUC%+#"⟩ "playlist_id" ("UULF" ++ "UC%+#") := .uploads rfl (.channel (by decide)) rfl
  obtain ⟨rfl, rfl⟩ := Prod.mk.inj ((hone _ _).mp hasks)
  obtain ⟨other, otherKey, hother, -, hotherPairs⟩ := hnames.playlists 0 "playlist:x y" rfl
  exact ⟨hat, hbase, ⟨r, hr, hpairs⟩, other, otherKey, hother, hotherPairs⟩

end VideoSettings

end ChannelWatch
