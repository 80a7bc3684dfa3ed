import ChannelWatch.Proofs.Json.Printer
import ChannelWatch.Proofs.Json.Record
import ChannelWatch.Proofs.Places
import ChannelWatch.Provider.Bilibili

/-!
# Archives are recovered

What an archive says is recovered from every text that says it, whatever the order of its keys, its white space and its escapes, with
its defaults written or left out, and with any other keys beside its own.
-/

namespace ChannelWatch

namespace Json

/-- An integer has 64 bits. -/
def IsInt64 (n : Int) : Prop :=
  -(Nat.pow 2 63 : Nat) ≤ n ∧ n < (Nat.pow 2 63 : Nat)

/-- An integer of 64 bits is read from its value. -/
theorem asInt64?_int {n : Int} (h : IsInt64 n) : asInt64? (int n) = some n := by
  obtain ⟨hlow, hhigh⟩ := h
  have hbound : Nat.pow 2 63 = 9223372036854775808 := rfl
  rcases Int.lt_or_le n 0 with hneg | hnonneg
  · have hsize : 0 < n.natAbs ∧ n.natAbs ≤ Nat.pow 2 63 := by omega
    simp only [int, asInt64?, decide_eq_true hneg, if_pos hsize]
    exact congrArg some (by omega)
  · have hsize : n.natAbs < Nat.pow 2 63 := by omega
    simp only [int, asInt64?, decide_eq_false (Int.not_lt.mpr hnonneg), if_pos hsize]
    exact congrArg some (by omega)

end Json

namespace Bilibili

/-- The keys of a video. -/
def Video.keys (v : Video) : List Json.Key := [
  ⟨"title", (· = .text v.title), v.title = ""⟩,
  ⟨"cover", (· = .text v.cover), v.cover = ""⟩,
  ⟨"ctime", (· = .int v.uploaded), v.uploaded = 0⟩,
  ⟨"author", (· = .text v.author), v.author = ""⟩,
  ⟨"bvid", (· = .text v.id), v.id = ""⟩]

/-- A value says some videos, in their order. -/
def SaysVideos (videos : List Video) (j : Json) : Prop :=
  ∃ items, j = .array items ∧ List.Forall₂ (fun v (item : Json) => item.Carries v.keys) videos items

/-- A value says the payload of an archive. -/
def SaysPayload (videos : List Video) (j : Json) : Prop :=
  j.Carries [⟨"item", SaysVideos videos, videos = []⟩]

/-- A value says an archive. Its payload may not be left out: that would say that there is none. -/
def SaysArchive (code : Int) (message : String) (videos : List Video) (j : Json) : Prop :=
  j.Carries [
    ⟨"code", (· = .int code), code = 0⟩,
    ⟨"message", (· = .text message), message = ""⟩,
    ⟨"data", SaysPayload videos, False⟩]

/-- A video is read from a value that carries its keys. -/
theorem Video.ofJson?_of_carries {v : Video} {j : Json} (htime : Json.IsInt64 v.uploaded) (h : j.Carries v.keys) :
    ofJson? j = some v := by
  obtain ⟨given, hgiven, hkeys⟩ := Json.fields?_of_carries h
  obtain _ | ⟨htitle, _ | ⟨hcover, _ | ⟨hctime, _ | ⟨hauthor, _ | ⟨hid, _ | _⟩⟩⟩⟩⟩ := hkeys
  have htext : ∀ s v, v = Json.text s → v.asText? = some s := by
    rintro s _ rfl
    rfl
  have hint : ∀ v', v' = Json.int v.uploaded → v'.asInt64? = some v.uploaded := by
    rintro _ rfl
    exact Json.asInt64?_int htime
  simp only [keys, List.map_cons, List.map_nil] at hgiven
  simp only [ofJson?, hgiven, Option.bind_eq_bind, Option.bind_some, Json.field?_of_isGiven htitle (htext v.title) (fun h => h),
    Json.field?_of_isGiven hcover (htext v.cover) (fun h => h), Json.field?_of_isGiven hctime hint (fun h => h),
    Json.field?_of_isGiven hauthor (htext v.author) (fun h => h), Json.field?_of_isGiven hid (htext v.id) (fun h => h)]

/-- Videos are read from a value that says them. -/
theorem list?_of_saysVideos {videos : List Video} {j : Json} (htimes : ∀ v ∈ videos, Json.IsInt64 v.uploaded)
    (h : SaysVideos videos j) : Json.list? Video.ofJson? j = some videos := by
  obtain ⟨items, rfl, hitems⟩ := h
  rw [Json.list?, mapM_eq_some_iff]
  induction hitems with
  | nil => rfl
  | @cons v item videos items hitem _ ih =>
    rw [List.map_cons, List.map_cons, Video.ofJson?_of_carries (htimes v List.mem_cons_self) hitem,
      ih fun w hw => htimes w (List.mem_cons_of_mem v hw)]

/-- The payload is read from a value that says it. -/
theorem payloadOfJson?_of_saysPayload {videos : List Video} {j : Json} (htimes : ∀ v ∈ videos, Json.IsInt64 v.uploaded)
    (h : SaysPayload videos j) : payloadOfJson? j = some (some videos) := by
  obtain ⟨given, hgiven, hkeys⟩ := Json.fields?_of_carries h
  obtain _ | ⟨hitems, _ | _⟩ := hkeys
  obtain ⟨members, rfl, -⟩ := h
  simp only [List.map_cons, List.map_nil] at hgiven
  have hvideos : videosOfJson? (.record members) = some videos := by
    simp only [videosOfJson?, hgiven, Option.bind_eq_bind, Option.bind_some]
    exact Json.field?_of_isGiven hitems (fun _ hsaid => list?_of_saysVideos htimes hsaid) id
  rw [Json.record, payloadOfJson?, ← Json.record, hvideos]
  · rfl
  · intro h
    cases h

/-- An archive is read from a value that says it. -/
theorem Archive.ofJson?_of_saysArchive {code : Int} {message : String} {videos : List Video} {j : Json} (hcode : Json.IsInt64 code)
    (htimes : ∀ v ∈ videos, Json.IsInt64 v.uploaded) (h : SaysArchive code message videos j) :
    ofJson? j = some ⟨code, message, some videos⟩ := by
  obtain ⟨given, hgiven, hkeys⟩ := Json.fields?_of_carries h
  obtain _ | ⟨hgivenCode, _ | ⟨hmessage, _ | ⟨hpayload, _ | _⟩⟩⟩ := hkeys
  have hint : ∀ v, v = Json.int code → v.asInt64? = some code := by
    rintro _ rfl
    exact Json.asInt64?_int hcode
  have htext : ∀ v, v = Json.text message → v.asText? = some message := by
    rintro _ rfl
    rfl
  simp only [List.map_cons, List.map_nil] at hgiven
  simp only [ofJson?, hgiven, Option.bind_eq_bind, Option.bind_some, Json.field?_of_isGiven hgivenCode hint id,
    Json.field?_of_isGiven hmessage htext id,
    Json.field?_of_isGiven hpayload (fun _ hsaid => payloadOfJson?_of_saysPayload htimes hsaid) False.elim]

/-- An archive that a text says is recovered from it: the code, the message, and from its videos one item each in their order, with
the time of its upload wherever that can be represented. -/
theorem archive_recovered {code : Int} {message : String} {videos : List Video} {j : Json} {text : String}
    (hcode : Json.IsInt64 code) (htimes : ∀ v ∈ videos, Json.IsInt64 v.uploaded) (hsaid : SaysArchive code message videos j)
    (hwritten : j.Written text.toList) :
    ∃ a, Archive.read? text = some a ∧ a.code = code ∧ a.message = message ∧ a.videos = some videos ∧
      ∀ (source : SourceId) (template : String) (now : Instant),
        a.items source template now = videos.map fun v => {
          title := v.title
          url := Link.secure (if template = "" then "https://www.bilibili.com/video/" ++ v.id
            else Link.fillTemplate template v.id)
          author := v.author
          authorUrl := "https://space.bilibili.com/" ++ source.id
          imageUrl := v.cover
          published := if Instant.inRange v.uploaded then ⟨v.uploaded, 0⟩ else now } := by
  refine ⟨⟨code, message, some videos⟩, ?_, rfl, rfl, rfl, fun source template now => ?_⟩
  · rw [Archive.read?, Json.read?_of_written hwritten]
    exact Archive.ofJson?_of_saysArchive hcode htimes hsaid
  · refine List.map_congr_left fun v _ => ?_
    have hurl : (if template.isEmpty then videoUrl v.id else Link.fillTemplate template v.id)
        = if template = "" then "https://www.bilibili.com/video/" ++ v.id else Link.fillTemplate template v.id := by
      by_cases hempty : template = ""
      · exact (if_pos (String.isEmpty_iff.mpr hempty)).trans (if_pos hempty).symm
      · exact (if_neg fun h => hempty (String.isEmpty_iff.mp h)).trans (if_neg hempty).symm
    have htime : (Instant.ofSeconds? v.uploaded).getD now = if Instant.inRange v.uploaded then ⟨v.uploaded, 0⟩ else now := by
      rw [Instant.ofSeconds?]
      split <;> rfl
    rw [Video.item, hurl, htime]

/-- An archive with its keys in another order, one key more, and its defaults left out. -/
def reordered : String :=
  "\x7b\x22data\x22:\x7b\x22item\x22:[\x7b\x22bvid\x22:\x22BV1\x22,\x22ctime\x22:-1,\x22tag\x22:[null]," ++
    "\x22title\x22:\x22a\\\\\\n\x22\x7d]\x7d,\x22code\x22:-404\x7d"

/-- The archive in another order is recovered. -/
theorem archive_recovered_reordered :
    ∃ a, Archive.read? reordered = some a ∧ a.code = -404 ∧ a.message = "" ∧
      a.items ⟨"playlist:7"⟩ "http://v/\x7bVIDEO-ID\x7d" ⟨0, 0⟩ =
        [⟨"a\\\n", "https://v/BV1", "", "https://space.bilibili.com/7", "", ⟨-1, 0⟩⟩] := by
  let video : Video := ⟨"a\\\n", "", -1, "", "BV1"⟩
  let item : List (String × Json) :=
    [("bvid", .text "BV1"), ("ctime", .int (-1)), ("tag", .array [.null]), ("title", .text "a\\\n")]
  let payload : List (String × Json) := [("item", .array [.record item])]
  let archive : List (String × Json) := [("data", .record payload), ("code", .int (-404))]
  have hitem : (Json.record item).Carries video.keys := by
    refine ⟨item, rfl, ?_⟩
    simp only [Video.keys, List.forall_mem_cons]
    exact ⟨.inl ⟨_, rfl, item.take 3, [], rfl, by decide, by decide⟩, .inr ⟨rfl, by decide⟩,
      .inl ⟨_, rfl, item.take 1, item.drop 2, rfl, by decide, by decide⟩, .inr ⟨rfl, by decide⟩,
      .inl ⟨_, rfl, [], item.drop 1, rfl, by decide, by decide⟩, List.forall_mem_nil _⟩
  have hpayload : SaysPayload [video] (.record payload) := by
    refine ⟨payload, rfl, ?_⟩
    exact List.forall_mem_cons.mpr ⟨.inl ⟨_, ⟨_, rfl, .cons hitem .nil⟩, [], [], rfl, by decide, by decide⟩, List.forall_mem_nil _⟩
  have harchive : SaysArchive (-404) "" [video] (.record archive) := by
    refine ⟨archive, rfl, ?_⟩
    simp only [List.forall_mem_cons]
    exact ⟨.inl ⟨_, rfl, archive.take 1, [], rfl, by decide, by decide⟩, .inr ⟨trivial, by decide⟩,
      .inl ⟨_, hpayload, [], archive.drop 1, rfl, by decide, by decide⟩, List.forall_mem_nil _⟩
  have hsound : (Json.record archive).IsSound := by
    have hint : ∀ n, (Json.int n).IsSound := fun n => .number .empty
    have hvalues : ∀ m ∈ item, m.2.IsSound := by
      simp only [item, List.forall_mem_cons]
      exact ⟨.string _, hint _, .array (List.forall_mem_cons.mpr ⟨.null, List.forall_mem_nil _⟩), .string _, List.forall_mem_nil _⟩
    have hvideos : ∀ m ∈ payload, m.2.IsSound :=
      List.forall_mem_cons.mpr ⟨.array (List.forall_mem_cons.mpr ⟨.record hvalues, List.forall_mem_nil _⟩), List.forall_mem_nil _⟩
    exact .record (List.forall_mem_cons.mpr ⟨.record hvideos, List.forall_mem_cons.mpr ⟨hint _, List.forall_mem_nil _⟩⟩)
  have htext : (Json.record archive).render = reordered := by decide +kernel
  have hwritten : (Json.record archive).Written reordered.toList := htext ▸ Json.written_render hsound
  obtain ⟨a, hread, hcode, hmessage, -, hitems⟩ := archive_recovered ⟨by decide, by decide⟩
    (List.forall_mem_cons.mpr ⟨⟨by decide, by decide⟩, List.forall_mem_nil _⟩) harchive hwritten
  refine ⟨a, hread, hcode, hmessage, (hitems _ _ _).trans ?_⟩
  decide +kernel

end Bilibili

end ChannelWatch
