import ChannelWatch.Proofs.Json.Printer
import ChannelWatch.Proofs.Json.Record
import ChannelWatch.Proofs.Net.Address
import ChannelWatch.Settings.Document

/-!
# Settings survive being written

Settings that were read hold numbers of 64 bits and an address in range, whichever fields the text gave and whichever took their
standard value. What is written for such settings is read back as the same settings.
-/

namespace ChannelWatch

/-! ## Settings in range -/

/-- The numbers have 64 bits. -/
def VideoSettings.InRange (v : VideoSettings) : Prop :=
  v.limit < Settings.numberBound ∧ v.workers < Settings.numberBound ∧ v.requestTimeout < Settings.numberBound ∧
    v.refreshInterval < Settings.numberBound

/-- The numbers have 64 bits. -/
def CacheSettings.InRange (c : CacheSettings) : Prop :=
  c.ttl < Settings.numberBound ∧ c.downloadTimeout < Settings.numberBound ∧ c.maxDownloads < Settings.numberBound ∧
    c.sweepInterval < Settings.numberBound

/-- The numbers have 64 bits and the address is one. -/
def Settings.InRange (s : Settings) : Prop :=
  s.videos.InRange ∧ s.cache.InRange ∧ s.server.address.IsValid

theorem VideoSettings.inRange_standard : standard.InRange :=
  ⟨by decide, by decide, by decide, by decide⟩

theorem CacheSettings.inRange_standard : standard.InRange :=
  ⟨by decide, by decide, by decide, by decide⟩

theorem ServerSettings.isValid_standard : standard.address.IsValid :=
  ⟨⟨rfl, by decide⟩, by decide⟩

namespace Json

theorem asNat?_nat {bound n : Nat} (h : n < bound) : asNat? bound (nat n) = some n :=
  if_pos h

/-- A number that was read is below its bound. -/
theorem lt_of_asNat? {bound n : Nat} {j : Json} (h : asNat? bound j = some n) : n < bound := by
  unfold asNat? at h
  split at h
  · split at h
    · rename_i hlt
      exact Option.some.inj h ▸ hlt
    · nomatch h
  · nomatch h

/-- A field was read, or has its default. -/
theorem field?_eq_some {α : Type} {decode : Json → Option α} {default x : α} {given : Option Json}
    (h : field? decode default given = some x) : (∃ v, decode v = some x) ∨ x = default := by
  cases given with
  | none => exact .inr (Option.some.inj h).symm
  | some v => exact .inl ⟨v, h⟩

/-- A number that a field holds is below the bound if its default is. -/
theorem lt_of_field? {n default : Nat} {given : Option Json} (hdefault : default < Settings.numberBound)
    (h : field? Settings.number? default given = some n) : n < Settings.numberBound := by
  rcases field?_eq_some h with ⟨v, hv⟩ | rfl
  · exact lt_of_asNat? hv
  · exact hdefault

theorem asText?_text (s : String) : asText? (text s) = some s :=
  rfl

theorem asBool?_bool (b : Bool) : asBool? (bool b) = some b :=
  rfl

theorem list?_text (texts : List String) : list? asText? (array (texts.map text)) = some texts := by
  rw [list?, mapM_eq_some_iff, List.map_map]
  rfl

end Json

/-- Settings that were read are in range. -/
theorem VideoSettings.inRange_of_ofJson? {j : Json} {v : VideoSettings} (h : ofJson? j = some v) : v.InRange := by
  simp only [ofJson?, Option.bind_eq_bind, Option.bind_eq_some_iff] at h
  obtain ⟨given, -, h⟩ := h
  split at h
  · simp only [Option.bind_eq_some_iff] at h
    obtain ⟨_, -, _, -, _, -, _, -, _, -, limit, hlimit, workers, hworkers, timeout, htimeout, interval, hinterval, _, -, _, -, h⟩ := h
    obtain rfl := Option.some.inj h
    exact ⟨Json.lt_of_field? (by decide) hlimit, Json.lt_of_field? (by decide) hworkers, Json.lt_of_field? (by decide) htimeout,
      Json.lt_of_field? (by decide) hinterval⟩
  · nomatch h

/-- Settings that were read are in range. -/
theorem CacheSettings.inRange_of_ofJson? {j : Json} {c : CacheSettings} (h : ofJson? j = some c) : c.InRange := by
  simp only [ofJson?, Option.bind_eq_bind, Option.bind_eq_some_iff] at h
  obtain ⟨given, -, h⟩ := h
  split at h
  · simp only [Option.bind_eq_some_iff] at h
    obtain ⟨_, -, _, -, ttl, httl, timeout, htimeout, downloads, hdownloads, interval, hinterval, _, -, _, -, _, -, h⟩ := h
    obtain rfl := Option.some.inj h
    exact ⟨Json.lt_of_field? (by decide) httl, Json.lt_of_field? (by decide) htimeout, Json.lt_of_field? (by decide) hdownloads,
      Json.lt_of_field? (by decide) hinterval⟩
  · nomatch h

/-- The address of settings that were read is in range. -/
theorem ServerSettings.isValid_of_ofJson? {j : Json} {s : ServerSettings} (h : ofJson? j = some s) : s.address.IsValid := by
  simp only [ofJson?, Option.bind_eq_bind, Option.bind_eq_some_iff] at h
  obtain ⟨given, -, h⟩ := h
  split at h
  · simp only [Option.bind_eq_some_iff] at h
    obtain ⟨address, haddress, h⟩ := h
    obtain rfl := Option.some.inj h
    rcases Json.field?_eq_some haddress with ⟨v, hv⟩ | rfl
    · unfold addressOfJson? at hv
      split at hv
      · exact SocketAddress.isValid_of_read? hv
      · nomatch hv
    · exact isValid_standard
  · nomatch h

/-- Settings that were read are in range. -/
theorem Settings.inRange_of_ofJson? {j : Json} {s : Settings} (h : ofJson? j = some s) : s.InRange := by
  simp only [ofJson?, Option.bind_eq_bind, Option.bind_eq_some_iff] at h
  obtain ⟨given, -, h⟩ := h
  split at h
  · simp only [Option.bind_eq_some_iff] at h
    obtain ⟨videos, hvideos, cache, hcache, server, hserver, h⟩ := h
    obtain rfl := Option.some.inj h
    refine ⟨?_, ?_, ?_⟩
    · rcases Json.field?_eq_some hvideos with ⟨v, hv⟩ | rfl
      · exact VideoSettings.inRange_of_ofJson? hv
      · exact VideoSettings.inRange_standard
    · rcases Json.field?_eq_some hcache with ⟨v, hv⟩ | rfl
      · exact CacheSettings.inRange_of_ofJson? hv
      · exact CacheSettings.inRange_standard
    · rcases Json.field?_eq_some hserver with ⟨v, hv⟩ | rfl
      · exact ServerSettings.isValid_of_ofJson? hv
      · exact ServerSettings.isValid_standard
  · nomatch h

/-! ## Settings are read back -/

theorem Provider.ofJson?_name (p : Provider) : ofJson? (.text p.name) = some p := by
  cases p <;> rfl

/-- Settings in range are read from their value. -/
theorem VideoSettings.ofJson?_toJson {v : VideoSettings} (h : v.InRange) : ofJson? v.toJson = some v := by
  obtain ⟨hlimit, hworkers, htimeout, hinterval⟩ := h
  rw [ofJson?, toJson, Json.fields?_record_keys]
  · simp only [List.map_cons, List.map_nil, Option.bind_eq_bind, Option.bind_some, Json.field?, Provider.ofJson?_name, Json.list?_text,
      Json.asText?_text, Json.asBool?_bool, Settings.number?, Json.asNat?_nat hlimit, Json.asNat?_nat hworkers,
      Json.asNat?_nat htimeout, Json.asNat?_nat hinterval]
  · rfl
  · decide

/-- Settings in range are read from their value. -/
theorem CacheSettings.ofJson?_toJson {c : CacheSettings} (h : c.InRange) : ofJson? c.toJson = some c := by
  obtain ⟨httl, htimeout, hdownloads, hinterval⟩ := h
  rw [ofJson?, toJson, Json.fields?_record_keys]
  · simp only [List.map_cons, List.map_nil, Option.bind_eq_bind, Option.bind_some, Json.field?, Json.asText?_text, Json.asBool?_bool,
      Settings.number?, Json.asNat?_nat httl, Json.asNat?_nat htimeout, Json.asNat?_nat hdownloads, Json.asNat?_nat hinterval]
  · rfl
  · decide

/-- An address in range is read from its value. -/
theorem ServerSettings.ofJson?_toJson {s : ServerSettings} (h : s.address.IsValid) : ofJson? s.toJson = some s := by
  have haddress : addressOfJson? (.text s.address.render) = some s.address := SocketAddress.read?_render h
  rw [ofJson?, toJson, Json.fields?_record_keys]
  · simp only [List.map_cons, List.map_nil, Option.bind_eq_bind, Option.bind_some, Json.field?, haddress]
  · rfl
  · decide

namespace Settings

/-- Settings in range are read from their value. -/
theorem ofJson?_toJson {s : Settings} (h : s.InRange) : ofJson? s.toJson = some s := by
  obtain ⟨hvideos, hcache, hserver⟩ := h
  rw [ofJson?, toJson, Json.fields?_record_keys]
  · simp only [List.map_cons, List.map_nil, Option.bind_eq_bind, Option.bind_some, Json.field?, VideoSettings.ofJson?_toJson hvideos,
      CacheSettings.ofJson?_toJson hcache, ServerSettings.ofJson?_toJson hserver]
  · rfl
  · decide

/-- The value of settings can be written. -/
theorem isSound_toJson (s : Settings) : s.toJson.IsSound := by
  have htexts : ∀ texts : List String, (Json.array (texts.map Json.text)).IsSound := by
    intro texts
    refine .array fun v hv => ?_
    obtain ⟨text, -, rfl⟩ := List.mem_map.mp hv
    exact .string _
  have hnat : ∀ n, (Json.nat n).IsSound := fun n => .number .empty
  have hvideos : s.videos.toJson.IsSound := by
    refine .record ?_
    simp only [List.forall_mem_cons]
    exact ⟨.string _, htexts _, htexts _, .string _, .bool _, hnat _, hnat _, hnat _, hnat _, .string _, .string _,
      List.forall_mem_nil _⟩
  have hcache : s.cache.toJson.IsSound := by
    refine .record ?_
    simp only [List.forall_mem_cons]
    exact ⟨.bool _, .string _, hnat _, hnat _, hnat _, hnat _, .string _, .string _, .string _, List.forall_mem_nil _⟩
  have hserver : s.server.toJson.IsSound := by
    refine .record ?_
    simp only [List.forall_mem_cons]
    exact ⟨.string _, List.forall_mem_nil _⟩
  refine .record ?_
  simp only [List.forall_mem_cons]
  exact ⟨hvideos, hcache, hserver, List.forall_mem_nil _⟩

/-- Settings that were read survive being written: they are read back with every field as it was, watch the same sources with the same
limit, pass or fail the same check, and are written the same way once more. -/
theorem settings_survive {text : String} {s : Settings} (h : read? text = some s) :
    ∃ t, read? s.toJson.render = some t ∧ t.videos = s.videos ∧ t.cache = s.cache ∧ t.server = s.server ∧
      t.videos.sources = s.videos.sources ∧ t.videos.effectiveLimit = s.videos.effectiveLimit ∧ t.check = s.check ∧
      t.toJson.render = s.toJson.render := by
  obtain ⟨j, -, hj⟩ := Option.bind_eq_some_iff.mp h
  refine ⟨s, ?_, rfl, rfl, rfl, rfl, rfl, rfl, rfl⟩
  rw [read?, Json.read?_render s.isSound_toJson]
  exact ofJson?_toJson (inRange_of_ofJson? hj)

/-- The standard settings with a source, the largest number for a limit and an address of version 6. -/
def largest : Settings :=
  ⟨{ VideoSettings.standard with channels := ["é\n"], limit := 18446744073709551615 }, .standard,
    ⟨⟨.v6 [0x2001, 0xdb8, 0, 0, 1, 0, 0, 0] 0, 80⟩⟩⟩

/-- A text that gives them with an escape, beside another key and with all groups of the address. -/
def largestText : String :=
  "\x7b\x22server\x22:\x7b\x22bind_address\x22:\x22[2001:DB8:0:0:1:0:0:0]:80\x22\x7d,\x22x\x22:1e9,\x22videos\x22:" ++
    "\x7b\x22limit\x22:18446744073709551615,\x22channels\x22:[\x22\\u00e9\\n\x22]\x7d\x7d"

/-- The settings of that text survive. -/
theorem settings_survive_largest : read? largestText = some largest ∧
    ∃ t, read? largest.toJson.render = some t ∧ t.videos = largest.videos ∧ t.server = largest.server := by
  have hread : read? largestText = some largest := by decide +kernel
  obtain ⟨t, ht, hvideos, -, hserver, -⟩ := settings_survive hread
  exact ⟨hread, t, ht, hvideos, hserver⟩

end Settings

end ChannelWatch
