import ChannelWatch.Http.Asset

/-!
# Images are copied whole or not at all

Fetching an image succeeds exactly if the response says so, has brought the whole body, and the sink has room for it
(`image_fetched_whole`); then the sink holds the body and its length is what was written. In every other case the sink holds a
beginning of the body. The reason is that copying in pieces is copying at once (`copy_eq_take`), so nothing depends on where the
body is divided.
-/

namespace ChannelWatch.Http

/-! ## Sinks -/

/-- A sink takes so many more bytes. -/
def Sink.HasRoom (s : Sink) (count : Nat) : Prop :=
  ∀ room, s.room = some room → count ≤ room

/-- The sink after it was given bytes that it has room for. -/
theorem Sink.take_of_hasRoom {s : Sink} {bytes : List UInt8} (h : s.HasRoom bytes.length) :
    (s.take bytes).2 = true ∧ (s.take bytes).1.taken = s.taken ++ bytes := by
  obtain ⟨taken, _ | room⟩ := s
  · exact ⟨rfl, rfl⟩
  · have hroom : bytes.length ≤ room := h room rfl
    simp [Sink.take, hroom, List.take_of_length_le hroom]

/-- A sink without room for some bytes says so, and holds only a beginning of them. -/
theorem Sink.take_of_not_hasRoom {s : Sink} {bytes : List UInt8} (h : ¬s.HasRoom bytes.length) :
    (s.take bytes).2 = false ∧ ∃ part, part <+: bytes ∧ (s.take bytes).1.taken = s.taken ++ part := by
  obtain ⟨taken, _ | room⟩ := s
  · exact absurd (fun _ hnone => nomatch hnone) h
  · have hroom : ¬bytes.length ≤ room := fun hle => h fun r hr => Option.some.inj hr ▸ hle
    exact ⟨by simpa [Sink.take] using hroom, bytes.take room, List.take_prefix room bytes, rfl⟩

/-- Giving a sink two runs of bytes at once is giving it the second one after the first, if it has taken that. -/
theorem Sink.take_append (s : Sink) (first second : List UInt8) :
    s.take (first ++ second) = if (s.take first).2 then (s.take first).1.take second else s.take first := by
  obtain ⟨taken, _ | room⟩ := s
  · simp [Sink.take]
  · by_cases hfirst : first.length ≤ room
    · simp only [Sink.take, hfirst, decide_true, if_true, List.length_append, List.take_append,
        List.take_of_length_le hfirst, List.append_assoc]
      congr 2
      · congr 1
        omega
      · exact propext (by omega)
    · -- the first run fills the sink, and nothing of the second one is taken
      have hnone : room - first.length = 0 := by omega
      have hboth : ¬first.length + second.length ≤ room := by omega
      simp only [Sink.take, hfirst, hboth, decide_false, Bool.false_eq_true, if_false, List.length_append, List.take_append,
        hnone, List.take_zero, List.append_nil]
      congr 2
      congr 1
      omega

/-- Copying in pieces is copying at once: the sink is the same, and whether it took everything, and the bytes are counted. -/
theorem copy_eq_take (s : Sink) (written : Nat) (chunks : List (List UInt8)) :
    ((copy s written chunks).1, (copy s written chunks).2.2) = s.take chunks.flatten ∧
      ((s.take chunks.flatten).2 = true → (copy s written chunks).2.1 = written + chunks.flatten.length) := by
  induction chunks generalizing s written with
  | nil =>
    obtain ⟨taken, _ | room⟩ := s
    · simp [copy, Sink.take]
    · simp [copy, Sink.take]
  | cons chunk rest ih =>
    rw [List.flatten_cons, Sink.take_append]
    rcases htake : s.take chunk with ⟨s', took⟩
    cases took with
    | false => simp [copy, htake]
    | true =>
      obtain ⟨hsame, hcount⟩ := ih s' (written + chunk.length)
      simp only [copy, htake, if_true]
      refine ⟨hsame, fun hall => ?_⟩
      rw [hcount hall, List.length_append, Nat.add_assoc]

/-! ## Responses -/

/-- What a response has brought of a body: a beginning of it, and all of it if it is complete. -/
structure Response.Brings (r : Response) (body : List UInt8) : Prop where
  start : r.chunks.flatten <+: body
  whole : r.complete = true → r.chunks.flatten = body

/-- A response is copied as if its body had come in one piece. -/
theorem Response.copyInto_eq (r : Response) (url sent : String) (s : Sink) :
    r.copyInto url sent s =
      if isSuccess r.status then
        (if (s.take r.chunks.flatten).2 then
          (if r.complete then .ok r.chunks.flatten.length else .error (.network (.brokenOff sent)))
        else .error (.io .storageFull), (s.take r.chunks.flatten).1)
      else (.error (.httpStatus r.status url), s) := by
  unfold Response.copyInto
  obtain ⟨hsame, hcount⟩ := copy_eq_take s 0 r.chunks
  rcases hcopy : copy s 0 r.chunks with ⟨s', written, took⟩
  rw [hcopy] at hsame hcount
  rw [← hsame] at hcount ⊢
  cases isSuccess r.status with
  | false => rfl
  | true =>
    cases took with
    | false => rfl
    | true =>
      obtain rfl : written = r.chunks.flatten.length := by simpa using hcount rfl
      cases r.complete <;> rfl

/-- A status of success. -/
def Response.Succeeds (r : Response) : Prop :=
  200 ≤ r.status ∧ r.status ≤ 299

/-- How copying a response into a sink ends: the response is refused, or the sink is full, or the body breaks off, or it is there
whole. -/
inductive Response.Copied (r : Response) (url sent : String) (s : Sink) : Except Fault Nat × Sink → Prop
  | refused (failed : ¬r.Succeeds) : Copied r url sent s (.error (.httpStatus r.status url), s)
  | full {s' : Sink} {part : List UInt8} (success : r.Succeeds) (room : ¬s.HasRoom r.chunks.flatten.length)
      (start : part <+: r.chunks.flatten) (taken : s'.taken = s.taken ++ part) :
      Copied r url sent s (.error (.io .storageFull), s')
  | broken {s' : Sink} (success : r.Succeeds) (room : s.HasRoom r.chunks.flatten.length) (incomplete : r.complete = false)
      (taken : s'.taken = s.taken ++ r.chunks.flatten) : Copied r url sent s (.error (.network (.brokenOff sent)), s')
  | whole {s' : Sink} (success : r.Succeeds) (room : s.HasRoom r.chunks.flatten.length) (complete : r.complete = true)
      (taken : s'.taken = s.taken ++ r.chunks.flatten) : Copied r url sent s (.ok r.chunks.flatten.length, s')

/-- Copying a response ends in one of these ways. -/
theorem Response.copied_copyInto (r : Response) (url sent : String) (s : Sink) : r.Copied url sent s (r.copyInto url sent s) := by
  have hsuccess : isSuccess r.status = true ↔ r.Succeeds := by simp [isSuccess, Response.Succeeds]
  rw [copyInto_eq]
  by_cases hok : r.Succeeds
  · rw [if_pos (hsuccess.mpr hok)]
    by_cases hroom : s.HasRoom r.chunks.flatten.length
    · obtain ⟨htook, htaken⟩ := Sink.take_of_hasRoom hroom
      rw [if_pos htook]
      cases hcomplete : r.complete with
      | true => exact .whole hok hroom hcomplete htaken
      | false => exact .broken hok hroom hcomplete htaken
    · obtain ⟨htook, part, hpart, htaken⟩ := Sink.take_of_not_hasRoom hroom
      rw [if_neg (by simp [htook])]
      exact .full hok hroom hpart htaken
  · rw [if_neg fun h => hok (hsuccess.mp h)]
    exact .refused hok

namespace Response.Copied

variable {r : Response} {url sent : String} {s : Sink} {copied : Except Fault Nat × Sink} {body : List UInt8}

/-- Copying succeeds exactly with a whole body that there is room for, and counts it. -/
theorem eq_ok_iff (h : r.Copied url sent s copied) (hbody : r.Brings body) {n : Nat} :
    copied.1 = .ok n ↔ r.Succeeds ∧ r.complete = true ∧ s.HasRoom body.length ∧ n = body.length := by
  cases h with
  | refused failed => simp [failed]
  | full success room =>
    refine ⟨fun hok => (nomatch hok), fun ⟨_, hcomplete, hroom, _⟩ => ?_⟩
    rw [hbody.whole hcomplete] at room
    exact absurd hroom room
  | broken success room incomplete => simp [incomplete]
  | whole success room complete =>
    rw [hbody.whole complete] at room ⊢
    simp only [Except.ok.injEq, success, complete, room, true_and]
    exact eq_comm

/-- The sink has taken the body if copying has succeeded. -/
theorem taken_of_ok (h : r.Copied url sent s copied) (hbody : r.Brings body) {n : Nat} (hok : copied.1 = .ok n) :
    copied.2.taken = s.taken ++ body := by
  cases h with
  | whole success room complete taken => rw [taken, hbody.whole complete]
  | refused | full | broken => nomatch hok

/-- The sink has taken a beginning of the body in any case. -/
theorem taken_begins (h : r.Copied url sent s copied) (hbody : r.Brings body) :
    ∃ part, part <+: body ∧ copied.2.taken = s.taken ++ part := by
  cases h with
  | refused => exact ⟨[], List.nil_prefix, (List.append_nil _).symm⟩
  | full _ _ start taken => exact ⟨_, start.trans hbody.start, taken⟩
  | broken _ _ _ taken => exact ⟨_, hbody.start, taken⟩
  | whole _ _ _ taken => exact ⟨_, hbody.start, taken⟩

/-- A response of no success is refused. -/
theorem eq_of_failed (h : r.Copied url sent s copied) (hfailed : ¬r.Succeeds) :
    copied = (.error (.httpStatus r.status url), s) := by
  cases h with
  | refused => rfl
  | full success | broken success | whole success => exact absurd success hfailed

/-- Too little room makes copying fail. -/
theorem eq_of_full (h : r.Copied url sent s copied) (hok : r.Succeeds) (hfull : ¬s.HasRoom r.chunks.flatten.length) :
    copied.1 = .error (.io .storageFull) := by
  cases h with
  | full => rfl
  | refused failed => exact absurd hok failed
  | broken _ room | whole _ room => exact absurd room hfull

/-- A body that breaks off makes copying fail. -/
theorem eq_of_incomplete (h : r.Copied url sent s copied) (hok : r.Succeeds) (hroom : s.HasRoom r.chunks.flatten.length)
    (hincomplete : r.complete = false) : copied.1 = .error (.network (.brokenOff sent)) := by
  cases h with
  | broken => rfl
  | refused failed => exact absurd hok failed
  | full _ room => exact absurd hroom room
  | whole _ _ complete =>
    rw [hincomplete] at complete
    nomatch complete

end Response.Copied

/-! ## Fetching -/

/-- The response to the request for an image, or why there is none. -/
def AssetClient.ask (c : AssetClient) (network : Network) (url : String) : Except NetworkFault Response :=
  (c.request url).bind (send network)

/-- Fetching an image is copying the response to its request. -/
theorem AssetClient.fetchInto_of_ask (c : AssetClient) (url : String) :
    ∃ sent, ∀ network r s, c.ask network url = .ok r → c.fetchInto network url s = r.copyInto url sent s := by
  unfold ask fetchInto
  cases c.request url with
  | error fault => exact ⟨"", fun _ _ _ h => nomatch h⟩
  | ok request =>
    refine ⟨request.url.render, fun network r s h => ?_⟩
    have hsent : send network request = .ok r := h
    simp only [hsent]

/-- What comes of fetching an image into an empty sink, with a limit or without one, when a response has brought so much of a
body. -/
structure AssetClient.FetchesWhole (c : AssetClient) (network : Network) (url : String) (limit : Option Nat) (r : Response)
    (body : List UInt8) : Prop where
  /-- Fetching succeeds exactly if the response is one of success, complete, and there is room for the body; what it returns is
  the length of the body. -/
  succeeds : ∀ n, (c.fetchInto network url (.empty limit)).1 = .ok n ↔
    r.Succeeds ∧ r.complete = true ∧ (Sink.empty limit).HasRoom body.length ∧ n = body.length
  /-- Then the sink holds the body and nothing else. -/
  holds : ∀ n, (c.fetchInto network url (.empty limit)).1 = .ok n → (c.fetchInto network url (.empty limit)).2.taken = body
  /-- Whatever comes of it, the sink holds a beginning of the body. -/
  begins : (c.fetchInto network url (.empty limit)).2.taken <+: body
  /-- A status of no success is reported, and the sink stays empty. -/
  refused : ¬r.Succeeds → c.fetchInto network url (.empty limit) = (.error (.httpStatus r.status url), .empty limit)
  /-- Too little room for what has arrived is reported. -/
  full : r.Succeeds → ¬(Sink.empty limit).HasRoom r.chunks.flatten.length →
    (c.fetchInto network url (.empty limit)).1 = .error (.io .storageFull)
  /-- With room for it, it is reported that the body broke off. -/
  broken : r.Succeeds → (Sink.empty limit).HasRoom r.chunks.flatten.length → r.complete = false →
    ∃ sent, (c.fetchInto network url (.empty limit)).1 = .error (.network (.brokenOff sent))
  /-- Nothing depends on how what has arrived is divided into pieces. -/
  divided : ∀ other r', c.ask other url = .ok r' → r'.status = r.status → r'.complete = r.complete →
    r'.chunks.flatten = r.chunks.flatten → c.fetchInto other url (.empty limit) = c.fetchInto network url (.empty limit)

/-- An image whose request gets a response is fetched whole, or fetching it fails and the sink holds a beginning of it. -/
theorem image_fetched_whole {c : AssetClient} {network : Network} {url : String} {r : Response} {body : List UInt8}
    (limit : Option Nat) (hasked : c.ask network url = .ok r) (hbody : r.Brings body) :
    c.FetchesWhole network url limit r body := by
  obtain ⟨sent, hfetch⟩ := c.fetchInto_of_ask url
  have hcopied : r.Copied url sent (.empty limit) (c.fetchInto network url (.empty limit)) := by
    rw [hfetch network r _ hasked]
    exact r.copied_copyInto url sent _
  have hdivided : ∀ other r', c.ask other url = .ok r' → r'.status = r.status → r'.complete = r.complete →
      r'.chunks.flatten = r.chunks.flatten →
      c.fetchInto other url (.empty limit) = c.fetchInto network url (.empty limit) := by
    intro other r' hother hstatus hcomplete hflatten
    rw [hfetch other r' _ hother, hfetch network r _ hasked, r'.copyInto_eq, r.copyInto_eq, hstatus, hcomplete, hflatten]
  exact {
    succeeds := fun n => hcopied.eq_ok_iff hbody
    holds := fun n hok => hcopied.taken_of_ok hbody hok
    begins := by
      obtain ⟨part, hpart, htaken⟩ := hcopied.taken_begins hbody
      rw [htaken]
      exact hpart
    refused := fun hfailed => hcopied.eq_of_failed hfailed
    full := fun hok hfull => hcopied.eq_of_full hok hfull
    broken := fun hok hroom hincomplete => ⟨sent, hcopied.eq_of_incomplete hok hroom hincomplete⟩
    divided := hdivided }

/-- A network that answers every request with three bytes in three pieces, one of them empty. -/
def threeBytes (complete : Bool) : Network :=
  fun _ => some ⟨206, [[1], [], [2, 3]], complete⟩

/-- A client with short headers. -/
def plainClient : AssetClient :=
  ⟨15, "agent", "https://h/"⟩

/-- Where every request gets one response, an image gets it if it gets any. -/
theorem AssetClient.ask_of_always {c : AssetClient} {network : Network} {url : String} {r : Response}
    (halways : ∀ request, network request = some r) (h : (c.ask network url).toOption.isSome = true) :
    c.ask network url = .ok r := by
  unfold ask at h ⊢
  cases hrequest : c.request url with
  | error fault =>
    rw [hrequest] at h
    nomatch h
  | ok request =>
    rw [hrequest] at h
    simp only [Except.bind, send, halways] at h ⊢
    split at h
    · nomatch h
    · rename_i hweb
      rw [if_neg hweb]
      split at h
      · nomatch h
      · rename_i huri
        rw [if_neg huri]

/-- Three bytes in three pieces are fetched into a sink for three, and not into one for two; and if a fourth byte is missing,
fetching fails. -/
theorem image_fetched_whole_in_pieces :
    (plainClient.fetchInto (threeBytes true) "https://h/a.png" (.empty (some 3))).1 = .ok 3 ∧
    (plainClient.fetchInto (threeBytes true) "https://h/a.png" (.empty (some 3))).2.taken = [1, 2, 3] ∧
    (plainClient.fetchInto (threeBytes true) "https://h/a.png" (.empty (some 2))).1 = .error (.io .storageFull) ∧
    (∃ sent, (plainClient.fetchInto (threeBytes false) "https://h/a.png" (.empty none)).1 =
      .error (.network (.brokenOff sent))) ∧
    (plainClient.fetchInto (threeBytes false) "https://h/a.png" (.empty none)).2.taken <+: [1, 2, 3, 4] := by
  have hasked : plainClient.ask (threeBytes true) "https://h/a.png" = .ok ⟨206, [[1], [], [2, 3]], true⟩ :=
    AssetClient.ask_of_always (fun _ => rfl) (by decide +kernel)
  have hbroken : plainClient.ask (threeBytes false) "https://h/a.png" = .ok ⟨206, [[1], [], [2, 3]], false⟩ :=
    AssetClient.ask_of_always (fun _ => rfl) (by decide +kernel)
  have hwhole : Response.Brings ⟨206, [[1], [], [2, 3]], true⟩ [1, 2, 3] := ⟨List.prefix_refl _, fun _ => rfl⟩
  have hpart : Response.Brings ⟨206, [[1], [], [2, 3]], false⟩ [1, 2, 3, 4] := ⟨⟨[4], rfl⟩, fun h => nomatch h⟩
  have hsuccess : 200 ≤ 206 ∧ 206 ≤ 299 := by decide
  have hfits := image_fetched_whole (some 3) hasked hwhole
  have hthree := (hfits.succeeds 3).mpr ⟨hsuccess, rfl, fun room hroom => Nat.le_of_eq (Option.some.inj hroom), rfl⟩
  have hbreaks := image_fetched_whole none hbroken hpart
  refine ⟨hthree, hfits.holds 3 hthree, ?_, ?_, hbreaks.begins⟩
  · exact (image_fetched_whole (some 2) hasked hwhole).full hsuccess fun hroom => absurd (hroom 2 rfl) (by decide)
  · exact hbreaks.broken hsuccess (fun room hroom => nomatch hroom) rfl

end ChannelWatch.Http
