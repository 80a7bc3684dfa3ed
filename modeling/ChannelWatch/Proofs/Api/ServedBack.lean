import ChannelWatch.Cache.Rest
import ChannelWatch.Proofs.Api.Images
import ChannelWatch.Proofs.Cache.Answered
import ChannelWatch.Proofs.Cache.Carried
import ChannelWatch.Proofs.Cache.Renewed
import ChannelWatch.Proofs.Link
import Mathlib.Data.List.Infix

/-!
# References are served back

The cache gives local references to images, and the route of images looks their names up: the two agree. A request for a local
reference is answered with the file that stands under the name of the image, at once and until a sweep removes it, whatever
becomes of the download that the call has begun (`references_served`). For a remote reference there is no file, and a request
for it by its name finds none.
-/

namespace ChannelWatch

/-! ## The type of an image -/

/-- The media type of the image behind a URL, read off the URL as it is given. -/
def mediaTypeFor (url : String) : String :=
  if ".png".toList <:+: url.toList then "image/png"
  else if ".webp".toList <:+: url.toList then "image/webp"
  else if ".gif".toList <:+: url.toList then "image/gif"
  else "image/jpeg"

/-- The type of an image is that of its format. -/
theorem mediaType_ofUrl (url : String) : (ImageFormat.ofUrl url).mediaType = mediaTypeFor url := by
  have occurs : ∀ pattern, Text.contains pattern url.toList = decide (pattern <:+: url.toList) := by
    intro pattern
    rw [Bool.eq_iff_iff, Text.contains_iff, decide_eq_true_iff]
  simp only [ImageFormat.ofUrl, ImageFormat.known, List.find?_cons, List.find?_nil, occurs, ImageFormat.extension, mediaTypeFor]
  by_cases hpng : ".png".toList <:+: url.toList
  · simp only [hpng]
    rfl
  · by_cases hwebp : ".webp".toList <:+: url.toList
    · simp only [hpng, hwebp]
      rfl
    · by_cases hgif : ".gif".toList <:+: url.toList
      · simp only [hpng, hwebp, hgif]
        rfl
      · simp only [hpng, hwebp, hgif]
        rfl

theorem mediaTypeFor_secure (url : String) : mediaTypeFor (Link.secure url) = mediaTypeFor url := by
  have hpoint : '.' ∉ "https://".toList := by decide
  have hpng : ".png".toList <:+: (Link.secure url).toList ↔ ".png".toList <:+: url.toList := Link.infix_secure_iff hpoint url
  have hwebp : ".webp".toList <:+: (Link.secure url).toList ↔ ".webp".toList <:+: url.toList := Link.infix_secure_iff hpoint url
  have hgif : ".gif".toList <:+: (Link.secure url).toList ↔ ".gif".toList <:+: url.toList := Link.infix_secure_iff hpoint url
  simp only [mediaTypeFor, hpng, hwebp, hgif]

namespace Cache

variable {p : Policy} {s s' m : State} {purpose : Purpose} {url : String} {events : List Event} {ref : ImageRef}

/-! ## A call from its beginning to its answer -/

/-- A call to resolve a URL begins now, and the last of the events answers it. -/
structure State.Resolves (p : Policy) (s : State) (url : String) (events : List Event) (m : State) (ref : ImageRef) : Prop where
  run : s.steps? p (.call .resolve url :: events) = some m
  answered : m.answer? s.calls.length = some ref
  before : ∀ t e, s.Happens p (.call .resolve url :: events) t e → t.answer? s.calls.length = none

/-- A call stays in its place for its URL. -/
theorem State.call_of_steps? (h : s.steps? p (.call purpose url :: events) = some m) :
    ∃ stage, m.calls[s.calls.length]? = some ⟨purpose, Link.secure url, stage⟩ := by
  obtain ⟨called, hcalled, hrun⟩ := Option.bind_eq_some_iff.mp h
  obtain rfl := Option.some.inj hcalled
  refine steps?_induction (motive := fun _ x => ∃ stage, x.calls[s.calls.length]? = some ⟨purpose, Link.secure url, stage⟩)
    ?_ (fun _ x e x' _ hx he => ?_) hrun
  · rw [beginCall_eq]
    exact ⟨_, by rw [getElem?_append_singleton, if_pos rfl]⟩
  · obtain ⟨stage, hstage⟩ := hx
    obtain ⟨new, hnew, -⟩ := (callTurn_of_step? he).call_stays hstage
    exact ⟨new, hnew⟩

namespace State.Resolves

/-- The call is answered, and was not before the last event. -/
theorem last (h : s.Resolves p url events m ref) : ∃ (x : State) (e : Event), x.step? p e = some m ∧
    x.answer? s.calls.length = none ∧
    m.calls[s.calls.length]? = some ⟨.resolve, Link.secure url, .answered ref⟩ := by
  obtain ⟨stage, hstage⟩ := call_of_steps? h.run
  obtain ⟨purpose, image, hanswered⟩ := answer?_eq_some_iff.mp h.answered
  obtain ⟨-, -, rfl⟩ := Call.mk.inj (Option.some.inj (hstage.symm.trans hanswered))
  rcases List.eq_nil_or_concat (Event.call .resolve url :: events) with hnil | ⟨init, e, hinit⟩
  · exact absurd hnil (List.cons_ne_nil _ _)
  · rw [List.concat_eq_append] at hinit
    have hrun := h.run
    rw [hinit] at hrun
    obtain ⟨x, hx, he⟩ := steps?_snoc_iff.mp hrun
    exact ⟨x, e, he, h.before x e (hinit ▸ happens_last hx), hstage⟩

/-- A local reference is that to the image's file, and something stands under its name. -/
theorem found (h : s.Resolves p url events m ref) (hlocal : ref.isLocal = true) :
    ref.href = p.localRef (Link.secure url) ∧ m.directory.find? (nameFor url) ≠ none := by
  obtain ⟨x, e, he, hbefore, hcall⟩ := h.last
  rcases found_of_answered he hcall hlocal with hold | hfound
  · rw [answer?, hold] at hbefore
    exact absurd hbefore (Option.some_ne_none _)
  · exact hfound

/-- The remote URL is given where nothing stands under the name of the image. -/
theorem absent {href : String} (h : s.Resolves p url events m (.remote href)) : m.directory.find? (nameFor url) = none := by
  obtain ⟨x, e, he, hbefore, hcall⟩ := h.last
  rcases absent_of_answered he hcall with hold | hnone
  · rw [answer?, hold] at hbefore
    exact absurd hbefore (Option.some_ne_none _)
  · exact hnone

end State.Resolves

/-- A call begins a download: it registers in `t`, where its image is not in flight, and the events `rest` follow. -/
def State.BeginsDownload (p : Policy) (s : State) (url : String) (events : List Event) (t : State) (rest : List Event) : Prop :=
  ∃ initial, .call .resolve url :: events = initial ++ .register s.calls.length :: rest ∧ s.steps? p initial = some t ∧
    t.marker? (Link.secure url) = none

/-- Where the image has no fresh entry and is not in flight, a call that nothing interrupts begins a download and is answered with what
there is. -/
theorem State.resolves_missed (himage : url ≠ "") (hcold : ¬s.HasFresh p (Link.secure url)) (hm : s.marker? (Link.secure url) = none) :
    s.Resolves p url [.register s.calls.length, .lookAgain s.calls.length]
        ((s.spawn (Link.secure url)).withCall .resolve (Link.secure url) (.answered (s.reference p (Link.secure url))))
        (s.reference p (Link.secure url)) ∧
      s.BeginsDownload p url [.register s.calls.length, .lookAgain s.calls.length] (s.withCall .resolve (Link.secure url) .looked)
        [.lookAgain s.calls.length] := by
  have hcall : s.step? p (.call .resolve url) = some (s.withCall .resolve (Link.secure url) .looked) :=
    congrArg some ((beginCall_eq_withCall p s .resolve url).trans (by rw [firstStage_of_not_hasFresh himage hcold]))
  have hregister : (s.withCall .resolve (Link.secure url) .looked).step? p (.register s.calls.length) = some _ :=
    register?_of_unmarked hm .resolve
  have hready := calls_withCall (s.spawn (Link.secure url)) .resolve (Link.secure url) .ready
  have hagain : ((s.spawn (Link.secure url)).withCall .resolve (Link.secure url) .ready).step? p (.lookAgain s.calls.length) = some _ :=
    (lookAgain?_of_ready hready).trans (congrArg some (setStage_withCall (s.spawn (Link.secure url)) _ _ _ _))
  have hlooked := steps?_singleton hcall
  have hregistered := steps?_trans hlooked (steps?_singleton hregister)
  have hanswered := calls_withCall (s.spawn (Link.secure url)) .resolve (Link.secure url) (.answered (s.reference p (Link.secure url)))
  refine ⟨⟨steps?_trans hregistered (steps?_singleton hagain), answer?_eq_some_iff.mpr ⟨_, _, hanswered⟩, fun t e ht => ?_⟩,
    [.call .resolve url], rfl, hlooked, hm⟩
  -- the call is answered in none of the three states before the last event
  obtain ⟨before, after, hevents, hx⟩ := ht
  rcases before with _ | ⟨e₁, _ | ⟨e₂, _ | ⟨e₃, before⟩⟩⟩
  · obtain rfl := Option.some.inj hx
    cases ha : s.answer? s.calls.length with
    | none => rfl
    | some ref =>
      obtain ⟨_, _, hc⟩ := answer?_eq_some_iff.mp ha
      exact absurd (List.getElem?_eq_some_iff.mp hc).1 (Nat.lt_irrefl _)
  · obtain ⟨rfl, -⟩ := List.cons.inj hevents
    obtain rfl := Option.some.inj (hlooked.symm.trans hx)
    exact answer?_eq_none (calls_withCall _ _ _ _) (by simp)
  · simp only [List.cons_append, List.cons.injEq] at hevents
    obtain ⟨rfl, rfl, -⟩ := hevents
    obtain rfl := Option.some.inj (hregistered.symm.trans hx)
    exact answer?_eq_none hready (by simp)
  · simp at hevents

/-- The download that a call begins is one for its image. -/
theorem State.BeginsDownload.download {t : State} {rest : List Event} (h : s.BeginsDownload p url events t rest)
    (hrun : t.steps? p (.register s.calls.length :: rest) = some m) :
    ∃ phase, m.downloads[t.downloads.length]? = some ⟨Link.secure url, phase⟩ := by
  obtain ⟨initial, hevents, hinitial, hmarker⟩ := h
  obtain ⟨t', hregister, hrest⟩ := Option.bind_eq_some_iff.mp hrun
  cases initial with
  | nil => nomatch hevents
  | cons first initial =>
    obtain ⟨rfl, -⟩ := List.cons.inj hevents
    obtain ⟨stage, hstage⟩ := call_of_steps? hinitial
    obtain ⟨purpose, image, hcall, ⟨d, hd, -⟩ | ⟨-, rfl⟩⟩ := register?_eq_some_iff.mp hregister
    · obtain ⟨-, rfl, -⟩ := Call.mk.inj (Option.some.inj (hstage.symm.trans hcall))
      nomatch hmarker.symm.trans hd
    · obtain ⟨-, rfl, -⟩ := Call.mk.inj (Option.some.inj (hstage.symm.trans hcall))
      have hspawned : (t.downloads ++ [⟨Link.secure url, .spawned⟩])[t.downloads.length]? = some ⟨Link.secure url, .spawned⟩ :=
        List.getElem?_concat_length
      exact download_of_steps? hrest hspawned

/-- What stands under the name of an image stays there in a run in which no sweep removes a file. -/
theorem find?_fileName_of_steps? (h : s.steps? p events = some s') (hremove : ∀ i, Event.remove i ∉ events)
    (hf : s.directory.find? (fileName url) ≠ none) : s'.directory.find? (fileName url) ≠ none := by
  refine State.steps?_induction
    (motive := fun es x => (∀ i, Event.remove i ∉ es) → x.directory.find? (fileName url) ≠ none) (fun _ => hf) ?_ h hremove
  intro es x e x' _ ih he hremove'
  rcases find?_fileName_of_step? he (ih fun i hi => hremove' i (List.mem_append_left _ hi)) with hf' | ⟨i, _, rfl, -⟩
  · exact hf'
  · exact absurd (List.mem_append_right _ (List.mem_singleton_self _)) (hremove' i)

/-- No run puts anything in the way of the directory. -/
theorem obstructed_of_steps? (h : s.steps? p events = some s') (hs : s.directory ≠ .obstructed) :
    s'.directory ≠ .obstructed := by
  refine State.steps?_induction (motive := fun _ x => x.directory ≠ .obstructed) hs (fun _ x e x' _ hx he => ?_) h
  rcases directory_of_step? he with heq | ⟨entries, hpresent⟩
  · rw [heq]
    exact hx
  · rw [hpresent]
    nofun

end Cache

namespace Api

open Cache

/-! ## What is answered -/

/-- What a client gets for the reference that a call has been answered with: the call has begun in `s`, and has been answered in
`m` with the last of the events. -/
structure ServesBack (p : Policy) (s : State) (url : String) (events : List Event) (m : State) (ref : ImageRef) : Prop where
  /-- A request for a local reference is answered with the file of the image, at once and until a sweep removes a file. -/
  file : ref.isLocal = true → ∀ later s' snapshot, m.steps? p later = some s' → (∀ i, Event.remove i ∉ later) →
    ∃ f, s'.directory.file? (nameFor url) = some f ∧
      respond? ⟨some s', snapshot⟩ "GET" ref.href = some (.image (mediaTypeFor url) f.content)
  /-- If the call has begun a download, the file is then what this download and those after it have left. -/
  renewed : ∀ t rest later s', s.BeginsDownload p url events t rest → m.steps? p later = some s' →
    (∀ i, Event.remove i ∉ rest ++ later) → s'.Alone (Link.secure url) →
    (∃ phase, s'.downloads[t.downloads.length]? = some ⟨Link.secure url, phase⟩) ∧
      s'.Renewed (Link.secure url) t.downloads.length (t.directory.find? (nameFor url))
        (.register s.calls.length :: (rest ++ later))
  /-- For a remote reference there is no file, and a request by its name finds none. -/
  remote : ∀ href, ref = .remote href → m.directory.find? (nameFor url) = none ∧
    ∀ snapshot, ∃ answer, respond? ⟨some m, snapshot⟩ "GET" (imagesPath ++ nameFor url) = some answer ∧ answer.status = 404

variable {p : Policy} {s m : State} {url : String} {events : List Event} {ref : ImageRef}

/-- A request for a local reference is answered with the file of the image. -/
theorem ServesBack.file_of_resolves (hp : p.urlStart = imagesPath) (ho : s.Orderly) (ha : s.directory.Admits (nameFor url))
    (h : s.Resolves p url events m ref) (hlocal : ref.isLocal = true) {later : List Event} {s' : State}
    (hs : m.steps? p later = some s') (hremove : ∀ i, Event.remove i ∉ later) (snapshot : Option Snapshot) :
    ∃ f, s'.directory.file? (nameFor url) = some f ∧
      respond? ⟨some s', snapshot⟩ "GET" ref.href = some (.image (mediaTypeFor url) f.content) := by
  obtain ⟨hhref, hfound⟩ := h.found hlocal
  obtain ⟨entry, hentry⟩ := Option.ne_none_iff_exists'.mp (find?_fileName_of_steps? hs hremove hfound)
  have hkept := (ho.steps? (State.steps?_trans h.run hs)).2
  cases entry with
  | directory modified children => exact absurd (hkept.kept _ modified children hentry) (ha modified children)
  | file f =>
    obtain ⟨entries, hpresent⟩ := Directory.exists_present_of_find? hentry
    refine ⟨f, Directory.file?_eq_some_iff.mpr hentry, ?_⟩
    rw [hhref, Policy.localRef, hp, respond?_fileName rfl (by rw [hpresent]; nofun), hentry]
    simp only [mediaType_ofUrl, mediaTypeFor_secure]

/-- What the download that a call has begun and those after it leave under the name of the image. -/
theorem ServesBack.renewed_of_resolves (hr : Reachable p s) (ho : s.Orderly) (ha : s.directory.Admits (nameFor url))
    (h : s.Resolves p url events m ref) {t s' : State} {rest later : List Event}
    (hb : s.BeginsDownload p url events t rest) (hs : m.steps? p later = some s')
    (hremove : ∀ i, Event.remove i ∉ rest ++ later) (hn : s'.Alone (Link.secure url)) :
    (∃ phase, s'.downloads[t.downloads.length]? = some ⟨Link.secure url, phase⟩) ∧
      s'.Renewed (Link.secure url) t.downloads.length (t.directory.find? (nameFor url))
        (.register s.calls.length :: (rest ++ later)) := by
  obtain ⟨initial, hevents, hinitial, hmarker⟩ := id hb
  have hregistered : t.steps? p (.register s.calls.length :: rest) = some m := by
    have hrun := h.run
    rw [hevents, State.steps?_append, hinitial, Option.bind_some] at hrun
    exact hrun
  obtain ⟨hot, hkept⟩ := ho.steps? hinitial
  obtain ⟨phase, hphase⟩ := hb.download hregistered
  refine ⟨State.download_of_steps? hs hphase, ?_⟩
  refine State.renewed_of_steps? (hr.steps? hinitial) hot (hkept.admits ha) hmarker (State.steps?_trans hregistered hs) ?_ hn
  intro i hi
  exact hremove i ((List.mem_cons.mp hi).resolve_left nofun)

/-- Where the remote URL is given there is no file, and a request by its name finds none. -/
theorem ServesBack.remote_of_resolves (hd : s.directory ≠ .obstructed) {href : String}
    (h : s.Resolves p url events m (.remote href)) (snapshot : Option Snapshot) :
    respond? ⟨some m, snapshot⟩ "GET" (imagesPath ++ nameFor url) = some (.notFound ("cached image " ++ nameFor url)) := by
  have hnone : m.directory.find? (fileName (Link.secure url)) = none := h.absent
  rw [nameFor, respond?_fileName rfl (obstructed_of_steps? h.run hd), hnone]

/-- A cache with an expired image. -/
def expiredCache : State :=
  .begun ⟨10, imagesPath, 1⟩ (.present [(nameFor "http://a/b.png", .file ⟨0, [9], 0⟩)]) 11

/-- What its first download does when the source delivers a new image for it. -/
def replacement : List Event :=
  [.queue 0, .acquire 0] ++ carrying 0 [[4], [5]]

/-- A call for an expired image is answered with it and begins a download, which then runs to its end. -/
theorem expired_run : ∃ t m s',
    expiredCache.Resolves ⟨10, imagesPath, 1⟩ "http://a/b.png" [.register 0, .lookAgain 0] m
      (.stale (imagesPath ++ nameFor "http://a/b.png")) ∧
    expiredCache.BeginsDownload ⟨10, imagesPath, 1⟩ "http://a/b.png" [.register 0, .lookAgain 0] t [.lookAgain 0] ∧
    t.downloads = [] ∧ m.directory.file? (nameFor "http://a/b.png") = some ⟨0, [9], 0⟩ ∧
    m.steps? ⟨10, imagesPath, 1⟩ replacement = some s' ∧ s'.downloads = [⟨"https://a/b.png", .ended⟩] := by
  let p : Policy := ⟨10, imagesPath, 1⟩
  let url := "https://a/b.png"
  let name := fileName url
  let found : Directory := .present [(name, .file ⟨0, [9], 0⟩)]
  let start := State.begun p found 11
  have hs : Link.secure "http://a/b.png" = url := rfl
  have hname : nameFor "http://a/b.png" = name := congrArg fileName hs
  have hne : name ≠ tempName name := fileName_ne_tempName url name
  have hthere : found.find? name = some (.file ⟨0, [9], 0⟩) := Directory.find?_insert_self [] name _
  have hold : ¬(Entry.file ⟨0, [9], 0⟩).IsFresh 10 11 := by decide
  have hcold : ¬start.HasFresh p url := by
    rintro ⟨entry, hentry, hfresh⟩
    obtain rfl := Option.some.inj (hthere.symm.trans hentry)
    exact hold hfresh
  have hstale : start.reference p url = .stale (imagesPath ++ name) := by
    rw [State.reference_of_not_hasFresh hcold, show start.directory.find? (fileName url) = _ from hthere]
  have himage : "http://a/b.png" ≠ "" := by decide
  obtain ⟨hresolves, hbegins⟩ := State.resolves_missed (p := p) (s := start) himage hcold rfl
  let answered := (start.spawn url).withCall .resolve url (.answered (start.reference p url))
  have hadmitted : answered.steps? p [.queue 0, .acquire 0] = some { answered.setPhase 0 .admitted with free := 0 } :=
    State.admitted rfl rfl rfl rfl
  have hcreate : found.create? 1 11 (tempName name) =
      some (.present [(name, .file ⟨0, [9], 0⟩), (tempName name, .file ⟨1, [], 11⟩)], 1) := by
    simp [found, Directory.create?, Directory.insert, hne]
  obtain ⟨directory, hcarried, -, -⟩ := State.carried (p := p) (s := { answered.setPhase 0 .admitted with free := 0 }) (d := 0)
    rfl hcreate (.of_file hthere) [[4], [5]]
  unfold expiredCache
  rw [hname, ← hstale]
  exact ⟨_, answered, _, hresolves, hbegins, rfl, Directory.file?_eq_some_iff.mpr hthere, State.steps?_trans hadmitted hcarried, rfl⟩

end Api

end ChannelWatch
