import ChannelWatch.Proofs.Cache.Cold
import ChannelWatch.Proofs.Cache.Waiting

/-!
# How calls are answered

A call for an image is answered with what stands under the image's name in one of three ways (`State.reference`). If that is fresh
the call is over with its first look. If not, the call begins a download and is answered with what there was before it, or it joins
the download that is in flight: then it waits for this one, begins none, and is answered with what there is after it
(`State.WaitsFor`). Preloading an image begins a download in the same cases, and waits in none.
-/

namespace ChannelWatch.Cache

variable {p : Policy} {s s' : State} {e : Event} {c d : Nat} {purpose : Purpose} {url : String} {ref : ImageRef}

/-! ## The three answers -/

/-- There is a fresh entry for the image behind a secure URL. -/
def State.HasFresh (p : Policy) (s : State) (url : String) : Prop :=
  ∃ entry, s.directory.find? (fileName url) = some entry ∧ entry.IsFresh p.ttl s.clock

/-- The reference to the image behind a secure URL: a local one to the entry for it, fresh or stale by the entry's age, or the URL
if there is none. -/
def State.reference (p : Policy) (s : State) (url : String) : ImageRef :=
  match s.directory.find? (fileName url) with
  | some entry =>
    if entry.IsFresh p.ttl s.clock then .fresh (p.urlStart ++ fileName url) else .stale (p.urlStart ++ fileName url)
  | none => .remote url

/-- A look at an image gives the reference to it. -/
theorem State.refer_look (p : Policy) (s : State) (url : String) : p.refer url (s.look p url) = s.reference p url := by
  unfold look reference
  cases hf : s.directory.find? (fileName url) with
  | none =>
    rw [Directory.look_eq_absent_iff.mpr hf]
    rfl
  | some entry =>
    rw [Directory.look_of_find? hf]
    by_cases hfresh : entry.IsFresh p.ttl s.clock
    · simp only [hfresh, if_true]
      rfl
    · simp only [hfresh, if_false]
      rfl

/-- A look finds a fresh file exactly if there is a fresh entry. -/
theorem State.look_eq_fresh_iff : s.look p url = .fresh ↔ s.HasFresh p url :=
  Directory.look_eq_fresh_iff

/-- The first look at an image with a fresh entry settles the call. -/
theorem State.firstStage_of_hasFresh (himage : url ≠ "") (h : s.HasFresh p (Link.secure url)) (purpose : Purpose) :
    s.firstStage p purpose url = .settled purpose (.fresh (p.urlStart ++ nameFor url)) := by
  rw [firstStage, firstRef?, if_neg (by simpa using himage), if_pos (look_eq_fresh_iff.mpr h)]
  rfl

theorem State.firstStage_of_not_hasFresh (himage : url ≠ "") (h : ¬s.HasFresh p (Link.secure url)) (purpose : Purpose) :
    s.firstStage p purpose url = .looked :=
  firstStage_eq_looked_iff.mpr ⟨himage, mt look_eq_fresh_iff.mp h⟩

/-- Without a fresh entry, the reference is to a stale one or to the remote URL. -/
theorem State.reference_of_not_hasFresh (h : ¬s.HasFresh p url) : s.reference p url =
    match s.directory.find? (fileName url) with
    | some _ => .stale (p.urlStart ++ fileName url)
    | none => .remote url := by
  unfold reference
  cases hf : s.directory.find? (fileName url) with
  | none => rfl
  | some entry => exact if_neg fun hfresh => h ⟨entry, hf, hfresh⟩

/-! ## Where an answer comes from -/

/-- A call has got an answer exactly if it is answered. -/
theorem State.answer?_eq_some_iff :
    s.answer? c = some ref ↔ ∃ purpose url, s.calls[c]? = some ⟨purpose, url, .answered ref⟩ := by
  unfold answer?
  constructor
  · intro h
    split at h
    · rename_i purpose url ref' hc
      obtain rfl := Option.some.inj h
      exact ⟨purpose, url, hc⟩
    · nomatch h
  · rintro ⟨purpose, url, hc⟩
    rw [hc]

theorem State.answer?_eq_none {stage : Stage} (hc : s.calls[c]? = some ⟨purpose, url, stage⟩)
    (hstage : ∀ ref, stage ≠ .answered ref) : s.answer? c = none := by
  refine Option.eq_none_iff_forall_ne_some.mpr fun ref h => ?_
  obtain ⟨_, _, hanswered⟩ := answer?_eq_some_iff.mp h
  exact hstage ref (Call.mk.inj (Option.some.inj (hc.symm.trans hanswered))).2.2

/-- A call that is answered after a step was so before it, has been answered by its first look, or by its second one. -/
theorem CallTurn.answer_came (t : CallTurn p s e s') (hc : s'.calls[c]? = some ⟨purpose, url, .answered ref⟩) :
    s.calls[c]? = some ⟨purpose, url, .answered ref⟩ ∨
      (c = s.calls.length ∧ ∃ given, url = Link.secure given ∧ s.firstRef? p given = some ref) ∨
      (e = .lookAgain c ∧ s.calls[c]? = some ⟨purpose, url, .ready⟩ ∧ ref = s.reference p url) := by
  cases t with
  | idle calls => exact Or.inl (calls ▸ hc)
  | call purpose' given calls =>
    rw [calls, getElem?_append_singleton] at hc
    split at hc
    · rename_i hlast
      obtain ⟨-, rfl, hstage⟩ := Call.mk.inj (Option.some.inj hc)
      refine Or.inr (Or.inl ⟨hlast, given, rfl, ?_⟩)
      unfold State.firstStage at hstage
      cases hfirst : s.firstRef? p given with
      | none => simp [hfirst] at hstage
      | some first => cases purpose' <;> simp_all [Stage.settled]
    · exact Or.inl hc
  | go x purpose' url' old new here next calls =>
    rw [calls, getElem?_set_of_eq_some here] at hc
    split at hc
    · rename_i hx
      subst hx
      obtain ⟨rfl, rfl, rfl⟩ := Call.mk.inj (Option.some.inj hc)
      cases next with
      | answer => exact Or.inr (Or.inr ⟨rfl, here, s.refer_look p _⟩)
    · exact Or.inl hc

/-- A call that is there without an answer gets one by looking again, and it is the reference to the image at that time. -/
theorem State.answered_later {events : List Event} {stage : Stage} (h : s.steps? p events = some s')
    (hc : s.calls[c]? = some ⟨purpose, url, stage⟩) (hstage : ∀ ref, stage ≠ .answered ref) (ha : s'.answer? c = some ref) :
    ∃ m, s.Happens p events m (.lookAgain c) ∧ m.calls[c]? = some ⟨purpose, url, .ready⟩ ∧ ref = m.reference p url := by
  suffices hall : (∃ stage, s'.calls[c]? = some ⟨purpose, url, stage⟩) ∧
      (s'.calls[c]? = some ⟨purpose, url, .answered ref⟩ → ∃ m, s.Happens p events m (.lookAgain c) ∧
        m.calls[c]? = some ⟨purpose, url, .ready⟩ ∧ ref = m.reference p url) by
    obtain ⟨⟨stage', hstays⟩, hall⟩ := hall
    obtain ⟨_, _, hanswered⟩ := answer?_eq_some_iff.mp ha
    obtain ⟨rfl, rfl, rfl⟩ := Call.mk.inj (Option.some.inj (hstays.symm.trans hanswered))
    exact hall hanswered
  refine steps?_induction (motive := fun es x => (∃ stage, x.calls[c]? = some ⟨purpose, url, stage⟩) ∧
    (x.calls[c]? = some ⟨purpose, url, .answered ref⟩ → ∃ m, s.Happens p es m (.lookAgain c) ∧
      m.calls[c]? = some ⟨purpose, url, .ready⟩ ∧ ref = m.reference p url))
    ⟨⟨stage, hc⟩, fun ha => absurd (Call.mk.inj (Option.some.inj (hc.symm.trans ha))).2.2 (hstage ref)⟩
    (fun es m e m' hes ih he => ?_) h
  obtain ⟨⟨old, hold⟩, ih⟩ := ih
  obtain ⟨new, hnew, -⟩ := (callTurn_of_step? he).call_stays hold
  refine ⟨⟨new, hnew⟩, fun ha => ?_⟩
  rcases (callTurn_of_step? he).answer_came ha with hbefore | ⟨hlast, -⟩ | ⟨rfl, hready, rfl⟩
  · obtain ⟨x, hx, hready, href⟩ := ih hbefore
    exact ⟨x, hx.append [e], hready, href⟩
  · have := (List.getElem?_eq_some_iff.mp hold).1
    omega
  · exact ⟨m, happens_last hes, hready, rfl⟩

/-- An answer stays whatever happens. -/
theorem State.answer?_of_step? (h : s.answer? c = some ref) (hs : s.step? p e = some s') : s'.answer? c = some ref := by
  obtain ⟨purpose, url, hc⟩ := answer?_eq_some_iff.mp h
  obtain ⟨new, hnew, rfl | next⟩ := (callTurn_of_step? hs).call_stays hc
  · exact answer?_eq_some_iff.mpr ⟨purpose, url, hnew⟩
  · nomatch next

theorem State.answer?_of_steps? {events : List Event} (h : s.answer? c = some ref) (hs : s.steps? p events = some s') :
    s'.answer? c = some ref :=
  steps?_induction (motive := fun _ m => m.answer? c = some ref) h (fun _ _ _ _ _ ih he => answer?_of_step? ih he) hs

/-! ## Looking again -/

/-- A call that is ready and looks again is answered with the reference to its image. -/
theorem State.lookAgain?_of_ready (h : s.calls[c]? = some ⟨purpose, url, .ready⟩) :
    s.lookAgain? p c = some (s.setStage c (.answered (s.reference p url))) :=
  lookAgain?_eq_some_iff.mpr ⟨purpose, url, h, by rw [refer_look]⟩

theorem State.answer?_setStage {stage : Stage} (h : s.calls[c]? = some ⟨purpose, url, stage⟩) (ref : ImageRef) :
    (s.setStage c (.answered ref)).answer? c = some ref :=
  answer?_eq_some_iff.mpr ⟨purpose, url, getElem?_setStage_self h _⟩

/-- A call that is ready, or that waits for a download which has told, is answered as soon as it goes on. -/
theorem State.answer?_conclude {stage : Stage} (h : s.calls[c]? = some ⟨purpose, url, stage⟩)
    (hstage : stage = .ready ∨ ∃ d, stage = .waiting d ∧ s.isTold d = true) :
    (s.attempt p (conclude c)).answer? c = some (s.reference p url) := by
  rcases hstage with rfl | ⟨d, rfl, htold⟩
  · have hno : s.step? p (.proceed c) = none := by simp [step?, proceed?, h]
    have hagain : s.step? p (.lookAgain c) = some _ := lookAgain?_of_ready h
    rw [conclude, attempt, hno, Option.getD_none, attempt, hagain, Option.getD_some, attempt, answer?_setStage h]
  · have hgo : s.step? p (.proceed c) = some (s.setStage c .ready) :=
      proceed?_eq_some_iff.mpr ⟨purpose, url, d, h, isTold_iff.mp htold, rfl⟩
    have hready := getElem?_setStage_self h .ready
    have hagain : (s.setStage c .ready).step? p (.lookAgain c) = some _ := lookAgain?_of_ready hready
    rw [conclude, attempt, hgo, Option.getD_some, attempt, hagain, Option.getD_some, attempt, answer?_setStage hready]
    rfl

/-! ## Calls that begin no download any more -/

/-- A call that does not wait and has registered begins no download in what follows. -/
theorem State.not_mem_starters_of_isPast {events : List Event} {stage : Stage} (h : s.steps? p events = some s')
    (hc : s.calls[c]? = some ⟨purpose, url, stage⟩) (hp : stage.isPast = true) : c ∉ s.starters p events := by
  suffices hall : c ∉ s.starters p events ∧ ∃ stage, s'.calls[c]? = some ⟨purpose, url, stage⟩ ∧ stage.isPast = true from hall.1
  refine steps?_induction (motive := fun es m => c ∉ s.starters p es ∧
    ∃ stage, m.calls[c]? = some ⟨purpose, url, stage⟩ ∧ stage.isPast = true) ⟨nofun, stage, hc, hp⟩
    (fun es m e m' hes ih he => ?_) h
  obtain ⟨hnot, old, hold, hpast⟩ := ih
  rw [starters_snoc hes he, List.mem_append, not_or]
  refine ⟨⟨hnot, fun hmem => ?_⟩, isPast_step he hold hpast⟩
  rcases startedBy_cases he with ⟨hnone, -⟩ | ⟨c', _, _, _, hsome, -, hlooked, -, -⟩
  · rw [hnone] at hmem
    nomatch hmem
  · -- only a call that has just looked begins a download
    rw [hsome, List.mem_singleton] at hmem
    subst hmem
    obtain ⟨-, -, rfl⟩ := Call.mk.inj (Option.some.inj (hold.symm.trans hlooked))
    nomatch hpast

/-! ## Waiting for the download in flight -/

/-- A call for an image waits for one download of it, and is answered with what there is after this download. -/
structure State.WaitsFor (p : Policy) (s : State) (c : Nat) (url : String) (d : Nat) : Prop where
  /-- The download is one of the image, and has not told that it is over. -/
  target : (∃ phase, s.downloads[d]? = some ⟨url, phase⟩) ∧ s.isTold d = false
  /-- Whatever happens, the call waits as long as the download has not told. -/
  held : ∀ events t, s.steps? p events = some t → t.isTold d = false →
    t.calls[c]? = some ⟨.resolve, url, .waiting d⟩ ∧ t.answer? c = none ∧ t.proceed? c = none
  /-- Whatever happens, the call begins no download. -/
  idle : ∀ events t, s.steps? p events = some t → c ∉ s.starters p events
  /-- When the call has an answer, it was given it after the download had told, and as the reference to the image then. -/
  answered : ∀ events t ref, s.steps? p events = some t → t.answer? c = some ref →
    ∃ m, s.Happens p events m (.lookAgain c) ∧ m.isTold d = true ∧ ref = m.reference p url
  /-- When the download has told, the call can be given its answer at once. -/
  served : ∀ events t, s.steps? p events = some t → t.isTold d = true → t.answer? c = none →
    (t.attempt p (conclude c)).answer? c = some (t.reference p url)

/-- A call that waits for a download that has not told waits for this download. -/
theorem Reachable.waitsFor (hr : Reachable p s) (hc : s.calls[c]? = some ⟨.resolve, url, .waiting d⟩)
    (htold : s.isTold d = false) : s.WaitsFor p c url d := by
  refine {
    target := ⟨(hr.linked c .resolve url d hc).2, htold⟩
    held := fun events t ht hnot => ?_
    idle := fun events t ht => State.not_mem_starters_of_waiting ht hc
    answered := fun events t ref ht ha => ?_
    served := fun events t ht hyes hnone => ?_ }
  · obtain ⟨stage, hstage, rfl | ⟨hyes, -⟩⟩ := State.waiting_later ht hc
    · exact ⟨hstage, State.answer?_eq_none hstage nofun, (State.proceed?_eq_none_iff hstage).mpr hnot⟩
    · nomatch hnot.symm.trans hyes
  · obtain ⟨m, hm, hready, href⟩ := State.answered_later ht hc nofun ha
    obtain ⟨before, after, rfl, hbefore⟩ := hm
    refine ⟨m, ⟨before, after, rfl, hbefore⟩, ?_, href⟩
    -- the call is ready only because the download had told
    obtain ⟨stage, hstage, rfl | ⟨hyes, -⟩⟩ := State.waiting_later hbefore hc
    · nomatch (Call.mk.inj (Option.some.inj (hstage.symm.trans hready))).2.2
    · exact hyes
  · obtain ⟨stage, hstage, rfl | ⟨-, rfl | ⟨ref, rfl⟩⟩⟩ := State.waiting_later ht hc
    · exact State.answer?_conclude hstage (Or.inr ⟨d, rfl, hyes⟩)
    · exact State.answer?_conclude hstage (Or.inl rfl)
    · exact absurd ((State.answer?_eq_some_iff.mpr ⟨_, _, hstage⟩).symm.trans hnone) (Option.some_ne_none ref)

/-! ## A call on its own -/

/-- The state with one more call. -/
def State.withCall (s : State) (purpose : Purpose) (url : String) (stage : Stage) : State :=
  { s with calls := s.calls ++ [⟨purpose, url, stage⟩] }

theorem State.calls_withCall (s : State) (purpose : Purpose) (url : String) (stage : Stage) :
    (s.withCall purpose url stage).calls[s.calls.length]? = some ⟨purpose, url, stage⟩ := by
  rw [withCall, getElem?_append_singleton, if_pos rfl]

/-- The call that was added is put at another stage. -/
theorem State.setStage_withCall (s : State) (purpose : Purpose) (url : String) (old new : Stage) :
    (s.withCall purpose url old).setStage s.calls.length new = s.withCall purpose url new := by
  have hcalls : ((s.withCall purpose url old).setStage s.calls.length new).calls = (s.withCall purpose url new).calls := by
    rw [calls_setStage (calls_withCall s purpose url old)]
    simp [withCall]
  exact congrArg (fun calls => { s with calls := calls }) hcalls

theorem State.beginCall_eq_withCall (p : Policy) (s : State) (purpose : Purpose) (url : String) :
    s.beginCall p purpose url = s.withCall purpose (Link.secure url) (s.firstStage p purpose url) :=
  beginCall_eq p s purpose url

/-- A call that registers for an image in flight joins the download if it is there for a reference. -/
theorem State.register?_of_marked (hm : s.marker? url = some d) (purpose : Purpose) :
    (s.withCall purpose url .looked).register? s.calls.length = some (s.withCall purpose url (match purpose with
      | .resolve => .waiting d
      | .preload => .finished)) :=
  register?_eq_some_iff.mpr ⟨purpose, url, calls_withCall s _ _ _, Or.inl ⟨d, hm, (setStage_withCall s _ _ _ _).symm⟩⟩

/-- A call that registers for an image that is not in flight begins a download. -/
theorem State.register?_of_unmarked (hm : s.marker? url = none) (purpose : Purpose) :
    (s.withCall purpose url .looked).register? s.calls.length = some ((s.spawn url).withCall purpose url (match purpose with
      | .resolve => .ready
      | .preload => .finished)) :=
  register?_eq_some_iff.mpr ⟨purpose, url, calls_withCall s _ _ _, Or.inr ⟨hm, (setStage_withCall (s.spawn url) _ _ _ _).symm⟩⟩

/-- What calls for the image behind a URL come to that are made in a state. -/
structure State.CallsAnswered (p : Policy) (s : State) (url : String) : Prop where
  /-- With a fresh entry, the first look answers a call for a reference, and the call begins no download at any time. -/
  fresh : s.HasFresh p (Link.secure url) → ∃ t, s.step? p (.call .resolve url) = some t ∧
    t = s.withCall .resolve (Link.secure url) (.answered (.fresh (p.urlStart ++ nameFor url))) ∧
    ∀ events x, t.steps? p events = some x → s.calls.length ∉ t.starters p events
  /-- Without one, and with no download of the image in flight, the call begins a download and is answered before the download does
  anything; it begins no second one at any time. -/
  missed : ¬s.HasFresh p (Link.secure url) → s.marker? (Link.secure url) = none → ∃ t,
    s.steps? p [.call .resolve url, .register s.calls.length, .lookAgain s.calls.length] = some t ∧
    t = (s.spawn (Link.secure url)).withCall .resolve (Link.secure url)
      (.answered (match s.directory.find? (nameFor url) with
        | some _ => .stale (p.urlStart ++ nameFor url)
        | none => .remote (Link.secure url))) ∧
    ∀ events x, t.steps? p events = some x → s.calls.length ∉ t.starters p events
  /-- Without one, and with a download of the image in flight, the call changes nothing and waits for this download. -/
  joined : ¬s.HasFresh p (Link.secure url) → ∀ d, s.marker? (Link.secure url) = some d → ∃ t,
    s.steps? p [.call .resolve url, .register s.calls.length] = some t ∧
    t = s.withCall .resolve (Link.secure url) (.waiting d) ∧ t.WaitsFor p s.calls.length (Link.secure url) d
  /-- With a fresh entry, preloading the image is over with the first look. -/
  preloadedFresh : s.HasFresh p (Link.secure url) →
    s.step? p (.call .preload url) = some (s.withCall .preload (Link.secure url) .finished)
  /-- Without one, preloading the image is over when it has registered, and has begun a download if none was in flight. -/
  preloaded : ¬s.HasFresh p (Link.secure url) → s.steps? p [.call .preload url, .register s.calls.length] =
    some ((match s.marker? (Link.secure url) with
      | none => s.spawn (Link.secure url)
      | some _ => s).withCall .preload (Link.secure url) .finished)
  /-- No call that preloads ever waits. -/
  unwaiting : ∀ events x, s.steps? p events = some x → ∀ (c : Nat) (image : String) (d : Nat),
    x.calls[c]? ≠ some ⟨.preload, image, .waiting d⟩
  /-- If other things happen between the first look of a call for a reference and its registration, it is the state that it registers
  in which decides whether it begins a download or waits for one. -/
  registered : ∀ events x, s.steps? p (.call .resolve url :: events) = some x →
    x.calls[s.calls.length]? = some ⟨.resolve, Link.secure url, .looked⟩ →
    (x.marker? (Link.secure url) = none → ∃ t, x.steps? p [.register s.calls.length, .lookAgain s.calls.length] = some t ∧
      t.answer? s.calls.length = some (x.reference p (Link.secure url)) ∧
      t.downloads = x.downloads ++ [⟨Link.secure url, .spawned⟩] ∧
      t.markers = (Link.secure url, x.downloads.length) :: x.markers) ∧
    (∀ d, x.marker? (Link.secure url) = some d → ∃ t, x.step? p (.register s.calls.length) = some t ∧
      t.downloads = x.downloads ∧ t.markers = x.markers ∧ t.WaitsFor p s.calls.length (Link.secure url) d)

/-- A call that has joined a download waits for it. -/
theorem Reachable.waitsFor_of_register (hr : Reachable p s) (hc : s.calls[c]? = some ⟨.resolve, url, .looked⟩)
    (hm : s.marker? url = some d) :
    s.step? p (.register c) = some (s.setStage c (.waiting d)) ∧ (s.setStage c (.waiting d)).WaitsFor p c url d := by
  have hs : s.step? p (.register c) = some (s.setStage c (.waiting d)) :=
    State.register?_eq_some_iff.mpr ⟨.resolve, url, hc, Or.inl ⟨d, hm, rfl⟩⟩
  have hwaiting := State.getElem?_setStage_self hc (.waiting d)
  exact ⟨hs, (hr.step hs).waitsFor hwaiting (hr.bookkept.isTold_of_join hs hwaiting).2⟩

/-- A call that registers for an image that is not in flight begins a download, and is answered as soon as it looks again with what
there is then. -/
theorem State.steps?_begin (hc : s.calls[c]? = some ⟨.resolve, url, .looked⟩) (hm : s.marker? url = none) :
    s.steps? p [.register c, .lookAgain c] =
      some (((s.spawn url).setStage c .ready).setStage c (.answered (s.reference p url))) := by
  have hregister : s.step? p (.register c) = some ((s.spawn url).setStage c .ready) :=
    register?_eq_some_iff.mpr ⟨.resolve, url, hc, Or.inr ⟨hm, rfl⟩⟩
  have hready := getElem?_setStage_self (s := s.spawn url) hc .ready
  exact steps?_trans (steps?_singleton hregister) (steps?_singleton (e := .lookAgain c) (lookAgain?_of_ready hready))

/-- In every state that a cache can come to, a call for an image is answered at once with a fresh entry if there is one, begins a
download and is answered with what there is before it if none is in flight, and else waits for the one in flight and is answered
with what there is after it. Preloading begins a download in the same cases and never waits. -/
theorem calls_answered (hr : Reachable p s) (himage : url ≠ "") : s.CallsAnswered p url := by
  have hcall : ∀ purpose, s.step? p (.call purpose url) =
      some (s.withCall purpose (Link.secure url) (s.firstStage p purpose url)) := fun purpose =>
    congrArg some (s.beginCall_eq_withCall p purpose url)
  have hlooked : ¬s.HasFresh p (Link.secure url) → ∀ purpose, s.step? p (.call purpose url) =
      some (s.withCall purpose (Link.secure url) .looked) := fun h purpose => by
    rw [hcall, State.firstStage_of_not_hasFresh himage h]
  refine {
    fresh := fun h => ?_
    missed := fun h hm => ?_
    joined := fun h d hm => ?_
    preloadedFresh := fun h => by rw [hcall, State.firstStage_of_hasFresh himage h]; rfl
    preloaded := fun h => ?_
    unwaiting := fun events x hx c image d hc => nomatch ((hr.steps? hx).linked c _ image d hc).1
    registered := fun events x hx hc => ⟨fun hm => ?_, fun d hm => ?_⟩ }
  · refine ⟨_, hcall .resolve, by rw [State.firstStage_of_hasFresh himage h]; rfl, fun events x hx => ?_⟩
    rw [State.firstStage_of_hasFresh himage h] at hx ⊢
    exact State.not_mem_starters_of_isPast hx (State.calls_withCall s _ _ _) rfl
  · have hbegin := State.steps?_begin (p := p) (State.calls_withCall s .resolve (Link.secure url) .looked) hm
    refine ⟨_, State.steps?_trans (State.steps?_singleton (hlooked h .resolve)) hbegin, ?_, fun events x hx => ?_⟩
    · rw [nameFor, ← State.reference_of_not_hasFresh h]
      have hready := State.setStage_withCall (s.spawn (Link.secure url)) .resolve (Link.secure url) .looked .ready
      exact (congrArg (State.setStage · s.calls.length _) hready).trans (State.setStage_withCall (s.spawn _) _ _ _ _)
    · exact State.not_mem_starters_of_isPast hx
        (State.getElem?_setStage_self (State.getElem?_setStage_self (State.calls_withCall _ _ _ _) _) _) rfl
  · have hm' : (s.withCall .resolve (Link.secure url) .looked).marker? (Link.secure url) = some d := hm
    obtain ⟨hregister, hwaits⟩ := (hr.step (hlooked h .resolve)).waitsFor_of_register (State.calls_withCall s _ _ _) hm'
    refine ⟨_, State.steps?_trans (State.steps?_singleton (hlooked h .resolve)) (State.steps?_singleton hregister),
      State.setStage_withCall s _ _ _ _, hwaits⟩
  · rw [State.steps?, hlooked h, Option.bind_some]
    cases hm : s.marker? (Link.secure url) with
    | none => exact State.steps?_singleton (State.register?_of_unmarked hm .preload)
    | some d => exact State.steps?_singleton (State.register?_of_marked hm .preload)
  · have hready := State.getElem?_setStage_self (s := x.spawn (Link.secure url)) hc .ready
    exact ⟨_, State.steps?_begin hc hm, State.answer?_setStage hready _, rfl, rfl⟩
  · obtain ⟨hregister, hwaits⟩ := (hr.steps? hx).waitsFor_of_register hc hm
    exact ⟨_, hregister, rfl, rfl, hwaits⟩

/-- A call for an image that another call has begun to download waits for this download. -/
theorem calls_answered_in_flight : ∃ s, Reachable ⟨10, "/", 1⟩ s ∧ s.marker? "https://a/b.png" = some 0 ∧
    s.CallsAnswered ⟨10, "/", 1⟩ "http://a/b.png" ∧ ∃ t, s.steps? ⟨10, "/", 1⟩ [.call .resolve "http://a/b.png", .register 1] =
      some t ∧ t.WaitsFor ⟨10, "/", 1⟩ 1 "https://a/b.png" 0 := by
  let events : List Event := [.call .resolve "https://a/b.png", .register 0, .lookAgain 0, .queue 0, .acquire 0]
  obtain ⟨s, hs, hdirectory, hmarker, hcalls⟩ : ∃ s, (State.begun ⟨10, "/", 1⟩ .absent 0).steps? ⟨10, "/", 1⟩ events = some s ∧
      s.directory = .absent ∧ s.marker? "https://a/b.png" = some 0 ∧ s.calls.length = 1 := ⟨_, rfl, rfl, rfl, rfl⟩
  have hr := (Reachable.begun .absent 0).steps? hs
  have answered : s.CallsAnswered ⟨10, "/", 1⟩ "http://a/b.png" := calls_answered hr (by decide)
  have hcold : ¬s.HasFresh ⟨10, "/", 1⟩ (Link.secure "http://a/b.png") := by
    rintro ⟨entry, hentry, -⟩
    rw [hdirectory] at hentry
    nomatch hentry
  obtain ⟨t, ht, -, hwaits⟩ := answered.joined hcold 0 hmarker
  rw [hcalls] at ht hwaits
  exact ⟨s, hr, hmarker, answered, t, ht, hwaits⟩

end ChannelWatch.Cache
