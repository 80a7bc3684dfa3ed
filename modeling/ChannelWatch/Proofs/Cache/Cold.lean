import ChannelWatch.Proofs.Cache.Files
import ChannelWatch.Proofs.Cache.InFlight

/-!
# Calls for one image

What holds in a run of calls for one image over a directory that has room for it and no fresh file: until the first call
registers nothing is tried (`State.Untried`), and then all calls share one download (`State.Shared`), as long as none of them
still stands between its look and its registration when the marker of the download is taken down.
-/

namespace ChannelWatch.Cache

variable {p : Policy} {s s' : State} {e : Event} {directory : Directory} {clock : Int} {v : String}

/-! ## Room for an image -/

namespace Directory

variable {d : Directory} {name : String} {now : Int}

/-- The directory is there, and takes the temporary and the finished file of an image. -/
structure HasRoom (d : Directory) (url : String) : Prop where
  there : ∃ entries, d = .present entries
  final : d.Admits (fileName url)
  temp : d.Admits (tempName (fileName url))

/-- The name stands for a file that was modified in a span of time. -/
def HoldsSince (d : Directory) (clock now : Int) (name : String) : Prop :=
  ∃ f, d.file? name = some f ∧ clock ≤ f.modified ∧ f.modified ≤ now

theorem HoldsSince.later {later : Int} (h : d.HoldsSince clock now name) (hle : now ≤ later) :
    d.HoldsSince clock later name := by
  obtain ⟨f, hf, hge, hmod⟩ := h
  exact ⟨f, hf, hge, Int.le_trans hmod hle⟩

/-- A file that was modified not longer ago than the time to live is fresh. -/
theorem HoldsSince.look {ttl : Nat} (h : d.HoldsSince clock now name) (hlt : now < clock + ttl) :
    d.look ttl now name = .fresh := by
  obtain ⟨f, hf, hge, hmod⟩ := h
  have hage : 0 ≤ now - f.modified ∧ now - f.modified < ttl := by omega
  exact look_eq_fresh_iff.mpr ⟨.file f, file?_eq_some_iff.mp hf, hage⟩

/-- Where there is room, the temporary file of an image can be opened, and leaves room for the finished one. -/
theorem HasRoom.create {url : String} (h : d.HasRoom url) (fresh : Nat) (now : Int) :
    ∃ d' file, d.create? fresh now (tempName (fileName url)) = some (d', file) ∧
      d'.HoldsSince now now (tempName (fileName url)) ∧ d'.Admits (fileName url) := by
  obtain ⟨d', file, hc⟩ := exists_create h.there h.temp fresh now
  obtain ⟨hnew, hothers, -⟩ := find?_create hc
  refine ⟨d', file, hc, ⟨_, file?_eq_some_iff.mpr hnew, Int.le_refl _, Int.le_refl _⟩, ?_⟩
  intro modified children
  rw [hothers _ (fileName_ne_tempName url _)]
  exact h.final modified children

/-- Writing to a file that is held open modifies no file before the time of writing. -/
theorem HoldsSince.write (h : d.HoldsSince clock now name) (hle : clock ≤ now) (file offset : Nat) (bytes : List UInt8) :
    (d.write file offset bytes now).HoldsSince clock now name := by
  obtain ⟨f, hf, hge, hmod⟩ := h
  have hfind := find?_write d file offset bytes now name
  rw [file?_eq_some_iff.mp hf, Option.map_some, Entry.written] at hfind
  split at hfind
  · exact ⟨_, file?_eq_some_iff.mpr hfind, hle, Int.le_refl _⟩
  · exact ⟨f, file?_eq_some_iff.mpr hfind, hge, hmod⟩

/-- A temporary file can be given its final name if this stands for no directory. -/
theorem HoldsSince.rename {url : String} (h : d.HoldsSince clock now (tempName (fileName url)))
    (hfinal : d.Admits (fileName url)) :
    ∃ d', d.rename? (tempName (fileName url)) (fileName url) = some d' ∧ d'.HoldsSince clock now (fileName url) := by
  obtain ⟨f, hf, hspan⟩ := h
  have hfind := file?_eq_some_iff.mp hf
  obtain ⟨d', hr⟩ := exists_rename hfind hfinal
  obtain ⟨-, hnew, -, -⟩ := find?_rename (fileName_ne_tempName url _).symm hr
  exact ⟨d', hr, f, file?_eq_some_iff.mpr (hnew.trans hfind), hspan⟩

end Directory

/-! ## Runs for one image -/

/-- The event may happen in a run for one image with a source that succeeds: every call is for a URL of this image, the source
does not fail, the pool stays open, and nothing is swept. -/
def Event.IsSmooth (v : String) : Event → Prop
  | .call _ url => Link.secure url = v
  | .close | .fail _ | .crash _ | .sweep | .takeTime _ | .inspect _ | .remove _ => False
  | _ => True

/-- A run of calls for one image over a directory that has room for it and holds no fresh file for it, which takes less than
the time to live. -/
structure State.ColdRun (p : Policy) (directory : Directory) (clock : Int) (v : String) (events : List Event) (s : State) :
    Prop where
  run : (State.begun p directory clock).steps? p events = some s
  image : v ≠ ""
  room : directory.HasRoom v
  cold : ∀ now, clock ≤ now → now < clock + p.ttl → directory.look p.ttl now (fileName v) ≠ .fresh
  smooth : ∀ e ∈ events, e.IsSmooth v
  short : s.clock < clock + p.ttl

/-- Whenever the marker of a download is taken down in a run, no call stands between its look and its registration. -/
def State.Gapless (p : Policy) (start : State) (events : List Event) : Prop :=
  ∀ m d, start.Happens p events m (.unmark d) → ∀ x ∈ m.calls, x.stage ≠ .looked

/-- The source has been asked for the image of a download in this phase. -/
def Phase.hasAsked : Phase → Bool
  | .spawned | .queued | .admitted | .opened _ => false
  | _ => true

/-- What the directory has for a download in a phase that began in a run for its image: room at first, then the temporary
file, and then the finished one. -/
def State.Provides (s : State) (clock : Int) (v : String) : Phase → Prop
  | .spawned | .queued | .admitted => s.directory.HasRoom v
  | .opened _ | .fetching _ _ | .fetched _ =>
    s.directory.HoldsSince clock s.clock (tempName (fileName v)) ∧ s.directory.Admits (fileName v)
  | .cleaning => False
  | .leaving | .released | .unmarked | .ended => s.directory.HoldsSince clock s.clock (fileName v)

/-- What the directory provides it provides as long as it is left alone. -/
theorem State.Provides.later {phase : Phase} (h : s.Provides clock v phase) (hdir : s'.directory = s.directory)
    (hclock : s.clock ≤ s'.clock) : s'.Provides clock v phase := by
  unfold Provides at h ⊢
  rw [hdir]
  cases phase with
  | spawned | queued | admitted => exact h
  | opened | fetching | fetched => exact ⟨h.1.later hclock, h.2⟩
  | cleaning => exact h
  | leaving | released | unmarked | ended => exact h.later hclock

/-- Before the first registration of a run for one image: every call has looked, and nothing else has happened. -/
structure State.Untried (p : Policy) (directory : Directory) (clock : Int) (v : String) (s : State) : Prop where
  since : clock ≤ s.clock
  opened : s.closed = false
  urls : ∀ x ∈ s.calls, x.url = v
  looked : ∀ x ∈ s.calls, x.stage = .looked
  downloads : s.downloads = []
  asked : s.asked = []
  free : s.free = p.permits
  untouched : s.directory = directory

/-- After the first registration: there is one download, which the calls share. Once its marker is gone, no call is about to
register, for the finished file is there. -/
structure State.Shared (p : Policy) (clock : Int) (v : String) (phase : Phase) (s : State) : Prop where
  since : clock ≤ s.clock
  opened : s.closed = false
  urls : ∀ x ∈ s.calls, x.url = v
  settled : phase.isMarked = false → ∀ x ∈ s.calls, x.stage ≠ .looked
  downloads : s.downloads = [⟨v, phase⟩]
  asked : s.asked = if phase.hasAsked then [v] else []
  free : s.free + (if phase.holdsPermit then 1 else 0) = p.permits
  files : s.Provides clock v phase

/-! ## What the steps of a run for one image do -/

theorem State.mem_calls_setStage {c : Nat} {purpose : Purpose} {url : String} {old new : Stage}
    (h : s.calls[c]? = some ⟨purpose, url, old⟩) {x : Call} (hx : x ∈ (s.setStage c new).calls) :
    x ∈ s.calls ∨ x = ⟨purpose, url, new⟩ := by
  rw [calls_setStage h] at hx
  exact List.mem_or_eq_of_mem_set hx

namespace State.Untried

/-- At the beginning nothing has been tried. -/
theorem begun : (State.begun p directory clock).Untried p directory clock v where
  since := Int.le_refl _
  opened := rfl
  urls := nofun
  looked := nofun
  downloads := rfl
  asked := rfl
  free := rfl
  untouched := rfl

theorem marker?_eq_none (h : s.Untried p directory clock v) (hb : s.Bookkept) (url : String) : s.marker? url = none := by
  cases hm : s.marker? url with
  | none => rfl
  | some d =>
    obtain ⟨phase, hd, -⟩ := (hb.marker_iff url d).mp (State.mem_markers_of_marker? hm)
    rw [h.downloads] at hd
    nomatch hd

/-- The first registration begins the download that all calls share. -/
theorem register (h : s.Untried p directory clock v) (hb : s.Bookkept) (hroom : directory.HasRoom v) {c : Nat}
    (hs : s.register? c = some s') : s'.Shared p clock v .spawned := by
  obtain ⟨purpose, url, hc, ⟨d, hm, -⟩ | ⟨-, rfl⟩⟩ := State.register?_eq_some_iff.mp hs
  · nomatch (h.marker?_eq_none hb url).symm.trans hm
  · obtain rfl : url = v := h.urls _ (List.mem_of_getElem? hc)
    have hc' : (s.spawn url).calls[c]? = some ⟨purpose, url, .looked⟩ := hc
    exact {
      since := h.since
      opened := h.opened
      urls := fun x hx => by
        rcases State.mem_calls_setStage hc' hx with hx | rfl
        · exact h.urls x hx
        · rfl
      settled := nofun
      downloads := by simp [State.setStage, State.spawn, h.downloads]
      asked := h.asked
      free := h.free
      files := by
        have hdir : s.directory.HasRoom url := by rw [h.untouched]; exact hroom
        exact hdir }

/-- A step of a run for one image leaves nothing tried, or begins the download. -/
theorem step (h : s.Untried p directory clock v) (hb : s.Bookkept) (himage : v ≠ "") (hroom : directory.HasRoom v)
    (hcold : directory.look p.ttl s.clock (fileName v) ≠ .fresh) (he : e.IsSmooth v) (hs : s.step? p e = some s') :
    s'.Untried p directory clock v ∨ s'.Shared p clock v .spawned := by
  cases e with
  | tick nanos =>
    obtain rfl := Option.some.inj hs
    exact Or.inl { h with since := Int.le_trans h.since (clock_le_of_step? hs) }
  | call purpose url =>
    obtain rfl := Option.some.inj hs
    obtain rfl : Link.secure url = v := he
    have hlooked : s.firstStage p purpose url = .looked := by
      refine State.firstStage_eq_looked_iff.mpr ⟨fun hu => himage (Link.secure_eq_empty_iff.mpr hu), ?_⟩
      rw [State.look, h.untouched]
      exact hcold
    rw [State.beginCall_eq, hlooked]
    refine Or.inl { h with urls := fun x hx => ?_, looked := fun x hx => ?_ }
    · rcases List.mem_append.mp hx with hx | hx
      · exact h.urls x hx
      · rw [List.mem_singleton.mp hx]
    · rcases List.mem_append.mp hx with hx | hx
      · exact h.looked x hx
      · rw [List.mem_singleton.mp hx]
  | register c => exact Or.inr (h.register hb hroom hs)
  | proceed c =>
    obtain ⟨_, _, _, hc, -⟩ := State.proceed?_eq_some_iff.mp hs
    nomatch h.looked _ (List.mem_of_getElem? hc)
  | lookAgain c =>
    obtain ⟨_, _, hc, -⟩ := State.lookAgain?_eq_some_iff.mp hs
    nomatch h.looked _ (List.mem_of_getElem? hc)
  | close | fail | crash | sweep | takeTime | inspect | remove => exact he.elim
  | _ =>
    obtain ⟨x, hx⟩ := exists_download_of_step? hs rfl
    rw [h.downloads] at hx
    nomatch hx

end State.Untried

namespace State.Shared

variable {phase old new : Phase}

/-- The one download has the first place. -/
theorem here (h : s.Shared p clock v phase) {d : Nat} {url : String} (hd : s.downloads[d]? = some ⟨url, old⟩) :
    d = 0 ∧ url = v ∧ phase = old := by
  rw [h.downloads] at hd
  cases d with
  | zero =>
    obtain ⟨rfl, rfl⟩ := Download.mk.inj (Option.some.inj hd)
    exact ⟨rfl, rfl, rfl⟩
  | succ d => nomatch hd

theorem setPhase (h : s.Shared p clock v phase) (new : Phase) : (s.setPhase 0 new).downloads = [⟨v, new⟩] := by
  simp [State.setPhase, h.downloads]

theorem marker? (h : s.Shared p clock v phase) (hb : s.Bookkept) (hm : phase.isMarked = true) : s.marker? v ≠ none := by
  intro hnone
  have hmem := (hb.marker_iff v 0).mpr ⟨phase, by rw [h.downloads]; rfl, hm⟩
  exact State.marker?_eq_none_iff.mp hnone (List.mem_map_of_mem hmem)

/-- A call that goes on past its registration changes nothing about the download. -/
theorem setStage (h : s.Shared p clock v phase) {c : Nat} {purpose : Purpose} {url : String} {stage next : Stage}
    (hc : s.calls[c]? = some ⟨purpose, url, stage⟩) (hne : next ≠ .looked) : (s.setStage c next).Shared p clock v phase := by
  refine { h with urls := fun x hx => ?_, settled := fun hm x hx => ?_ }
  · rcases State.mem_calls_setStage hc hx with hx | rfl
    · exact h.urls x hx
    · have hu := h.urls _ (List.mem_of_getElem? hc)
      exact hu
  · rcases State.mem_calls_setStage hc hx with hx | rfl
    · exact h.settled hm x hx
    · exact hne

/-- A new call is answered at once if the marker of the download is gone, for the finished file is there. -/
theorem call (h : s.Shared p clock v phase) (hshort : s.clock < clock + p.ttl) (purpose : Purpose) {url : String}
    (hu : Link.secure url = v) : (s.beginCall p purpose url).Shared p clock v phase := by
  rw [State.beginCall_eq, hu]
  refine { h with urls := fun x hx => ?_, settled := fun hm x hx => ?_ }
  · rcases List.mem_append.mp hx with hx | hx
    · exact h.urls x hx
    · rw [List.mem_singleton.mp hx]
  · rcases List.mem_append.mp hx with hx | hx
    · exact h.settled hm x hx
    · rw [List.mem_singleton.mp hx]
      have hfile : s.directory.HoldsSince clock s.clock (fileName v) := by
        have := h.files
        cases phase with
        | unmarked | ended => exact this
        | _ => nomatch hm
      have hfresh : s.look p (Link.secure url) = .fresh := by rw [hu]; exact hfile.look hshort
      exact fun hlooked => (State.firstStage_eq_looked_iff.mp hlooked).2 hfresh

/-- A call that registers joins the download. -/
theorem register (h : s.Shared p clock v phase) (hb : s.Bookkept) {c : Nat} (hs : s.register? c = some s') :
    s'.Shared p clock v phase := by
  obtain ⟨purpose, url, hc, ⟨d, -, rfl⟩ | ⟨hm, -⟩⟩ := State.register?_eq_some_iff.mp hs
  · refine h.setStage hc ?_
    cases purpose <;> exact nofun
  · -- without a marker no call could still be about to register
    have hcall := List.mem_of_getElem? hc
    obtain rfl : url = v := h.urls _ hcall
    cases hmarked : phase.isMarked with
    | true => exact absurd hm (h.marker? hb hmarked)
    | false => exact absurd rfl (h.settled hmarked _ hcall)

/-- A step of a run for one image keeps the one download, as long as no call is left behind when its marker is taken down. -/
theorem step (h : s.Shared p clock v phase) (hb : s.Bookkept) (hshort : s.clock < clock + p.ttl) (he : e.IsSmooth v)
    (hgap : ∀ d, e = .unmark d → ∀ x ∈ s.calls, x.stage ≠ .looked) (hs : s.step? p e = some s') :
    ∃ next, s'.Shared p clock v next := by
  cases e with
  | tick nanos =>
    obtain rfl := Option.some.inj hs
    have hclock := clock_le_of_step? hs
    exact ⟨phase, { h with since := Int.le_trans h.since hclock, files := h.files.later rfl hclock }⟩
  | call purpose url =>
    obtain rfl := Option.some.inj hs
    exact ⟨phase, h.call hshort purpose he⟩
  | register c => exact ⟨phase, h.register hb hs⟩
  | proceed c =>
    obtain ⟨_, _, _, hc, -, rfl⟩ := State.proceed?_eq_some_iff.mp hs
    exact ⟨phase, h.setStage hc nofun⟩
  | lookAgain c =>
    obtain ⟨_, _, hc, rfl⟩ := State.lookAgain?_eq_some_iff.mp hs
    exact ⟨phase, h.setStage hc nofun⟩
  | abandon d =>
    obtain ⟨-, hclosed, -⟩ := State.abandon?_eq_some_iff.mp hs
    nomatch h.opened.symm.trans hclosed
  | queue d =>
    obtain ⟨hd, rfl⟩ := State.queue?_eq_some_iff.mp hs
    obtain ⟨url, hd⟩ := State.phase?_eq_some_iff.mp hd
    obtain ⟨rfl, rfl, rfl⟩ := h.here hd
    exact ⟨.queued, { h with downloads := h.setPhase _, files := h.files, free := h.free }⟩
  | acquire d =>
    obtain ⟨hq, -, line, free, -, hfree, rfl⟩ := State.acquire?_eq_some_iff.mp hs
    obtain ⟨url, hd⟩ := State.phase?_eq_some_iff.mp hq
    obtain ⟨rfl, rfl, rfl⟩ := h.here hd
    have hpermits : free + 1 = p.permits := hfree ▸ h.free
    exact ⟨.admitted, { h with downloads := h.setPhase _, free := hpermits }⟩
  | create d =>
    obtain ⟨url, hd, hcases⟩ := State.create?_eq_some_iff.mp hs
    obtain ⟨rfl, rfl, rfl⟩ := h.here hd
    have hroom : s.directory.HasRoom url := h.files
    obtain ⟨directory', file', hc', hheld, hfinal⟩ := hroom.create s.freshFile s.clock
    obtain ⟨directory, file, hc, rfl⟩ | ⟨hnone, -⟩ := hcases
    · obtain ⟨rfl, rfl⟩ := Prod.mk.inj (Option.some.inj (hc'.symm.trans hc))
      obtain ⟨f, hf, hge, hle⟩ := hheld
      have hsince : directory'.HoldsSince clock s.clock (tempName (fileName url)) :=
        ⟨f, hf, Int.le_trans h.since hge, hle⟩
      exact ⟨.opened file', { h with downloads := h.setPhase _, files := ⟨hsince, hfinal⟩ }⟩
    · nomatch hc'.symm.trans hnone
  | ask d =>
    obtain ⟨url, file, hd, rfl⟩ := State.ask?_eq_some_iff.mp hs
    obtain ⟨rfl, rfl, rfl⟩ := h.here hd
    have hasked : s.asked = [] := h.asked
    exact ⟨.fetching file [], { h with
      downloads := h.setPhase _
      asked := by simp [hasked, Phase.hasAsked]
      files := h.files }⟩
  | write d bytes =>
    obtain ⟨url, file, body, hd, rfl⟩ := State.write?_eq_some_iff.mp hs
    obtain ⟨rfl, rfl, rfl⟩ := h.here hd
    obtain ⟨hheld, hfinal⟩ := h.files
    exact ⟨.fetching file (body ++ bytes), { h with
      downloads := h.setPhase _
      files := ⟨hheld.write h.since _ _ _, hfinal.write _ _ _ _⟩ }⟩
  | deliver d =>
    obtain ⟨url, file, body, hd, rfl⟩ := State.deliver?_eq_some_iff.mp hs
    obtain ⟨rfl, rfl, rfl⟩ := h.here hd
    exact ⟨.fetched body, { h with downloads := h.setPhase _, files := h.files }⟩
  | rename d =>
    obtain ⟨url, body, hd, hcases⟩ := State.rename?_eq_some_iff.mp hs
    obtain ⟨rfl, rfl, rfl⟩ := h.here hd
    obtain ⟨hheld, hfinal⟩ := h.files
    obtain ⟨directory', hr', hnew⟩ := hheld.rename hfinal
    obtain ⟨directory, hr, rfl⟩ | ⟨hnone, -⟩ := hcases
    · obtain rfl := Option.some.inj (hr'.symm.trans hr)
      exact ⟨.leaving, { h with downloads := h.setPhase _, files := hnew }⟩
    · nomatch hr'.symm.trans hnone
  | clean d =>
    obtain ⟨url, hd, -⟩ := State.clean?_eq_some_iff.mp hs
    obtain ⟨rfl, rfl, rfl⟩ := h.here hd
    exact h.files.elim
  | release d =>
    obtain ⟨hd, rfl⟩ := State.release?_eq_some_iff.mp hs
    obtain ⟨url, hd⟩ := State.phase?_eq_some_iff.mp hd
    obtain ⟨rfl, rfl, rfl⟩ := h.here hd
    have hpermits : s.free + 1 = p.permits := h.free
    exact ⟨.released, { h with downloads := h.setPhase _, free := hpermits, files := h.files }⟩
  | unmark d =>
    obtain ⟨url, hd, rfl⟩ := State.unmark?_eq_some_iff.mp hs
    obtain ⟨rfl, rfl, rfl⟩ := h.here hd
    exact ⟨.unmarked, { h with downloads := h.setPhase _, settled := fun _ => hgap 0 rfl, files := h.files }⟩
  | signal d =>
    obtain ⟨hd, rfl⟩ := State.signal?_eq_some_iff.mp hs
    obtain ⟨url, hd⟩ := State.phase?_eq_some_iff.mp hd
    obtain ⟨rfl, rfl, rfl⟩ := h.here hd
    exact ⟨.ended, { h with downloads := h.setPhase _, files := h.files }⟩
  | close | fail | crash | sweep | takeTime | inspect | remove => exact he.elim

end State.Shared

end ChannelWatch.Cache
