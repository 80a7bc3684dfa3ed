import Mathlib.Data.List.Nodup
import ChannelWatch.Proofs.Cache.Deliveries
import ChannelWatch.Proofs.Cache.InFlight
import ChannelWatch.Proofs.Cache.Kept

/-!
# What lies in the cache directory

A cache that began over an empty directory, and whose source never crashed, keeps nothing in it but the files of images that the
source has delivered and the temporary files of downloads that are running (`directory_laid_out`). However a download ends, its
temporary file is gone by then: a download that neither renames nor removes it goes on to use it
(`State.find?_temp_of_given`). Nothing of this needs digests that do not collide.
-/

namespace ChannelWatch.Cache

variable {p : Policy} {s s' : State} {e : Event} {name : String}

/-! ## Names differ -/

namespace Directory

variable {d d' : Directory}

/-- No name stands for two entries. -/
def NamesDiffer (d : Directory) : Prop :=
  (d.entries.map (·.1)).Nodup

namespace NamesDiffer

/-- Where names differ, every entry is the one that is found under its name. -/
theorem find?_of_mem (h : d.NamesDiffer) {entry : Entry} (hmem : (name, entry) ∈ d.entries) : d.find? name = some entry := by
  cases hf : d.entries.find? (·.1 = name) with
  | none =>
    have hnone := List.find?_eq_none.mp hf _ hmem
    simp at hnone
  | some x =>
    have hx : x.1 = name := by simpa using List.find?_some hf
    have heq : x = (name, entry) := List.inj_on_of_nodup_map h (List.mem_of_find?_eq_some hf) hmem hx
    simp only [find?, hf, Option.map_some, heq]

theorem erase (h : d.NamesDiffer) (name : String) : (d.erase name).NamesDiffer := by
  cases d with
  | present es => exact List.Nodup.sublist (List.Sublist.map _ List.filter_sublist) h
  | absent | obstructed => exact h

/-- Names still differ when one stands for something else. -/
theorem insert (h : d.NamesDiffer) (name : String) (entry : Entry) : (d.insert name entry).NamesDiffer := by
  cases d with
  | present es =>
    have hrest : ((es.filter (·.1 ≠ name)).map (·.1)).Nodup := h.erase name
    simp only [NamesDiffer, Directory.insert, entries, List.map_append, List.map_cons, List.map_nil]
    rw [List.nodup_append]
    refine ⟨hrest, List.nodup_singleton _, ?_⟩
    intro a ha b hb hab
    obtain ⟨x, hx, rfl⟩ := List.mem_map.mp ha
    have hne := (List.mem_filter.mp hx).2
    rw [List.mem_singleton.mp hb] at hab
    simp [hab] at hne
  | absent | obstructed => exact h

/-- No change to a directory gives a name a second entry. -/
theorem edit (h : d.NamesDiffer) (edit : d.Edit d') : d'.NamesDiffer := by
  cases edit with
  | create fresh file now name made =>
    cases d with
    | absent | obstructed => cases made
    | present es =>
      simp only [create?] at made
      split at made
      · obtain ⟨rfl, -⟩ := Prod.mk.inj (Option.some.inj made)
        exact h.insert name _
      · obtain ⟨rfl, -⟩ := Prod.mk.inj (Option.some.inj made)
        exact h.insert name _
      · cases made
  | write file offset bytes now =>
    cases d with
    | present es =>
      have hnames : (es.map fun x => (x.1, x.2.written file offset bytes now)).map (·.1) = es.map (·.1) := by
        rw [List.map_map]
        rfl
      rw [write_present, NamesDiffer, entries, hnames]
      exact h
    | absent | obstructed => exact h
  | rename old new differ moved =>
    simp only [rename?] at moved
    split at moved
    · split at moved
      · obtain rfl := Option.some.inj moved
        exact (h.erase old).insert new _
      · cases moved
    · cases moved
  | remove name removed =>
    simp only [removeFile?] at removed
    split at removed
    · obtain rfl := Option.some.inj removed
      exact h.erase name
    · cases removed

end NamesDiffer

/-- A name that no file can be removed from stands for nothing, if it does not stand for a directory. -/
theorem find?_of_removeFile_eq_none (h : d.removeFile? name = none) (ha : d.Admits name) : d.find? name = none := by
  cases hf : d.find? name with
  | none => rfl
  | some entry =>
    cases entry with
    | file f => simp [removeFile?, hf] at h
    | directory modified children => exact absurd hf (ha modified children)

end Directory

/-! ## Temporary files -/

/-- The download has opened its temporary file, and has neither renamed nor removed it. -/
def Phase.usesTemp (phase : Phase) : Bool :=
  phase.hasTemp || phase = .cleaning

/-- A download that uses its temporary file is running. -/
theorem Phase.isMarked_of_usesTemp {phase : Phase} (h : phase.usesTemp = true) : phase.isMarked = true := by
  cases phase with
  | opened | fetching | fetched | cleaning => rfl
  | _ => nomatch h

/-- A download that has given its temporary file up, other than by a crash of the source, has left nothing under the name. -/
theorem State.find?_temp_of_given (hs : s.step? p e = some s') (hcrash : ∀ d, e ≠ .crash d) {d : Nat} {url : String}
    {old new : Phase} (hd : s'.downloads[d]? = some ⟨url, new⟩) (here : s.downloads[d]? = some ⟨url, old⟩)
    (next : Phase.Next d e old new) (hold : old.usesTemp = true) (hnew : new.usesTemp = false)
    (ha : s.directory.Admits (tempName (fileName url))) : s'.directory.find? (tempName (fileName url)) = none := by
  cases next with
  | rename body =>
    obtain ⟨image, _, himage, ⟨directory, hr, rfl⟩ | ⟨-, rfl⟩⟩ := rename?_eq_some_iff.mp hs
    · obtain ⟨rfl, -⟩ := Download.mk.inj (Option.some.inj (here.symm.trans himage))
      exact (Directory.find?_rename (fileName_ne_tempName url _).symm hr).1
    · rw [downloads_setPhase himage, getElem?_set_of_eq_some himage, if_pos rfl] at hd
      nomatch (Download.mk.inj (Option.some.inj hd)).2
  | clean =>
    obtain ⟨image, himage, rfl⟩ := clean?_eq_some_iff.mp hs
    obtain ⟨rfl, -⟩ := Download.mk.inj (Option.some.inj (here.symm.trans himage))
    cases hr : s.directory.removeFile? (tempName (fileName url)) with
    | none => exact Directory.find?_of_removeFile_eq_none hr ha
    | some directory => exact (Directory.find?_removeFile hr).1
  | crash => exact absurd rfl (hcrash d)
  | ask | write | deliver | fail | keep => nomatch hnew
  | queue | abandon | acquire | create | refuse | release | unmark | signal => nomatch hold

/-! ## What a name is there for -/

/-- What a name is there for: it is that of an image that the source has delivered, or the temporary one of a download that uses
it. -/
inductive State.NameServes (s : State) : String → Prop
  | image (url : String) (body : List UInt8) (delivered : (url, body) ∈ s.delivered) : NameServes s (fileName url)
  | temp (d : Nat) (url : String) (phase : Phase) (here : s.downloads[d]? = some ⟨url, phase⟩) (uses : phase.usesTemp = true) :
      NameServes s (tempName (fileName url))

theorem mem_delivered_of_step? (hs : s.step? p e = some s') {x : String × List UInt8} (h : x ∈ s.delivered) :
    x ∈ s'.delivered := by
  rcases delivered_of_step? hs with heq | ⟨_, _, _, _, -, -, -, heq⟩
  · exact heq ▸ h
  · exact heq ▸ List.mem_append_left _ h

/-- A name that something stands under after a step is there for what it was there for. -/
theorem State.NameServes.step (h : s.NameServes name) (hs : s.step? p e = some s') (hcrash : ∀ d, e ≠ .crash d)
    (ha : s.directory.Admits name) (hf : s'.directory.find? name ≠ none) : s'.NameServes name := by
  cases h with
  | image url body delivered => exact .image url body (mem_delivered_of_step? hs delivered)
  | temp d url phase here uses =>
    obtain ⟨new, hd, rfl | next⟩ := (turn_of_step? hs).download_stays here
    · exact .temp d url new hd uses
    · cases hnew : new.usesTemp with
      | true => exact .temp d url new hd hnew
      | false => exact absurd (find?_temp_of_given hs hcrash hd here next uses hnew ha) hf

/-- What a fetched download has got is recorded as delivered. -/
def State.FetchedDelivered (s : State) : Prop :=
  ∀ (d : Nat) (url : String) (body : List UInt8), s.downloads[d]? = some ⟨url, .fetched body⟩ → (url, body) ∈ s.delivered

/-- Every step records what a download has got. -/
theorem State.FetchedDelivered.step (h : s.FetchedDelivered) (hs : s.step? p e = some s') : s'.FetchedDelivered := by
  intro d url body hd
  rcases (turn_of_step? hs).download_came hd with ⟨old, here, ⟨rfl, -⟩ | next⟩ | ⟨-, hnew, -⟩
  · exact mem_delivered_of_step? hs (h d url body here)
  · cases next with
    | deliver file =>
      obtain ⟨image, file', body', himage, rfl⟩ := deliver?_eq_some_iff.mp hs
      obtain ⟨rfl, hphase⟩ := Download.mk.inj (Option.some.inj (here.symm.trans himage))
      obtain ⟨-, rfl⟩ := Phase.fetching.inj hphase
      exact List.mem_append_right _ (List.mem_singleton_self _)
  · nomatch hnew

/-- A name that a step has put something under is there for something. -/
theorem State.nameServes_of_new (h : s.FetchedDelivered) (hs : s.step? p e = some s') (hnone : s.directory.find? name = none)
    (hf : s'.directory.find? name ≠ none) : s'.NameServes name := by
  cases nameTurn_of_step? hs name with
  | idle found => exact absurd (found.trans hnone) hf
  | create d url file here temp =>
    subst temp
    obtain ⟨image, himage, ⟨directory, opened, hc, rfl⟩ | ⟨-, rfl⟩⟩ := create?_eq_some_iff.mp hs
    · refine .temp d url (.opened opened) ?_ rfl
      obtain ⟨rfl, -⟩ := Download.mk.inj (Option.some.inj (here.symm.trans himage))
      rw [downloads_setPhase here, getElem?_set_of_eq_some here, if_pos rfl]
    · exact absurd hnone hf
  | write d url file body bytes here found => exact absurd (by rw [found, hnone]; rfl) hf
  | rename d url body entry here final =>
    subst final
    exact .image url body (mem_delivered_of_step? hs (h d url body here))
  | vacate d url body here temp found | clean d url here temp found | remove i f there found => exact absurd found hf

/-! ## The layout -/

/-- The directory of a cache that began over an empty one: names differ, none stands for a directory, and each is there for
something. -/
structure State.Tidy (s : State) : Prop where
  differ : s.directory.NamesDiffer
  dirs : s.DirsKept (.present [])
  fetched : s.FetchedDelivered
  serves : ∀ name, s.directory.find? name ≠ none → s.NameServes name

namespace State.Tidy

/-- An empty directory is tidy. -/
theorem begun (p : Policy) (clock : Int) : (State.begun p (.present []) clock).Tidy where
  differ := List.nodup_nil
  dirs := State.dirsKept_begun p _ clock
  fetched := fun _ _ _ hd => nomatch hd
  serves := fun _ hf => absurd rfl hf

theorem admits (h : s.Tidy) (name : String) : s.directory.Admits name :=
  h.dirs.admits nofun

/-- Every step but a crash leaves the directory tidy. -/
theorem step (h : s.Tidy) (hs : s.step? p e = some s') (hcrash : ∀ d, e ≠ .crash d) : s'.Tidy where
  differ := by
    rcases edit_of_step? hs with heq | edit
    · exact heq ▸ h.differ
    · exact h.differ.edit edit
  dirs := h.dirs.step hs
  fetched := h.fetched.step hs
  serves := by
    intro name hf
    by_cases hbefore : s.directory.find? name = none
    · exact nameServes_of_new h.fetched hs hbefore hf
    · exact (h.serves name hbefore).step hs hcrash (h.admits name) hf

end State.Tidy

/-- A run without crashes leaves the directory tidy. -/
theorem State.tidy_of_steps? {clock : Int} {events : List Event}
    (h : (State.begun p (.present []) clock).steps? p events = some s) (hcrash : ∀ d, Event.crash d ∉ events) : s.Tidy := by
  refine steps?_induction (motive := fun es m => (∀ d, Event.crash d ∉ es) → m.Tidy) (fun _ => Tidy.begun p clock)
    (fun es m e m' _ ih he hcrash => ?_) h hcrash
  refine (ih fun d hmem => hcrash d (List.mem_append_left _ hmem)).step he ?_
  rintro d rfl
  exact hcrash d (List.mem_append_right _ (List.mem_singleton_self _))

/-- What lies in the directory after the events of a run: files alone, with names that differ. Each has the name of an image
that the source has delivered, or the temporary name of one that is in flight, so that none is temporary when nothing is. -/
structure State.LaidOut (events : List Event) (s : State) : Prop where
  differ : s.directory.NamesDiffer
  files : ∀ x ∈ s.directory.entries, x.2.isFile = true
  accounted : ∀ x ∈ s.directory.entries,
    (∃ d url phase, s.downloads[d]? = some ⟨url, phase⟩ ∧ Event.deliver d ∈ events ∧ Link.secure url = url ∧
        x.1 = fileName url) ∨
      ∃ d url, (url, d) ∈ s.markers ∧ Link.secure url = url ∧ x.1 = tempName (fileName url)
  calm : s.inFlight = 0 → ∀ x ∈ s.directory.entries, ∀ name, x.1 ≠ tempName name

/-- Whatever calls, downloads and sweeps have done over a directory that was empty, and however the downloads have ended but for
a crash of the source, the directory holds the files of delivered images and the temporary files of running downloads alone. -/
theorem directory_laid_out {clock : Int} {events : List Event}
    (h : (State.begun p (.present []) clock).steps? p events = some s) (hcrash : ∀ d, Event.crash d ∉ events) :
    s.LaidOut events := by
  have tidy := State.tidy_of_steps? h hcrash
  have book := ((Reachable.begun (.present []) clock).steps? h).bookkept
  have secure : ∀ (d : Nat) (url : String) (phase : Phase), s.downloads[d]? = some ⟨url, phase⟩ → Link.secure url = url := fun
    d url phase hd =>
    Link.secure_of_not_isInsecure (book.downloads_secure _ (List.mem_of_getElem? hd)).2
  have accounted : ∀ x ∈ s.directory.entries,
      (∃ d url phase, s.downloads[d]? = some ⟨url, phase⟩ ∧ Event.deliver d ∈ events ∧ Link.secure url = url ∧
          x.1 = fileName url) ∨
        ∃ d url, (url, d) ∈ s.markers ∧ Link.secure url = url ∧ x.1 = tempName (fileName url) := by
    rintro ⟨name, entry⟩ hx
    have hserves := tidy.serves name (by rw [tidy.differ.find?_of_mem hx]; nofun)
    cases hserves with
    | image url body delivered =>
      obtain ⟨d, phase, hd, -, hdeliver, -⟩ := (State.recorded h).delivered url body delivered
      exact Or.inl ⟨d, url, phase, hd, hdeliver, secure d url phase hd, rfl⟩
    | temp d url phase here uses =>
      have hmarker := (book.marker_iff url d).mpr ⟨phase, here, Phase.isMarked_of_usesTemp uses⟩
      exact Or.inr ⟨d, url, hmarker, secure d url phase here, rfl⟩
  refine ⟨tidy.differ, ?_, accounted, ?_⟩
  · rintro ⟨name, entry⟩ hx
    cases entry with
    | file f => rfl
    | directory modified children => exact absurd (tidy.differ.find?_of_mem hx) (tidy.admits name modified children)
  · intro hnone x hx name heq
    rcases accounted x hx with ⟨_, url, _, -, -, -, hfinal⟩ | ⟨d, url, hmarker, -⟩
    · exact fileName_ne_tempName url name (hfinal.symm.trans heq)
    · rw [List.eq_nil_of_length_eq_zero hnone] at hmarker
      nomatch hmarker

/-- The second download of an expired image has failed after some bytes: the directory holds the image's file and, until it is
removed, the temporary one. -/
theorem directory_laid_out_failing : ∃ events s,
    (State.begun ⟨10, "/", 1⟩ (.present []) 0).steps? ⟨10, "/", 1⟩ events = some s ∧ (∀ d, Event.crash d ∉ events) ∧
      s.inFlight = 1 ∧ s.directory.entries.length = 2 ∧ s.LaidOut events := by
  let url := "https://a/b.png"
  let final := fileName url
  let temp := tempName final
  have hne : final ≠ temp := fileName_ne_tempName _ _
  let fetched : State := {
    clock := 0, directory := .present [(temp, .file ⟨0, [1], 0⟩)], freshFile := 1, closed := false, free := 0, line := []
    downloads := [⟨url, .fetched [1]⟩], markers := [(url, 0)], calls := [⟨.preload, url, .finished⟩]
    sweeps := [], asked := [url], delivered := [(url, [1])] }
  let renamed : State := { fetched with
    directory := .present [(final, .file ⟨0, [1], 0⟩)], downloads := [⟨url, .leaving⟩] }
  let expired : State := { renamed with clock := 20, free := 1, downloads := [⟨url, .ended⟩], markers := [] }
  let admitted : State := { expired with
    free := 0, downloads := [⟨url, .ended⟩, ⟨url, .admitted⟩], markers := [(url, 1)]
    calls := [⟨.preload, url, .finished⟩, ⟨.resolve, url, .ready⟩] }
  let opened : State := { admitted with
    directory := .present [(final, .file ⟨0, [1], 0⟩), (temp, .file ⟨1, [], 20⟩)], freshFile := 2
    downloads := [⟨url, .ended⟩, ⟨url, .opened 1⟩] }
  let first : List Event := [.call .preload "http://a/b.png", .register 0, .queue 0, .acquire 0, .create 0, .ask 0, .write 0 [1],
    .deliver 0]
  have h1 : (State.begun ⟨10, "/", 1⟩ (.present []) 0).steps? ⟨10, "/", 1⟩ first = some fetched := rfl
  have hr : fetched.directory.rename? temp final = some (.present [(final, .file ⟨0, [1], 0⟩)]) := by
    simp [fetched, Directory.rename?, Directory.mayReplace, Directory.insert, Directory.erase, hne.symm]
  have h2 : fetched.rename? 0 = some renamed := State.rename?_eq_some_iff.mpr ⟨url, [1], rfl, Or.inl ⟨_, hr, rfl⟩⟩
  have h3 : renamed.steps? ⟨10, "/", 1⟩ [.release 0, .unmark 0, .signal 0, .tick 20] = some expired := rfl
  have hlook : expired.look ⟨10, "/", 1⟩ url = .stale := by
    simp [State.look, expired, renamed, Directory.look, final, Entry.modified]
  have hstale : expired.firstStage ⟨10, "/", 1⟩ .resolve "https://a/b.png" = .looked := by
    simp [State.firstStage, State.firstRef?, show Link.secure "https://a/b.png" = url from rfl, hlook]
  have h4 : expired.steps? ⟨10, "/", 1⟩ [.call .resolve "https://a/b.png", .register 1, .queue 1, .acquire 1] = some admitted := by
    simp only [State.steps?, State.step?, State.beginCall_eq, hstale]
    rfl
  have hc : admitted.directory.create? 1 20 temp = some (opened.directory, 1) := by
    simp [admitted, expired, renamed, opened, Directory.create?, Directory.insert, hne]
  have h5 : admitted.create? 1 = some opened := State.create?_eq_some_iff.mpr ⟨url, rfl, Or.inl ⟨_, _, hc, rfl⟩⟩
  have h6 : opened.steps? ⟨10, "/", 1⟩ [.ask 1, .write 1 [2, 3], .fail 1] = some _ := rfl
  have h := State.steps?_trans h1 (State.steps?_trans (State.steps?_singleton (e := .rename 0) h2) (State.steps?_trans h3
    (State.steps?_trans h4 (State.steps?_trans (State.steps?_singleton (e := .create 1) h5) h6))))
  refine ⟨_, _, h, ?_, rfl, rfl, directory_laid_out h ?_⟩ <;> simp [first]

end ChannelWatch.Cache
