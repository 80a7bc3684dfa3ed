import Mathlib.Data.List.Pairwise
import ChannelWatch.Proofs.Cache.Carried
import ChannelWatch.Proofs.Cache.Layout
import ChannelWatch.Proofs.Cache.Orderly
import ChannelWatch.Proofs.Cache.Permits
import ChannelWatch.Proofs.Cache.Resolved

/-!
# Failed downloads

A download that fails leaves nothing behind, whatever it has found in the directory and wherever it fails
(`failed_download_undone`). What it may rely on and owes in each of its phases is `State.Undoing`: only the temporary name is
ever different from what it was before, and every way out but a success and a crash of the source leads through its removal.
-/

namespace ChannelWatch.Cache

variable {p : Policy} {s s' m : State} {e : Event} {d : Nat} {url : String}

/-! ## Failing -/

/-- A download fails: its temporary file cannot be opened, the source fails or the file cannot be brought to the disk, or the
fetched image cannot be given its name. -/
inductive Phase.Fails (d : Nat) : Event → Phase → Phase → Prop
  | refuse : Fails d (.create d) .admitted .leaving
  | fail (file : Nat) (body : List UInt8) : Fails d (.fail d) (.fetching file body) .cleaning
  | keep (body : List UInt8) : Fails d (.rename d) (.fetched body) .cleaning

/-- In the course of a run, the download fails. -/
def State.FailsIn (p : Policy) (s : State) (d : Nat) (events : List Event) : Prop :=
  ∃ x e x' old new, s.Happens p events x e ∧ x.step? p e = some x' ∧ x.phase? d = some old ∧ x'.phase? d = some new ∧
    Phase.Fails d e old new

/-- In the course of a run, nobody but the download changes what stands under a name. -/
def State.LeftTo (p : Policy) (s : State) (d : Nat) (events : List Event) (name : String) : Prop :=
  ∀ x e x', s.Happens p events x e → x.step? p e = some x' → e.download? ≠ some d →
    x'.directory.find? name = x.directory.find? name

/-- What happens in a run happens in a longer one that goes on with it. -/
theorem State.Happens.after {es fs : List Event} {x : State} (h : m.Happens p fs x e) (hm : s.steps? p es = some m) :
    s.Happens p (es ++ fs) x e := by
  obtain ⟨before, after, rfl, hx⟩ := h
  exact ⟨es ++ before, after, (List.append_assoc ..).symm, steps?_trans hm hx⟩

/-- A download that is somewhere in a run is there for the image that it was there for before. -/
theorem State.download_of_phase? {events : List Event} {old new : Phase} (h : m.steps? p events = some s)
    (hd : m.downloads[d]? = some ⟨url, old⟩) (hphase : s.phase? d = some new) : s.downloads[d]? = some ⟨url, new⟩ := by
  obtain ⟨image, himage⟩ := phase?_eq_some_iff.mp hphase
  obtain ⟨phase, hplace⟩ := download_of_steps? h hd
  obtain ⟨rfl, -⟩ := Download.mk.inj (Option.some.inj (himage.symm.trans hplace))
  exact himage

/-- The download has neither failed nor come to an end in another way. -/
def Phase.isPending : Phase → Bool
  | spawned | queued | admitted | opened _ | fetching _ _ | fetched _ => true
  | cleaning | leaving | released | unmarked | ended => false

/-- A download that has not failed yet had not failed before. -/
theorem Phase.Next.isPending {old new : Phase} (h : Phase.Next d e old new) (hnew : new.isPending = true) :
    old.isPending = true := by
  cases h with
  | abandon | refuse | fail | crash | rename | keep | clean | release | unmark | signal => nomatch hnew
  | queue | acquire | create | ask | write | deliver => rfl

/-- To fail is to go on in one of the ways that a download can. -/
theorem Phase.Fails.next {old new : Phase} (h : Phase.Fails d e old new) :
    Phase.Next d e old new ∧ old.isPending = true ∧ new.isPending = false := by
  cases h with
  | refuse => exact ⟨.refuse, rfl, rfl⟩
  | fail file body => exact ⟨.fail file body, rfl, rfl⟩
  | keep body => exact ⟨.keep body, rfl, rfl⟩

/-! ## Files of their own -/

namespace Directory

variable {x x' before : Directory} {fresh fresh' : Nat} {name : String}

/-- New files get identities of their own, and no temporary file has a second name. -/
structure FilesApart (x : Directory) (fresh : Nat) : Prop where
  ids : ∀ name f, x.file? name = some f → f.id < fresh
  unlinked : x.TempsUnlinked

/-- Files that are there once each are files of their own. -/
theorem filesApart_of_nodup {entries : List (String × Entry)}
    (h : (entries.filterMap fun x => x.2.file?.map (·.id)).Nodup) :
    (present entries).FilesApart (present entries).freshId := by
  have hplace : ∀ name f, (present entries).file? name = some f → (name, .file f) ∈ entries := by
    intro name f hf
    obtain ⟨⟨name', entry⟩, hfind, rfl⟩ := Option.map_eq_some_iff.mp (file?_eq_some_iff.mp hf)
    obtain rfl : name' = name := by simpa using List.find?_some hfind
    exact List.mem_of_find?_eq_some hfind
  refine ⟨fun name f hf => id_lt_freshId hf, fun name other f g hf hg hid => ?_⟩
  refine Classical.not_not.mp fun hne => ?_
  have hpairs := List.pairwise_filterMap.mp h
  have : Std.Symm fun x y : String × Entry => ∀ i, x.2.file?.map (·.id) = some i → ∀ j, y.2.file?.map (·.id) = some j → i ≠ j :=
    ⟨fun x y hxy i hi j hj heq => hxy j hj i hi heq.symm⟩
  exact hpairs.forall (hplace _ f hf) (hplace other g hg) (fun heq => hne (Prod.mk.inj heq).1.symm) _ rfl _ rfl hid.symm

/-- The file that a download holds open is its own after a step of another one that leaves its two names alone. -/
theorem WrittenAs.stems {opened : String} {file : Nat} {body : List UInt8}
    (h : x.WrittenAs (tempName (fileName url)) file body) (hfile : file < fresh) (hstems : x'.StemsFrom x fresh fresh' opened)
    (hfinal : x'.find? (fileName url) = x.find? (fileName url))
    (htemp : x'.find? (tempName (fileName url)) = x.find? (tempName (fileName url))) :
    x'.WrittenAs (tempName (fileName url)) file body := by
  refine ⟨fun name g hg hid => ?_, fun entry hentry => h.here entry (htemp ▸ hentry)⟩
  have hname : name = tempName (fileName url) := by
    rcases hstems name g hg with ⟨f, hf, hfid⟩ | ⟨hnew, -⟩ | ⟨image, himage, hmoved, -⟩
    · exact (h.only name f hf (hfid.trans hid)).1
    · omega
    · -- a file that was moved to the name of the image would have been there before
      have hfrom := tempName_inj.mp (h.only _ g hmoved hid).1
      rw [hfrom] at hg
      exact hfrom.trans (h.only _ g (file?_congr hfinal ▸ hg) hid).1
  subst hname
  exact ⟨rfl, (h.only _ g (file?_congr htemp ▸ hg) hid).2⟩

theorem WrittenAs.admits {t : String} {file : Nat} {body : List UInt8} (h : x.WrittenAs t file body) : x.Admits t := by
  intro modified children hfind
  obtain ⟨f, hf, -⟩ := h.here _ hfind
  nomatch hf

/-- What stands under a name, but for a file. -/
def withoutFile? (x : Directory) (name : String) : Option Entry :=
  (x.find? name).filter fun entry => !entry.isFile

/-- Where a file may be put, nothing is left without it. -/
theorem Admits.withoutFile? (h : x.Admits name) : x.withoutFile? name = none := by
  unfold Directory.withoutFile?
  cases hf : x.find? name with
  | none => rfl
  | some entry =>
    cases entry with
    | file f => rfl
    | directory modified children => exact absurd hf (h modified children)

/-- A name under which no file can be opened stands for no file. -/
theorem withoutFile?_of_create_eq_none {now : Int} (h : x.create? fresh now name = none) :
    x.withoutFile? name = x.find? name := by
  unfold withoutFile?
  cases hf : x.find? name with
  | none => rfl
  | some entry =>
    cases entry with
    | directory modified children => rfl
    | file f =>
      obtain ⟨entries, rfl⟩ := exists_present_of_find? hf
      simp [create?, hf] at h

/-- No change makes a directory that is not there. -/
theorem Edit.of_missing (h : x.Edit x') (hx : ∀ entries, x ≠ .present entries) : x' = x := by
  cases x with
  | present entries => exact absurd rfl (hx entries)
  | absent | obstructed =>
    cases h with
    | create fresh file now name made => nomatch made
    | write => rfl
    | rename old new differ moved => nomatch moved
    | remove name removed => nomatch removed

end Directory

theorem Directory.FilesApart.step (h : s.directory.FilesApart s.freshFile) (hs : s.step? p e = some s') :
    s'.directory.FilesApart s'.freshFile := by
  obtain ⟨hle, opened, hstems⟩ := stemsFrom_of_step? hs
  exact ⟨hstems.ids hle h.ids, hstems.tempsUnlinked h.ids h.unlinked⟩

theorem State.directory_of_missing {events : List Event} (h : s.steps? p events = some s')
    (hs : ∀ entries, s.directory ≠ .present entries) : s'.directory = s.directory := by
  refine steps?_induction (motive := fun _ x => x.directory = s.directory) rfl (fun _ x e x' _ ih he => ?_) h
  rcases edit_of_step? he with heq | edit
  · exact heq.trans ih
  · exact (edit.of_missing (ih ▸ hs)).trans ih

/-! ## What a download owes -/

/-- What a download in some phase has made of its temporary name: nothing yet; a file of its own, where no directory was; and in
the end nothing but the directory that may have been there. -/
def State.tempStands (before : Directory) (s : State) (t : String) : Phase → Prop
  | .spawned | .queued | .admitted => s.directory.find? t = before.find? t
  | .opened file => before.Admits t ∧ file < s.freshFile ∧ s.directory.WrittenAs t file []
  | .fetching file body => before.Admits t ∧ file < s.freshFile ∧ s.directory.WrittenAs t file body
  | .fetched _ | .cleaning => before.Admits t ∧ s.directory.Admits t
  | .leaving | .released | .unmarked | .ended => s.directory.find? t = before.withoutFile? t

/-- What a download that does not succeed may rely on and owes in a phase: the names that are left to it stand for what they stood
for before, but for its temporary one. -/
structure State.Undoing (before : Directory) (left : String → Prop) (d : Nat) (url : String) (phase : Phase) (s : State) :
    Prop where
  here : s.downloads[d]? = some ⟨url, phase⟩
  apart : s.directory.FilesApart s.freshFile
  same : ∀ name, left name → name ≠ tempName (fileName url) → s.directory.find? name = before.find? name
  temp : s.tempStands before (tempName (fileName url)) phase

namespace State.Undoing

variable {before : Directory} {left : String → Prop} {old new phase : Phase}

/-- The steps of others leave the download what it relies on. -/
theorem others (h : s.Undoing before left d url phase) (hs : s.step? p e = some s')
    (hd : s'.downloads[d]? = some ⟨url, phase⟩) (hsame : ∀ name, left name → s'.directory.find? name = s.directory.find? name)
    (hfinal : left (fileName url)) (htemp : left (tempName (fileName url))) : s'.Undoing before left d url phase where
  here := hd
  apart := h.apart.step hs
  same := fun name hl hne => (hsame name hl).trans (h.same name hl hne)
  temp := by
    obtain ⟨hle, opened, hstems⟩ := stemsFrom_of_step? hs
    have hnow := hsame _ htemp
    have holds : ∀ {file body}, before.Admits (tempName (fileName url)) ∧ file < s.freshFile ∧
        s.directory.WrittenAs (tempName (fileName url)) file body →
        before.Admits (tempName (fileName url)) ∧ file < s'.freshFile ∧
          s'.directory.WrittenAs (tempName (fileName url)) file body := fun ⟨ha, hlt, hw⟩ =>
      ⟨ha, Nat.lt_of_lt_of_le hlt hle, hw.stems hlt hstems (hsame _ hfinal) hnow⟩
    have stands := h.temp
    cases phase with
    | opened | fetching => exact holds stands
    | fetched | cleaning => exact ⟨stands.1, fun modified children hf => stands.2 modified children (hnow ▸ hf)⟩
    | spawned | queued | admitted | leaving | released | unmarked | ended => exact hnow.trans stands

/-- A step of the download that leaves the directory alone needs to keep only what the download owes under its temporary name. -/
theorem quiet (h : s.Undoing before left d url old) (hs : s.step? p e = some s') (hd : s'.downloads[d]? = some ⟨url, new⟩)
    (hdirectory : s'.directory = s.directory) (temp : s'.tempStands before (tempName (fileName url)) new) :
    s'.Undoing before left d url new where
  here := hd
  apart := h.apart.step hs
  same := fun name hl hne => hdirectory ▸ h.same name hl hne
  temp := temp

/-- Opening the temporary file makes it the download's own. -/
theorem create {file : Nat} (h : s.Undoing before left d url .admitted) (hs : s.step? p (.create d) = some s')
    (hd : s'.downloads[d]? = some ⟨url, .opened file⟩) : s'.Undoing before left d url (.opened file) := by
  obtain ⟨hc, hfresh⟩ := State.create?_of_opened hs hd
  obtain ⟨-, hothers, hfile⟩ := Directory.find?_create hc
  obtain ⟨-, hw, hlt⟩ := Directory.changedAt_create h.apart.ids h.apart.unlinked hc
  have hfound : s.directory.find? (tempName (fileName url)) = before.find? (tempName (fileName url)) := h.temp
  have hadmits : before.Admits (tempName (fileName url)) := by
    intro modified children hf
    rcases hfile with ⟨hnone, -⟩ | ⟨f, hthere, -⟩
    · nomatch (hfound.trans hf).symm.trans hnone
    · nomatch (hfound.trans hf).symm.trans hthere
  exact {
    here := hd
    apart := h.apart.step hs
    same := fun name hl hne => (hothers name hne).trans (h.same name hl hne)
    temp := ⟨hadmits, hfresh ▸ hlt, hw⟩ }

/-- A download that cannot open its temporary file has changed nothing. -/
theorem refuse (h : s.Undoing before left d url .admitted) (hs : s.step? p (.create d) = some s')
    (hd : s'.downloads[d]? = some ⟨url, .leaving⟩) : s'.Undoing before left d url .leaving := by
  obtain ⟨image, himage, ⟨directory, file, -, rfl⟩ | ⟨hc, rfl⟩⟩ := create?_eq_some_iff.mp hs
  · rw [downloads_setPhase himage, getElem?_set_of_eq_some himage, if_pos rfl] at hd
    nomatch (Download.mk.inj (Option.some.inj hd)).2
  · obtain ⟨rfl, -⟩ := Download.mk.inj (Option.some.inj (h.here.symm.trans himage))
    refine h.quiet hs hd rfl ?_
    have hfound : s.directory.find? (tempName (fileName url)) = before.find? (tempName (fileName url)) := h.temp
    have hwithout := Directory.withoutFile?_of_create_eq_none hc
    rw [Directory.withoutFile?, hfound] at hwithout
    exact hfound.trans hwithout.symm

/-- The bytes that the source writes go to the temporary file alone. -/
theorem write {file : Nat} {body bytes : List UInt8} (h : s.Undoing before left d url (.fetching file body))
    (hs : s.step? p (.write d bytes) = some s') (hd : s'.downloads[d]? = some ⟨url, .fetching file (body ++ bytes)⟩) :
    s'.Undoing before left d url (.fetching file (body ++ bytes)) := by
  obtain ⟨hadmits, hlt, hw⟩ := h.temp
  have happart := h.apart.step hs
  obtain ⟨image, file', body', himage, rfl⟩ := write?_eq_some_iff.mp hs
  obtain ⟨rfl, hphase⟩ := Download.mk.inj (Option.some.inj (h.here.symm.trans himage))
  obtain ⟨rfl, rfl⟩ := Phase.fetching.inj hphase
  obtain ⟨-, hw'⟩ := Directory.changedAt_write bytes s.clock h.apart.ids h.apart.unlinked hw
  exact {
    here := hd
    apart := happart
    same := fun name hl hne => (hw.find?_write_of_ne hne).trans (h.same name hl hne)
    temp := ⟨hadmits, hlt, hw'⟩ }

/-- The temporary file is removed, whether the download itself has made it or has found it. -/
theorem clean (h : s.Undoing before left d url .cleaning) (hs : s.step? p (.clean d) = some s')
    (hd : s'.downloads[d]? = some ⟨url, .leaving⟩) : s'.Undoing before left d url .leaving := by
  obtain ⟨hbefore, hadmits⟩ := h.temp
  have happart := h.apart.step hs
  obtain ⟨image, himage, rfl⟩ := clean?_eq_some_iff.mp hs
  obtain ⟨rfl, -⟩ := Download.mk.inj (Option.some.inj (h.here.symm.trans himage))
  have hwithout := hbefore.withoutFile?
  refine ⟨hd, happart, fun name hl hne => ?_, ?_⟩
  · cases hr : s.directory.removeFile? (tempName (fileName url)) with
    | none => exact h.same name hl hne
    | some directory => exact ((Directory.find?_removeFile hr).2 name hne).trans (h.same name hl hne)
  · cases hr : s.directory.removeFile? (tempName (fileName url)) with
    | none => exact (Directory.find?_of_removeFile_eq_none hr hadmits).trans hwithout.symm
    | some directory => exact (Directory.find?_removeFile hr).1.trans hwithout.symm

/-- The download keeps what it owes when it goes on without success, crash or giving up: by failing, or in any other way as long as
it has not failed and after that. -/
theorem go (h : s.Undoing before left d url old) (hs : s.step? p e = some s') (hd : s'.downloads[d]? = some ⟨url, new⟩)
    (next : Phase.Next d e old new) (hway : Phase.Fails d e old new ∨ new.isPending = old.isPending) :
    s'.Undoing before left d url new := by
  have stands := h.temp
  cases next with
  | abandon | crash | rename => rcases hway with hfails | hpending <;> contradiction
  | create file => exact h.create hs hd
  | refuse => exact h.refuse hs hd
  | write file body bytes => exact h.write hs hd
  | clean => exact h.clean hs hd
  | queue | acquire =>
    obtain ⟨hdirectory, -, -⟩ := files_of_step? hs rfl
    exact h.quiet hs hd hdirectory (by rw [tempStands, hdirectory]; exact stands)
  | ask file =>
    obtain ⟨hdirectory, hfresh, -⟩ := files_of_step? hs rfl
    exact h.quiet hs hd hdirectory ⟨stands.1, hfresh ▸ stands.2.1, hdirectory ▸ stands.2.2⟩
  | deliver file body =>
    obtain ⟨_, _, _, -, rfl⟩ := deliver?_eq_some_iff.mp hs
    exact h.quiet hs hd rfl ⟨stands.1, stands.2.2.admits⟩
  | fail file body =>
    obtain ⟨hdirectory, -, -⟩ := files_of_step? hs rfl
    exact h.quiet hs hd hdirectory ⟨stands.1, hdirectory ▸ stands.2.2.admits⟩
  | keep body =>
    obtain ⟨image, body', himage, ⟨directory, -, rfl⟩ | ⟨-, rfl⟩⟩ := rename?_eq_some_iff.mp hs
    · rw [downloads_setPhase himage, getElem?_set_of_eq_some himage, if_pos rfl] at hd
      nomatch (Download.mk.inj (Option.some.inj hd)).2
    · exact h.quiet hs hd rfl stands
  | release | unmark | signal =>
    obtain ⟨hdirectory, -, -⟩ := files_of_step? hs rfl
    exact h.quiet hs hd hdirectory (by rw [tempStands, hdirectory]; exact stands)

/-- In a run in which the download does not fail, or had failed before, it keeps what it owes. -/
theorem steps? {events : List Event} (h : s.Undoing before left d url old) (hrun : s.steps? p events = some s')
    (hleft : ∀ name, left name → s.LeftTo p d events name) (hfinal : left (fileName url))
    (htemp : left (tempName (fileName url))) (hd : s'.downloads[d]? = some ⟨url, new⟩)
    (hpending : new.isPending = old.isPending) : s'.Undoing before left d url new := by
  -- a download that is still pending always was, so between two moments at which it is pending alike it never fails
  have hrun' := steps?_induction (motive := fun es x => (∀ name, left name → s.LeftTo p d es name) →
    ∃ phase, x.downloads[d]? = some ⟨url, phase⟩ ∧ (phase.isPending = true → old.isPending = true) ∧
      (phase.isPending = old.isPending → x.Undoing before left d url phase))
    (fun _ => ⟨old, h.here, id, fun _ => h⟩) (fun es x e x' hes ih he hleft => ?_) hrun hleft
  · obtain ⟨phase, hphase, -, hundoing⟩ := hrun'
    obtain ⟨-, rfl⟩ := Download.mk.inj (Option.some.inj (hd.symm.trans hphase))
    exact hundoing hpending
  · obtain ⟨phase, hphase, hbefore, hundoing⟩ := ih fun name hl y f y' hy => hleft name hl y f y' (hy.append [e])
    obtain ⟨next, hnext, -⟩ := (turn_of_step? he).download_stays hphase
    refine ⟨next, hnext, ?_⟩
    rcases (turn_of_step? he).download_came hnext with ⟨phase', hphase', hcases⟩ | ⟨hlength, -⟩
    · obtain ⟨-, rfl⟩ := Download.mk.inj (Option.some.inj (hphase.symm.trans hphase'))
      rcases hcases with ⟨rfl, hother⟩ | hgo
      · refine ⟨hbefore, fun hsame => (hundoing hsame).others he hnext (fun name hl => ?_) hfinal htemp⟩
        exact hleft name hl x e x' (happens_last hes) he hother
      · refine ⟨fun hn => hbefore (hgo.isPending hn), fun hsame => ?_⟩
        have halike : phase.isPending = old.isPending :=
          Bool.eq_iff_iff.mpr ⟨hbefore, fun ho => hgo.isPending (hsame.trans ho)⟩
        exact (hundoing halike).go he hnext hgo (Or.inr (hsame.trans halike.symm))
    · have := (List.getElem?_eq_some_iff.mp hphase).1
      omega

end State.Undoing

/-! ## A failed download -/

/-- What a failed download leaves when it has ended, if it had begun over the cache `s`. -/
structure State.Undone (p : Policy) (s : State) (d : Nat) (url : String) (events : List Event) (s' : State) : Prop where
  /-- Every name but the temporary one stands for what it stood for, unless others have changed it. -/
  same : ∀ name, name ≠ tempName (fileName url) → s.LeftTo p d events name →
    s'.directory.find? name = s.directory.find? name
  /-- Nothing stands under the temporary name but the directory that stood there. -/
  temp : s'.directory.find? (tempName (fileName url)) = s.directory.withoutFile? (tempName (fileName url))
  /-- A directory that was not there is not there. -/
  missing : (∀ entries, s.directory ≠ .present entries) → s'.directory = s.directory
  /-- No marker names the download: one of the image is that of a later download. -/
  unmarked : ∀ image k, (image, k) ∈ s'.markers → k ≠ d ∧ (image = url → d < k)
  /-- The permits that are not free are held by other downloads. -/
  permits : s'.free + (s'.downloads.eraseIdx d).countP (·.phase.holdsPermit) = p.permits
  /-- A call for the image, in either form of its URL, is answered with the stale file exactly if something stood under the name
  and is not fresh now. -/
  stale : s'.marker? url = none → ∀ given, Link.secure given = url →
    (s'.resolved? p given = some (.stale (p.localRef url)) ↔
      ∃ entry, s.directory.find? (fileName url) = some entry ∧ ¬entry.IsFresh p.ttl s'.clock)
  /-- It is answered with the remote URL exactly if nothing stood there. -/
  remote : s'.marker? url = none → ∀ given, Link.secure given = url →
    (s'.resolved? p given = some (.remote url) ↔ s.directory.find? (fileName url) = none)

/-- From its registration to its end, a download that fails keeps what it owes. -/
theorem State.Undoing.of_failsIn {events : List Event} {phase : Phase} (hapart : m.directory.FilesApart m.freshFile)
    (hd : m.downloads[d]? = some ⟨url, phase⟩) (hw : phase.awaitsPermit = true) (h : m.steps? p events = some s)
    (hfails : m.FailsIn p d events) (hended : s.downloads[d]? = some ⟨url, .ended⟩) (hfinal : m.LeftTo p d events (fileName url))
    (htemp : m.LeftTo p d events (tempName (fileName url))) :
    s.Undoing m.directory (m.LeftTo p d events) d url .ended := by
  obtain ⟨x, e, x', old, new, ⟨es, fs, rfl, hx⟩, he, hold, hnew, hf⟩ := hfails
  obtain ⟨hnext, hpending, hfailed⟩ := hf.next
  have hx' : m.steps? p (es ++ [e]) = some x' := steps?_snoc_iff.mpr ⟨x, hx, he⟩
  have hsplit : es ++ e :: fs = (es ++ [e]) ++ fs := by simp
  have hrest : x'.steps? p fs = some s := by
    rw [hsplit, steps?_append, hx', Option.bind_some] at h
    exact h
  obtain ⟨hstands, hwaits⟩ : m.tempStands m.directory (tempName (fileName url)) phase ∧ phase.isPending = true := by
    cases phase <;> first | exact ⟨rfl, rfl⟩ | nomatch hw
  have hstart : m.Undoing m.directory (m.LeftTo p d (es ++ e :: fs)) d url phase := ⟨hd, hapart, fun _ _ _ => rfl, hstands⟩
  have hearly := hstart.steps? hx (fun name hl y f y' hy => hl y f y' (hy.append _)) hfinal htemp
    (download_of_phase? hx hd hold) (hpending.trans hwaits.symm)
  have hfailing := hearly.go he (download_of_phase? hx' hd hnew) hnext (Or.inl hf)
  refine hfailing.steps? hrest (fun name hl y f y' hy => hl y f y' ?_) hfinal htemp hended hfailed.symm
  exact hsplit ▸ hy.after hx'

/-- Nobody but a download changes a name in a run whose other events touch no files. -/
theorem State.leftTo_of_events {events : List Event} (h : ∀ e ∈ events, e.download? = some d ∨ e.touchesFiles = false)
    (name : String) : s.LeftTo p d events name := by
  rintro x e x' ⟨before, after, rfl, -⟩ he hne
  rcases h e (by simp) with hd | hquiet
  · exact absurd hd hne
  · rw [(files_of_step? he hquiet).1]

end ChannelWatch.Cache
