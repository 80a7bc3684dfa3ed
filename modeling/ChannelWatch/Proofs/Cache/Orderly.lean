import ChannelWatch.Proofs.Cache.Kept
import ChannelWatch.Proofs.Cache.Whole

/-!
# A directory in order

Others may put anything into the directory, even a second name for a temporary file, through which a download would write into the
file of an image. `State.Orderly` says that nothing of the kind is there. The steps of the cache keep it so, even if digests
collide (`Orderly.step`), and then only a download at work for the name of an image changes what stands under this name and
under its temporary one, or a sweep does (`Orderly.find?_of_others`).
-/

namespace ChannelWatch.Cache

variable {p : Policy} {s s' : State} {e : Event}

/-! ## Where files come from -/

namespace Directory

variable {d d' : Directory} {fresh fresh' : Nat} {opened : String}

/-- Each file of the directory has kept its name and its identity since it was another one, or it is the new one that was opened,
or it was moved from the temporary name of an image to the final one. -/
def StemsFrom (d' d : Directory) (fresh fresh' : Nat) (opened : String) : Prop :=
  ∀ name g, d'.file? name = some g → (∃ f, d.file? name = some f ∧ f.id = g.id) ∨
    (fresh ≤ g.id ∧ g.id < fresh' ∧ name = opened) ∨
    ∃ url, name = fileName url ∧ d.file? (tempName name) = some g ∧ d'.find? (tempName name) = none

namespace StemsFrom

theorem of_restOf (h : d'.RestOf d) : d'.StemsFrom d fresh fresh opened :=
  fun _ g hg => Or.inl ⟨g, h.file? hg, rfl⟩

/-- A file that is opened is new, or has kept its identity. -/
theorem of_create {file : Nat} {now : Int} (h : d.create? fresh now opened = some (d', file)) :
    d'.StemsFrom d fresh (fresh + 1) opened := by
  obtain ⟨hself, hothers, hfile⟩ := find?_create h
  intro name g hg
  by_cases hn : name = opened
  · subst hn
    obtain rfl := Option.some.inj ((file?_eq_some_iff.mpr hself).symm.trans hg)
    rcases hfile with ⟨-, rfl⟩ | ⟨f, hf, rfl⟩
    · exact Or.inr (Or.inl ⟨Nat.le_refl _, Nat.lt_succ_self _, rfl⟩)
    · exact Or.inl ⟨f, file?_eq_some_iff.mpr hf, rfl⟩
  · exact Or.inl ⟨g, file?_congr (hothers name hn) ▸ hg, rfl⟩

/-- Writing keeps every file with its identity under its name. -/
theorem of_write (d : Directory) (file offset : Nat) (bytes : List UInt8) (now : Int) :
    (d.write file offset bytes now).StemsFrom d fresh fresh opened := by
  intro name g hg
  obtain ⟨f, hf, hid, -⟩ := file?_write hg
  exact Or.inl ⟨f, hf, hid.symm⟩

/-- A temporary file is moved to its final name. -/
theorem of_rename {url : String} (h : d.rename? (tempName (fileName url)) (fileName url) = some d') :
    d'.StemsFrom d fresh fresh opened := by
  obtain ⟨hold, hnew, -, hothers⟩ := find?_rename (fileName_ne_tempName url _).symm h
  intro name g hg
  by_cases hf : name = fileName url
  · subst hf
    exact Or.inr (Or.inr ⟨url, rfl, file?_congr hnew ▸ hg, hold⟩)
  · by_cases ht : name = tempName (fileName url)
    · subst ht
      rw [file?_eq_some_iff, hold] at hg
      nomatch hg
    · exact Or.inl ⟨g, file?_congr (hothers name ht hf) ▸ hg, rfl⟩

/-- Identities stay below that of the next new file. -/
theorem ids (r : d'.StemsFrom d fresh fresh' opened) (hle : fresh ≤ fresh')
    (h : ∀ name f, d.file? name = some f → f.id < fresh) : ∀ name f, d'.file? name = some f → f.id < fresh' := by
  intro name g hg
  rcases r name g hg with ⟨f, hf, hid⟩ | ⟨-, hlt, -⟩ | ⟨url, -, hmoved, -⟩
  · have := h name f hf
    omega
  · exact hlt
  · have := h _ g hmoved
    omega

/-- Temporary files go on to have one name. -/
theorem tempsUnlinked (r : d'.StemsFrom d fresh fresh' opened) (hids : ∀ name f, d.file? name = some f → f.id < fresh)
    (h : d.TempsUnlinked) : d'.TempsUnlinked := by
  intro name other f g hf hg hid
  rcases r _ f hf with ⟨f₀, hf₀, hfid⟩ | ⟨hnew, -, hopened⟩ | ⟨url, hfinal, -⟩
  · rcases r other g hg with ⟨g₀, hg₀, hgid⟩ | ⟨hnew, -⟩ | ⟨url, -, hmoved, hgone⟩
    · exact h name other f₀ g₀ hf₀ hg₀ (by omega)
    · have := hids _ f₀ hf₀
      omega
    · -- the one name that led to the moved file leads to nothing now
      rw [h name _ f₀ g hf₀ hmoved (by omega), file?_eq_some_iff.mp hf] at hgone
      nomatch hgone
  · rcases r other g hg with ⟨g₀, hg₀, hgid⟩ | ⟨-, -, hother⟩ | ⟨url, -, hmoved, -⟩
    · have := hids _ g₀ hg₀
      omega
    · rw [hother, hopened]
    · have := hids _ g hmoved
      omega
  · exact absurd hfinal.symm (fileName_ne_tempName url name)

/-- A file that had no other name than the two of an image has no other one. -/
theorem held (r : d'.StemsFrom d fresh fresh' opened) {file : Nat} {url : String} (hfile : file < fresh)
    (h : ∀ name f, d.file? name = some f → f.id = file → name = tempName (fileName url) ∨ name = fileName url) :
    ∀ name f, d'.file? name = some f → f.id = file → name = tempName (fileName url) ∨ name = fileName url := by
  intro name g hg hid
  rcases r name g hg with ⟨f, hf, hfid⟩ | ⟨hnew, -⟩ | ⟨image, hname, hmoved, -⟩
  · exact h name f hf (hfid.trans hid)
  · omega
  · rcases h _ g hmoved hid with ht | hf
    · exact Or.inr (tempName_inj.mp ht)
    · exact absurd hf.symm (fileName_ne_tempName url name)

end StemsFrom

end Directory

/-- The files after a step of the cache come from those before it, but for the temporary file that it may open. -/
theorem stemsFrom_of_step? (h : s.step? p e = some s') : s.freshFile ≤ s'.freshFile ∧
    ∃ opened, s'.directory.StemsFrom s.directory s.freshFile s'.freshFile opened := by
  have rest : ∀ {m : State}, m.directory.RestOf s.directory → m.freshFile = s.freshFile → s.freshFile ≤ m.freshFile ∧
      ∃ opened, m.directory.StemsFrom s.directory s.freshFile m.freshFile opened := by
    intro m hrest hfresh
    rw [hfresh]
    exact ⟨Nat.le_refl _, "", .of_restOf hrest⟩
  cases e with
  | create d =>
    obtain ⟨url, -, ⟨directory, file, hc, rfl⟩ | ⟨-, rfl⟩⟩ := State.create?_eq_some_iff.mp h
    · exact ⟨Nat.le_succ _, _, .of_create hc⟩
    · exact rest (.refl _) rfl
  | write d bytes =>
    obtain ⟨_, file, body, -, rfl⟩ := State.write?_eq_some_iff.mp h
    exact ⟨Nat.le_refl _, "", .of_write _ _ _ _ _⟩
  | rename d =>
    obtain ⟨url, body, -, ⟨directory, hr, rfl⟩ | ⟨-, rfl⟩⟩ := State.rename?_eq_some_iff.mp h
    · exact ⟨Nat.le_refl _, "", .of_rename hr⟩
    · exact rest (.refl _) rfl
  | clean d =>
    obtain ⟨url, -, rfl⟩ := State.clean?_eq_some_iff.mp h
    cases hr : s.directory.removeFile? (tempName (fileName url)) with
    | none => exact rest (by simp only [Option.getD_none]; exact .refl _) rfl
    | some directory => exact rest (by simp only [Option.getD_some]; exact .of_removeFile hr) rfl
  | remove i =>
    obtain ⟨_, _, _, _, _, -, ⟨directory, hr, rfl⟩ | ⟨-, rfl⟩⟩ := State.remove?_eq_some_iff.mp h
    · exact rest (.of_removeFile hr) rfl
    · exact rest (.refl _) rfl
  | deliver d =>
    obtain ⟨_, _, _, -, rfl⟩ := State.deliver?_eq_some_iff.mp h
    exact rest (.refl _) rfl
  | _ =>
    obtain ⟨hdirectory, hfresh, -⟩ := files_of_step? h rfl
    exact rest (hdirectory ▸ .refl _) hfresh

/-! ## The invariant -/

/-- The file that a download holds open. -/
def Phase.file? : Phase → Option Nat
  | .opened file | .fetching file _ => some file
  | _ => none

/-- A download comes to hold a file open only by opening it. -/
theorem Phase.Next.file? {d file : Nat} {old new : Phase} (h : Phase.Next d e old new) (hnew : new.file? = some file) :
    old.file? = some file ∨ e = .create d ∧ new = .opened file := by
  cases h with
  | create =>
    obtain rfl := Option.some.inj hnew
    exact Or.inr ⟨rfl, rfl⟩
  | ask | write => exact Or.inl hnew
  | _ => nomatch hnew

/-- A directory in order, as the cache leaves it: no temporary file has a second name, a file that is held open has none but the
two of its image, and the temporary file of a download is none of the directories. -/
structure State.Orderly (s : State) : Prop where
  /-- A new file gets an identity of its own. -/
  ids : ∀ name f, s.directory.file? name = some f → f.id < s.freshFile
  unlinked : s.directory.TempsUnlinked
  temps : ∀ (d : Nat) (url : String) (phase : Phase), s.downloads[d]? = some ⟨url, phase⟩ → phase.hasTemp = true →
    s.directory.Admits (tempName (fileName url))
  held : ∀ (d : Nat) (url : String) (phase : Phase) (file : Nat), s.downloads[d]? = some ⟨url, phase⟩ →
    phase.file? = some file → file < s.freshFile ∧
      ∀ name f, s.directory.file? name = some f → f.id = file → name = tempName (fileName url) ∨ name = fileName url

namespace State.Orderly

/-- A cache that nothing has happened to finds its directory in order if no temporary file in it has a second name. -/
theorem begun {directory : Directory} (h : directory.TempsUnlinked) (p : Policy) (clock : Int) :
    (State.begun p directory clock).Orderly where
  ids := fun _ _ hf => Directory.id_lt_freshId hf
  unlinked := h
  temps := fun _ _ _ hd => nomatch hd
  held := fun _ _ _ _ hd => nomatch hd

theorem dirsKept (h : s.Orderly) : s.DirsKept s.directory :=
  ⟨fun _ _ _ hf => hf, h.temps⟩

/-- A file that a download holds open has no other names than those of its image after a step. -/
theorem held_step (h : s.Orderly) (hs : s.step? p e = some s') {d file : Nat} {url : String} {phase : Phase}
    (hd : s'.downloads[d]? = some ⟨url, phase⟩) (hfile : phase.file? = some file) : file < s'.freshFile ∧
      ∀ name f, s'.directory.file? name = some f → f.id = file → name = tempName (fileName url) ∨ name = fileName url := by
  obtain ⟨hle, opened, hstems⟩ := stemsFrom_of_step? hs
  have before : ∀ old, s.downloads[d]? = some ⟨url, old⟩ → old.file? = some file → file < s'.freshFile ∧
      ∀ name f, s'.directory.file? name = some f → f.id = file → name = tempName (fileName url) ∨ name = fileName url := by
    intro old hold hof
    obtain ⟨hlt, hnames⟩ := h.held d url old file hold hof
    exact ⟨Nat.lt_of_lt_of_le hlt hle, hstems.held hlt hnames⟩
  rcases (turn_of_step? hs).download_came hd with ⟨old, hold, ⟨rfl, -⟩ | next⟩ | ⟨-, rfl, -⟩
  · exact before phase hold hfile
  · rcases next.file? hfile with hof | ⟨rfl, rfl⟩
    · exact before old hold hof
    · -- the file has just been opened under the temporary name, which is its only one
      obtain ⟨hcreate, hfresh⟩ := create?_of_opened hs hd
      obtain ⟨-, hwritten, hlt⟩ := Directory.changedAt_create h.ids h.unlinked hcreate
      exact ⟨hfresh ▸ hlt, fun name f hf hid => Or.inl (hwritten.only name f hf hid).1⟩
  · nomatch hfile

/-- Every step leaves an orderly directory in order. -/
theorem step (h : s.Orderly) (hs : s.step? p e = some s') : s'.Orderly := by
  obtain ⟨hle, opened, hstems⟩ := stemsFrom_of_step? hs
  exact {
    ids := hstems.ids hle h.ids
    unlinked := hstems.tempsUnlinked h.ids h.unlinked
    temps := (h.dirsKept.step hs).temps
    held := fun _ _ _ _ hd hfile => h.held_step hs hd hfile }

theorem steps? {events : List Event} (h : s.Orderly) (hs : s.steps? p events = some s') :
    s'.Orderly ∧ s'.DirsKept s.directory :=
  steps?_induction (motive := fun _ m => m.Orderly ∧ m.DirsKept s.directory) ⟨h, h.dirsKept⟩
    (fun _ _ _ _ _ hm he => ⟨hm.1.step he, hm.2.step he⟩) hs

/-- What stands under the two names of an image changes only by an event of a download whose marker is in place and whose image
has this name, and by sweeps. -/
theorem find?_of_others (h : s.Orderly) (hs : s.step? p e = some s') {url name : String}
    (hname : name = fileName url ∨ name = tempName (fileName url)) (hr : ∀ i, e ≠ .remove i)
    (ho : ∀ d image phase, e.download? = some d → s.downloads[d]? = some ⟨image, phase⟩ → phase.isMarked = true →
      fileName image ≠ fileName url) : s'.directory.find? name = s.directory.find? name := by
  -- the names of two images are apart, final and temporary ones, if the final ones are
  have apart : ∀ image, fileName image ≠ fileName url → name ≠ fileName image ∧ name ≠ tempName (fileName image) := by
    intro image hne
    rcases hname with rfl | rfl
    · exact ⟨hne.symm, fileName_ne_tempName url _⟩
    · exact ⟨(fileName_ne_tempName image _).symm, fun ht => hne (tempName_inj.mp ht).symm⟩
  cases nameTurn_of_step? hs name with
  | idle found => exact found
  | create d image file here temp => exact absurd temp (apart image (ho d image _ rfl here rfl)).2
  | write d image file body bytes here found =>
    obtain ⟨hfinal, htemp⟩ := apart image (ho d image _ rfl here rfl)
    rw [found]
    cases hf : s.directory.find? name with
    | none => rfl
    | some entry =>
      cases entry with
      | directory => rfl
      | file f =>
        have hid : f.id ≠ file := by
          intro hid
          rcases (h.held d image _ file here rfl).2 name f (Directory.file?_eq_some_iff.mpr hf) hid with ht | hn
          · exact htemp ht
          · exact hfinal hn
        simp [Entry.written, hid]
  | rename d image body entry here final => exact absurd final (apart image (ho d image _ rfl here rfl)).1
  | vacate d image body here temp => exact absurd temp (apart image (ho d image _ rfl here rfl)).2
  | clean d image here temp => exact absurd temp (apart image (ho d image _ rfl here rfl)).2
  | remove i => exact absurd rfl (hr i)

end State.Orderly

end ChannelWatch.Cache
