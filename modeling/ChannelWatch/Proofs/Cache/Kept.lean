import ChannelWatch.Proofs.Cache.Files

/-!
# What stays under the name of an image

What stands under the name of a finished file stays there, whatever downloads do, until a sweep removes it. No step makes a
directory, so a name that stands for one has stood for it from the start (`State.DirsKept`); and a call is answered with a local
reference only when something stands under the name of its image.
-/

namespace ChannelWatch.Cache

variable {p : Policy} {s s' : State} {e : Event} {start : Directory}

/-! ## The directory stays -/

/-- A change that a download or a sweep makes to a directory. -/
inductive Directory.Edit (d : Directory) : Directory → Prop
  | create {d' : Directory} (fresh file : Nat) (now : Int) (name : String)
      (made : d.create? fresh now name = some (d', file)) : Edit d d'
  | write (file offset : Nat) (bytes : List UInt8) (now : Int) : Edit d (d.write file offset bytes now)
  | rename {d' : Directory} (old new : String) (differ : old ≠ new) (moved : d.rename? old new = some d') : Edit d d'
  | remove {d' : Directory} (name : String) (removed : d.removeFile? name = some d') : Edit d d'

/-- A directory that a file was removed from is there. -/
theorem Directory.present_of_removeFile {d d' : Directory} {name : String} (h : d.removeFile? name = some d') :
    ∃ entries, d' = .present entries := by
  simp only [removeFile?] at h
  split at h
  · rename_i f hf
    obtain ⟨entries, rfl⟩ := exists_present_of_find? hf
    obtain rfl := Option.some.inj h
    exact ⟨_, rfl⟩
  · cases h

/-- A change leaves the directory as it is, or what is there after it is a directory. -/
theorem Directory.Edit.present {d d' : Directory} (h : d.Edit d') : d' = d ∨ ∃ entries, d' = .present entries := by
  cases h with
  | create fresh file now name made => exact Or.inr (exists_present_of_find? (find?_create made).1)
  | write file offset bytes now =>
    cases d with
    | present entries => exact Or.inr ⟨_, write_present ..⟩
    | absent | obstructed => exact Or.inl rfl
  | rename old new differ moved =>
    obtain ⟨-, hnew, ⟨entry, hentry⟩, -⟩ := find?_rename differ moved
    exact Or.inr (exists_present_of_find? (hnew.trans hentry))
  | remove name removed => exact Or.inr (present_of_removeFile removed)

/-- A step leaves the directory as it is or makes one change to it. -/
theorem edit_of_step? (h : s.step? p e = some s') : s'.directory = s.directory ∨ s.directory.Edit s'.directory := by
  cases e with
  | create d =>
    obtain ⟨url, -, ⟨directory, file, hc, rfl⟩ | ⟨-, rfl⟩⟩ := State.create?_eq_some_iff.mp h
    · exact Or.inr (.create _ _ _ _ hc)
    · exact Or.inl rfl
  | write d bytes =>
    obtain ⟨_, file, body, -, rfl⟩ := State.write?_eq_some_iff.mp h
    exact Or.inr (.write ..)
  | rename d =>
    obtain ⟨url, body, -, ⟨directory, hr, rfl⟩ | ⟨-, rfl⟩⟩ := State.rename?_eq_some_iff.mp h
    · exact Or.inr (.rename _ _ (fileName_ne_tempName url _).symm hr)
    · exact Or.inl rfl
  | clean d =>
    obtain ⟨url, -, rfl⟩ := State.clean?_eq_some_iff.mp h
    cases hr : s.directory.removeFile? (tempName (fileName url)) with
    | none => exact Or.inl rfl
    | some directory => exact Or.inr (.remove _ hr)
  | remove i =>
    obtain ⟨_, _, _, _, _, -, ⟨directory, hr, rfl⟩ | ⟨-, rfl⟩⟩ := State.remove?_eq_some_iff.mp h
    · exact Or.inr (.remove _ hr)
    · exact Or.inl rfl
  | deliver d =>
    obtain ⟨_, _, _, -, rfl⟩ := State.deliver?_eq_some_iff.mp h
    exact Or.inl rfl
  | _ => exact Or.inl (files_of_step? h rfl).1

theorem directory_of_step? (h : s.step? p e = some s') :
    s'.directory = s.directory ∨ ∃ entries, s'.directory = .present entries := by
  rcases edit_of_step? h with heq | edit
  · exact Or.inl heq
  · exact edit.present

theorem present_of_step? (h : s.step? p e = some s') (hd : ∃ entries, s.directory = .present entries) :
    ∃ entries, s'.directory = .present entries := by
  rcases directory_of_step? h with heq | hpresent
  · rw [heq]
    exact hd
  · exact hpresent

/-! ## What stands under a name -/

/-- What stands under the name of an image stays until a sweep removes it, and then it was a file. -/
theorem find?_fileName_of_step? (h : s.step? p e = some s') {url : String} (hf : s.directory.find? (fileName url) ≠ none) :
    s'.directory.find? (fileName url) ≠ none ∨
      ∃ i f, e = .remove i ∧ s.directory.file? (fileName url) = some f ∧ s'.directory.find? (fileName url) = none := by
  cases nameTurn_of_step? h (fileName url) with
  | idle found => exact Or.inl (found ▸ hf)
  | create d other file here temp => exact absurd temp (fileName_ne_tempName url _)
  | write d other file body bytes here found =>
    refine Or.inl ?_
    rw [found, ne_eq, Option.map_eq_none_iff]
    exact hf
  | rename d other body entry here final moved found => exact Or.inl (found ▸ nofun)
  | vacate d other body here temp | clean d other here temp => exact absurd temp (fileName_ne_tempName url _)
  | remove i f there found => exact Or.inr ⟨i, f, rfl, there, found⟩

/-! ## Directories under a name -/

/-- The download has opened its temporary file, and has not yet given it its final name. -/
def Phase.hasTemp : Phase → Bool
  | .opened _ | .fetching _ _ | .fetched _ => true
  | _ => false

/-- A download comes to have a temporary file only by opening it. -/
theorem Phase.Next.hasTemp {d : Nat} {old new : Phase} (h : Phase.Next d e old new) (hnew : new.hasTemp = true) :
    old.hasTemp = true ∨ ∃ file, e = .create d ∧ new = .opened file := by
  cases h with
  | create file => exact Or.inr ⟨file, rfl, rfl⟩
  | ask | write | deliver => exact Or.inl rfl
  | _ => nomatch hnew

/-- A download that has just opened its temporary file has made or emptied it. -/
theorem State.create?_of_opened {d file : Nat} {url : String} (h : s.step? p (.create d) = some s')
    (hd : s'.downloads[d]? = some ⟨url, .opened file⟩) :
    s.directory.create? s.freshFile s.clock (tempName (fileName url)) = some (s'.directory, file) ∧
      s'.freshFile = s.freshFile + 1 := by
  obtain ⟨image, himage, ⟨directory, opened, hc, rfl⟩ | ⟨-, rfl⟩⟩ := create?_eq_some_iff.mp h
  · rw [downloads_setPhase himage, getElem?_set_of_eq_some himage, if_pos rfl] at hd
    obtain ⟨rfl, hphase⟩ := Download.mk.inj (Option.some.inj hd)
    obtain rfl := Phase.opened.inj hphase
    exact ⟨hc, rfl⟩
  · rw [downloads_setPhase himage, getElem?_set_of_eq_some himage, if_pos rfl] at hd
    nomatch (Download.mk.inj (Option.some.inj hd)).2

/-- A name that stands for a directory has stood for it from the start, and the temporary name of a download that has opened its
file stands for none. -/
structure State.DirsKept (start : Directory) (s : State) : Prop where
  kept : ∀ name modified children, s.directory.find? name = some (.directory modified children) →
    start.find? name = some (.directory modified children)
  temps : ∀ (d : Nat) (url : String) (phase : Phase), s.downloads[d]? = some ⟨url, phase⟩ → phase.hasTemp = true →
    s.directory.Admits (tempName (fileName url))

/-- No step puts a directory under a name. -/
theorem State.DirsKept.of_step? (h : s.DirsKept start) (hs : s.step? p e = some s') {name : String} {modified : Int}
    {children : List (String × Entry)} (hf : s'.directory.find? name = some (.directory modified children)) :
    s.directory.find? name = some (.directory modified children) := by
  cases nameTurn_of_step? hs name with
  | idle found => exact found.symm.trans hf
  | create d url file here temp found => nomatch found.symm.trans hf
  | write d url file body bytes here found => exact Directory.find?_of_written_directory (found.symm.trans hf)
  | rename d url body entry here final moved found =>
    -- what is renamed is the temporary file, which is no directory
    have hmoved := moved.trans (found.symm.trans hf)
    exact absurd hmoved (h.temps d url (.fetched body) here rfl modified children)
  | vacate d url body here temp found | clean d url here temp found | remove i f there found => nomatch found.symm.trans hf

/-- Every step keeps what is said of directories. -/
theorem State.DirsKept.step (h : s.DirsKept start) (hs : s.step? p e = some s') : s'.DirsKept start := by
  refine ⟨fun name modified children hf => h.kept name modified children (h.of_step? hs hf), ?_⟩
  intro d url phase hd htemp
  -- a download that had a temporary file before has kept it, for no step makes a directory
  have before : ∀ old, s.downloads[d]? = some ⟨url, old⟩ → old.hasTemp = true →
      s'.directory.Admits (tempName (fileName url)) := fun old hold htemp modified children hf =>
    h.temps d url old hold htemp modified children (h.of_step? hs hf)
  rcases (turn_of_step? hs).download_came hd with ⟨old, hold, ⟨rfl, -⟩ | next⟩ | ⟨-, rfl, -⟩
  · exact before phase hold htemp
  · rcases next.hasTemp htemp with hof | ⟨file, rfl, rfl⟩
    · exact before old hold hof
    · intro modified children hf
      nomatch (Directory.find?_create (create?_of_opened hs hd).1).1.symm.trans hf
  · nomatch htemp

theorem State.DirsKept.admits (h : s.DirsKept start) {name : String} (ha : start.Admits name) : s.directory.Admits name :=
  fun modified children hf => ha modified children (h.kept name modified children hf)

theorem State.dirsKept_begun (p : Policy) (start : Directory) (clock : Int) : (State.begun p start clock).DirsKept start :=
  ⟨fun _ _ _ hf => hf, fun d url phase hd => by simp [begun, initial] at hd⟩

/-! ## Local references -/

/-- Only a look that finds nothing gives the remote URL. -/
theorem Policy.refer_eq_remote {url href : String} {look : Look} (h : p.refer url look = .remote href) : look = .absent := by
  cases look with
  | fresh | stale => nomatch h
  | absent => rfl

/-- A reference to an image that is local is the one to its file, and comes of a look that finds something. -/
theorem Policy.refer_isLocal {url : String} {look : Look} (h : (p.refer url look).isLocal = true) :
    (p.refer url look).href = p.localRef url ∧ look ≠ .absent := by
  cases look with
  | fresh | stale => exact ⟨rfl, nofun⟩
  | absent => nomatch h

/-- A first look that answers a call with a local reference has found a fresh file. -/
theorem State.firstStage_isLocal {purpose : Purpose} {url : String} {ref : ImageRef}
    (h : s.firstStage p purpose url = .answered ref) (hlocal : ref.isLocal = true) :
    ref = .fresh (p.localRef (Link.secure url)) ∧ s.look p (Link.secure url) = .fresh := by
  unfold firstStage firstRef? at h
  by_cases hu : url = ""
  · subst hu
    cases purpose with
    | resolve =>
      obtain rfl := Stage.answered.inj h
      nomatch hlocal
    | preload => nomatch h
  · by_cases hl : s.look p (Link.secure url) = .fresh
    · cases purpose with
      | resolve => simp_all [Stage.settled]
      | preload => simp [hu, hl, Stage.settled] at h
    · simp [hu, hl] at h

/-- A first look answers no call with the remote URL. -/
theorem State.firstStage_ne_remote {purpose : Purpose} {url href : String} :
    s.firstStage p purpose url ≠ .answered (.remote href) := by
  by_cases hu : url = ""
  · subst hu
    cases purpose <;> nofun
  · by_cases hl : s.look p (Link.secure url) = .fresh <;> cases purpose <;>
      simp [firstStage, firstRef?, hu, hl, Stage.settled]

/-- A call that is answered with a local reference was so before, or has just found something under the name of its image. -/
theorem found_of_answered (h : s.step? p e = some s') {c : Nat} {purpose : Purpose} {url : String} {ref : ImageRef}
    (hc : s'.calls[c]? = some ⟨purpose, url, .answered ref⟩) (hlocal : ref.isLocal = true) :
    s.calls[c]? = some ⟨purpose, url, .answered ref⟩ ∨
      ref.href = p.localRef url ∧ s'.directory.find? (fileName url) ≠ none := by
  cases callTurn_of_step? h with
  | idle calls => exact Or.inl (calls ▸ hc)
  | call purpose' url' calls =>
    rw [calls, getElem?_append_singleton] at hc
    split at hc
    · obtain ⟨rfl, rfl, hstage⟩ := Call.mk.inj (Option.some.inj hc)
      obtain ⟨rfl, hlook⟩ := State.firstStage_isLocal hstage hlocal
      have habsent : s.look p (Link.secure url') ≠ .absent := fun habsent => nomatch hlook.symm.trans habsent
      rw [(files_of_step? h rfl).1]
      exact Or.inr ⟨rfl, mt Directory.look_eq_absent_iff.mpr habsent⟩
    · exact Or.inl hc
  | go x purpose' url' old new here next calls =>
    rw [calls, getElem?_set_of_eq_some here] at hc
    split at hc
    · obtain ⟨rfl, rfl, rfl⟩ := Call.mk.inj (Option.some.inj hc)
      cases next with
      | answer =>
        obtain ⟨hhref, hlook⟩ := Policy.refer_isLocal hlocal
        rw [(files_of_step? h rfl).1]
        exact Or.inr ⟨hhref, mt Directory.look_eq_absent_iff.mpr hlook⟩
    · exact Or.inl hc

/-- A call that is answered with the remote URL was so before, or has just found nothing under the name of its image. -/
theorem absent_of_answered (h : s.step? p e = some s') {c : Nat} {purpose : Purpose} {url href : String}
    (hc : s'.calls[c]? = some ⟨purpose, url, .answered (.remote href)⟩) :
    s.calls[c]? = some ⟨purpose, url, .answered (.remote href)⟩ ∨ s'.directory.find? (fileName url) = none := by
  cases callTurn_of_step? h with
  | idle calls => exact Or.inl (calls ▸ hc)
  | call purpose' url' calls =>
    rw [calls, getElem?_append_singleton] at hc
    split at hc
    · exact absurd (Call.mk.inj (Option.some.inj hc)).2.2 State.firstStage_ne_remote
    · exact Or.inl hc
  | go x purpose' url' old new here next calls =>
    rw [calls, getElem?_set_of_eq_some here] at hc
    split at hc
    · obtain ⟨rfl, rfl, rfl⟩ := Call.mk.inj (Option.some.inj hc)
      generalize hnew : Stage.answered (.remote href) = new at next
      cases next with
      | answer =>
        rw [(files_of_step? h rfl).1]
        exact Or.inr (Directory.look_eq_absent_iff.mp (Policy.refer_eq_remote (Stage.answered.inj hnew).symm))
      | _ => nomatch hnew
    · exact Or.inl hc

end ChannelWatch.Cache
