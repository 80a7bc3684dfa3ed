import ChannelWatch.Proofs.Cache.Carried
import ChannelWatch.Proofs.Cache.Deliveries
import ChannelWatch.Proofs.Cache.InFlight

/-!
# Cache files are whole

The file of an image is never partial: at every moment it is not there, or what it was at the start, or the whole body that
the source has delivered for this very image. The invariant (`Whole`) says what a download may rely on about its temporary
file: as long as it is held open, no other name leads to it and no other download writes to it, even if it is removed behind
the download's back, or was left behind by one that crashed.
-/

namespace ChannelWatch.Cache

variable {p : Policy} {s s' : State} {e : Event} {start : Directory}

/-! ## Temporary files -/

namespace Directory

variable {d d' : Directory} {t : String} {fresh fresh' : Nat}

/-- Temporary files have one name: no other name leads to the same file. -/
def TempsUnlinked (d : Directory) : Prop :=
  ∀ name other f g, d.file? (tempName name) = some f → d.file? other = some g → g.id = f.id → other = tempName name

/-- Only the temporary name leads to the file that is held open, and to no other file, and the file holds what was written. -/
structure WrittenAs (d : Directory) (t : String) (file : Nat) (body : List UInt8) : Prop where
  only : ∀ name f, d.file? name = some f → f.id = file → name = t ∧ f.content = body
  here : ∀ e, d.find? t = some e → ∃ f, e = .file f ∧ f.id = file

/-- The temporary name leads to a file with the whole body, if to anything. -/
def HoldsWhole (d : Directory) (t : String) (body : List UInt8) : Prop :=
  ∀ e, d.find? t = some e → ∃ f, e = .file f ∧ f.content = body

/-- A step of a download has changed no file but a new one and the one that its temporary name stood for, which has one name
after it, and no other temporary name. -/
structure ChangedAt (d d' : Directory) (fresh fresh' : Nat) (t : String) : Prop where
  files : ∀ name g, d'.file? name = some g →
    d.file? name = some g ∨ (fresh ≤ g.id ∧ g.id < fresh') ∨ ∃ f, d.file? t = some f ∧ f.id = g.id
  home : ∃ home, ∀ name g, d'.file? name = some g → (fresh ≤ g.id ∨ ∃ f, d.file? t = some f ∧ f.id = g.id) → name = home
  temps : ∀ name, tempName name ≠ t →
    d'.find? (tempName name) = d.find? (tempName name) ∨ d'.find? (tempName name) = none

/-- A file that a download holds open is its own after the step of another download. -/
theorem WrittenAs.changed {name : String} {file : Nat} {body : List UInt8} (h : d.WrittenAs (tempName name) file body)
    (hfile : file < fresh) (c : d.ChangedAt d' fresh fresh' t) (ht : tempName name ≠ t) :
    d'.WrittenAs (tempName name) file body := by
  constructor
  · intro other g hg hid
    rcases c.files other g hg with hold | ⟨hfresh, -⟩ | ⟨f, hf, hfid⟩
    · exact h.only other g hold hid
    · omega
    · exact absurd (h.only t f hf (hfid.trans hid)).1.symm ht
  · intro e he
    rcases c.temps name ht with heq | hnone
    · exact h.here e (heq ▸ he)
    · rw [hnone] at he
      nomatch he

/-- A whole body waits under its temporary name after the step of another download. -/
theorem HoldsWhole.changed {name : String} {body : List UInt8} (h : d.HoldsWhole (tempName name) body)
    (c : d.ChangedAt d' fresh fresh' t) (ht : tempName name ≠ t) : d'.HoldsWhole (tempName name) body := by
  intro e he
  rcases c.temps name ht with heq | hnone
  · exact h e (heq ▸ he)
  · rw [hnone] at he
    nomatch he

/-- The file that is held open holds the whole body once all of it has been written. -/
theorem WrittenAs.holdsWhole {file : Nat} {body : List UInt8} (h : d.WrittenAs t file body) : d.HoldsWhole t body := by
  intro e he
  obtain ⟨f, rfl, hid⟩ := h.here e he
  exact ⟨f, rfl, (h.only t f (file?_eq_some_iff.mpr he) hid).2⟩

/-- Writing to the file that is held open changes nothing under another name. -/
theorem WrittenAs.find?_write_of_ne {file offset : Nat} {body bytes : List UInt8} {now : Int} {name : String}
    (h : d.WrittenAs t file body) (hne : name ≠ t) : (d.write file offset bytes now).find? name = d.find? name := by
  rw [find?_write]
  cases he : d.find? name with
  | none => rfl
  | some e =>
    cases e with
    | directory => rfl
    | file f =>
      have hid : f.id ≠ file := fun hid => hne (h.only _ f (file?_eq_some_iff.mpr he) hid).1
      simp [Entry.written, hid]

/-- Temporary files have one name after a step of a download. -/
theorem TempsUnlinked.changed (h : d.TempsUnlinked) (c : d.ChangedAt d' fresh fresh' t) : d'.TempsUnlinked := by
  intro name other f g hf hg hid
  obtain ⟨home, hhome⟩ := c.home
  have both : (fresh ≤ f.id ∨ ∃ x, d.file? t = some x ∧ x.id = f.id) → other = tempName name := by
    intro hc
    rw [hhome _ f hf hc, hhome other g hg (by rwa [hid])]
  rcases c.files _ f hf with hf' | ⟨hfresh, -⟩ | hx
  · rcases c.files other g hg with hg' | ⟨hfresh, -⟩ | hx
    · exact h name other f g hf' hg' hid
    · exact both (Or.inl (hid ▸ hfresh))
    · exact both (Or.inr (hid ▸ hx))
  · exact both (Or.inl hfresh)
  · exact both (Or.inr hx)

/-- Identities of files stay below that of the next new one. -/
theorem ChangedAt.ids (c : d.ChangedAt d' fresh fresh' t) (h : ∀ name f, d.file? name = some f → f.id < fresh)
    (hle : fresh ≤ fresh') : ∀ name f, d'.file? name = some f → f.id < fresh' := by
  intro name g hg
  rcases c.files name g hg with hold | ⟨-, hlt⟩ | ⟨f, hf, hid⟩
  · exact Nat.lt_of_lt_of_le (h name g hold) hle
  · exact hlt
  · exact hid ▸ Nat.lt_of_lt_of_le (h t f hf) hle

/-- A file is found after writing exactly if it was there before, with the bytes at the end if it is the one held open. -/
theorem file?_write {file offset : Nat} {bytes : List UInt8} {now : Int} {name : String} {g : FileData}
    (hg : (d.write file offset bytes now).file? name = some g) :
    ∃ f, d.file? name = some f ∧ g.id = f.id ∧ (f.id ≠ file → g = f) ∧
      (f.id = file → f.content.length = offset → g.content = f.content ++ bytes) := by
  rw [file?_eq_some_iff, find?_write, Option.map_eq_some_iff] at hg
  obtain ⟨e, he, hg⟩ := hg
  cases e with
  | directory => nomatch hg
  | file f =>
    refine ⟨f, file?_eq_some_iff.mpr he, ?_⟩
    by_cases hw : f.id = file ∧ bytes ≠ []
    · rw [Entry.written, if_pos hw] at hg
      obtain rfl := Entry.file.inj hg
      refine ⟨rfl, fun hne => absurd hw.1 hne, fun _ hl => ?_⟩
      subst hl
      exact overwrite_length f.content bytes
    · rw [Entry.written, if_neg hw] at hg
      obtain rfl := Entry.file.inj hg
      refine ⟨rfl, fun _ => rfl, fun hid _ => ?_⟩
      have hb : bytes = [] := Classical.not_not.mp fun hb => hw ⟨hid, hb⟩
      rw [hb, List.append_nil]

/-- A temporary file that is opened is empty and held by its one name. -/
theorem changedAt_create {file : Nat} {now : Int} {name : String} (hids : ∀ name f, d.file? name = some f → f.id < fresh)
    (hu : d.TempsUnlinked) (h : d.create? fresh now (tempName name) = some (d', file)) :
    d.ChangedAt d' fresh (fresh + 1) (tempName name) ∧ d'.WrittenAs (tempName name) file [] ∧ file < fresh + 1 := by
  obtain ⟨hself, hothers, hfile⟩ := find?_create h
  -- the file's identity is new, or that of the one file whose only name this is
  have alone : ∀ other g, other ≠ tempName name → d'.file? other = some g → g.id ≠ file ∧ g.id < fresh ∧
      ¬∃ f, d.file? (tempName name) = some f ∧ f.id = g.id := by
    intro other g ho hg
    rw [file?_congr (hothers other ho)] at hg
    have hlt := hids other g hg
    refine ⟨?_, hlt, fun ⟨f, hf, hid⟩ => ho (hu name other f g hf hg hid.symm)⟩
    rcases hfile with ⟨-, rfl⟩ | ⟨f, hf, rfl⟩
    · exact Nat.ne_of_lt hlt
    · exact fun hid => ho (hu name other f g (file?_eq_some_iff.mpr hf) hg hid)
  refine ⟨⟨?_, ⟨tempName name, ?_⟩, ?_⟩, ⟨?_, ?_⟩, ?_⟩
  · intro other g hg
    by_cases ho : other = tempName name
    · subst ho
      obtain rfl := Option.some.inj ((file?_eq_some_iff.mpr hself).symm.trans hg)
      rcases hfile with ⟨-, rfl⟩ | ⟨f, hf, rfl⟩
      · exact Or.inr (Or.inl ⟨Nat.le_refl _, Nat.lt_succ_self _⟩)
      · exact Or.inr (Or.inr ⟨f, file?_eq_some_iff.mpr hf, rfl⟩)
    · exact Or.inl (file?_congr (hothers other ho) ▸ hg)
  · intro other g hg hc
    refine Classical.not_not.mp fun ho => ?_
    obtain ⟨-, hlt, hnot⟩ := alone other g ho hg
    rcases hc with hle | hx
    · omega
    · exact hnot hx
  · exact fun other ho => Or.inl (hothers _ ho)
  · intro other g hg hid
    by_cases ho : other = tempName name
    · subst ho
      obtain rfl := Option.some.inj ((file?_eq_some_iff.mpr hself).symm.trans hg)
      exact ⟨rfl, rfl⟩
    · exact absurd hid (alone other g ho hg).1
  · intro e he
    obtain rfl := Option.some.inj (hself.symm.trans he)
    exact ⟨_, rfl, rfl⟩
  · rcases hfile with ⟨-, rfl⟩ | ⟨f, hf, rfl⟩
    · exact Nat.lt_succ_self _
    · exact Nat.lt_succ_of_lt (hids _ f (file?_eq_some_iff.mpr hf))

/-- Bytes written to the file that is held open come to its end, and change nothing else. -/
theorem changedAt_write {file : Nat} {body : List UInt8} {name : String} (bytes : List UInt8) (now : Int)
    (hids : ∀ name f, d.file? name = some f → f.id < fresh) (hu : d.TempsUnlinked)
    (h : d.WrittenAs (tempName name) file body) :
    d.ChangedAt (d.write file body.length bytes now) fresh fresh (tempName name) ∧
      (d.write file body.length bytes now).WrittenAs (tempName name) file (body ++ bytes) := by
  refine ⟨⟨?_, ⟨tempName name, ?_⟩, ?_⟩, ⟨?_, ?_⟩⟩
  · intro other g hg
    obtain ⟨f, hf, hid, hsame, -⟩ := file?_write hg
    by_cases hfile : f.id = file
    · obtain ⟨rfl, -⟩ := h.only other f hf hfile
      exact Or.inr (Or.inr ⟨f, hf, hid.symm⟩)
    · exact Or.inl (hsame hfile ▸ hf)
  · intro other g hg hc
    obtain ⟨f, hf, hid, -⟩ := file?_write hg
    have hlt := hids other f hf
    rcases hc with hle | ⟨x, hx, hxid⟩
    · omega
    · exact hu name other x f hx hf (hid ▸ hxid).symm
  · exact fun other ho => Or.inl (h.find?_write_of_ne ho)
  · intro other g hg hid
    obtain ⟨f, hf, hgf, -, happ⟩ := file?_write hg
    obtain ⟨ho, hb⟩ := h.only other f hf (hgf.symm.trans hid)
    refine ⟨ho, ?_⟩
    rw [happ (hgf.symm.trans hid) (congrArg List.length hb), hb]
  · intro e he
    rw [find?_write, Option.map_eq_some_iff] at he
    obtain ⟨e', he', rfl⟩ := he
    obtain ⟨f, rfl, hid⟩ := h.here e' he'
    by_cases hw : f.id = file ∧ bytes ≠ []
    · exact ⟨_, if_pos hw, hid⟩
    · exact ⟨_, if_neg hw, hid⟩

/-- A temporary file that gets the name of the finished one has no other name. -/
theorem changedAt_rename {name final : String} (hids : ∀ name f, d.file? name = some f → f.id < fresh)
    (hu : d.TempsUnlinked) (hfinal : ∀ other, tempName other ≠ final) (h : d.rename? (tempName name) final = some d') :
    d.ChangedAt d' fresh fresh (tempName name) := by
  obtain ⟨hold, hnew, -, hothers⟩ := find?_rename (hfinal name) h
  have moved : ∀ other g, d'.file? other = some g → other = final ∧ d.file? (tempName name) = some g ∨
      other ≠ tempName name ∧ d.file? other = some g := by
    intro other g hg
    by_cases hf : other = final
    · subst hf
      exact Or.inl ⟨rfl, file?_congr hnew ▸ hg⟩
    · by_cases ht : other = tempName name
      · subst ht
        rw [file?_eq_some_iff, hold] at hg
        nomatch hg
      · exact Or.inr ⟨ht, file?_congr (hothers other ht hf) ▸ hg⟩
  refine ⟨?_, ⟨final, ?_⟩, ?_⟩
  · intro other g hg
    rcases moved other g hg with ⟨-, ht⟩ | ⟨-, ho⟩
    · exact Or.inr (Or.inr ⟨g, ht, rfl⟩)
    · exact Or.inl ho
  · intro other g hg hc
    rcases moved other g hg with ⟨hf, -⟩ | ⟨ht, ho⟩
    · exact hf
    · have hlt := hids other g ho
      rcases hc with hle | ⟨x, hx, hxid⟩
      · omega
      · exact absurd (hu name other x g hx ho hxid.symm) ht
  · intro other ho
    exact Or.inl (hothers _ ho (hfinal other))

/-- The directory is another one with some entries removed. -/
def RestOf (d' d : Directory) : Prop :=
  ∀ name, d'.find? name = d.find? name ∨ d'.find? name = none

namespace RestOf

theorem refl (d : Directory) : d.RestOf d :=
  fun _ => Or.inl rfl

/-- Removing a file leaves the rest. -/
theorem of_removeFile {name : String} (h : d.removeFile? name = some d') : d'.RestOf d := by
  obtain ⟨hself, hothers⟩ := find?_removeFile h
  intro other
  by_cases ho : other = name
  · exact Or.inr (ho ▸ hself)
  · exact Or.inl (hothers other ho)

/-- What is found in the rest was there. -/
theorem find? (h : d'.RestOf d) {name : String} {e : Entry} (he : d'.find? name = some e) : d.find? name = some e := by
  rcases h name with heq | hnone
  · exact heq ▸ he
  · rw [hnone] at he
    nomatch he

theorem file? (h : d'.RestOf d) {name : String} {f : FileData} (hf : d'.file? name = some f) : d.file? name = some f :=
  file?_eq_some_iff.mpr (h.find? (file?_eq_some_iff.mp hf))

end RestOf

end Directory

/-! ## The invariant -/

/-- What a download relies on in its phase: the temporary file that it holds open is its own, and a whole body waits under
the temporary name. -/
def State.holds (s : State) (url : String) : Phase → Prop
  | .opened file => file < s.freshFile ∧ s.directory.WrittenAs (tempName (fileName url)) file []
  | .fetching file body => file < s.freshFile ∧ s.directory.WrittenAs (tempName (fileName url)) file body
  | .fetched body => (url, body) ∈ s.delivered ∧ s.directory.HoldsWhole (tempName (fileName url)) body
  | .spawned | .queued | .admitted | .cleaning | .leaving | .released | .unmarked | .ended => True

/-- What is under a name that is not temporary: nothing, what was there at the start, or the whole body that was delivered
for an image of that name. -/
def State.IsWhole (start : Directory) (s : State) (name : String) : Prop :=
  s.directory.find? name = none ∨ s.directory.find? name = start.find? name ∨
    ∃ f url, s.directory.find? name = some (.file f) ∧ fileName url = name ∧ (url, f.content) ∈ s.delivered

/-- Every download can rely on its temporary file, and every other name leads to a whole file. -/
structure State.Whole (start : Directory) (s : State) : Prop where
  ids : ∀ name f, s.directory.file? name = some f → f.id < s.freshFile
  unlinked : s.directory.TempsUnlinked
  held : ∀ (d : Nat) (url : String) (phase : Phase), s.downloads[d]? = some ⟨url, phase⟩ → s.holds url phase
  final : ∀ name, (∀ other, tempName other ≠ name) → s.IsWhole start name

/-- A download can rely on its temporary file after the step of another one. -/
theorem State.holds_changed {url t : String} {phase : Phase} (h : s.holds url phase)
    (c : s.directory.ChangedAt s'.directory s.freshFile s'.freshFile t) (hle : s.freshFile ≤ s'.freshFile)
    (hdel : s'.delivered = s.delivered) (ht : phase.isMarked = true → tempName (fileName url) ≠ t) : s'.holds url phase := by
  cases phase with
  | opened file => exact ⟨Nat.lt_of_lt_of_le h.1 hle, h.2.changed h.1 c (ht rfl)⟩
  | fetching file body => exact ⟨Nat.lt_of_lt_of_le h.1 hle, h.2.changed h.1 c (ht rfl)⟩
  | fetched body => exact ⟨hdel ▸ h.1, h.2.changed c (ht rfl)⟩
  | _ => trivial

/-- A download can rely on its temporary file when others are removed, or this very one. -/
theorem State.holds_rest {url : String} {phase : Phase} (h : s.holds url phase) (hdir : s'.directory.RestOf s.directory)
    (hfresh : s'.freshFile = s.freshFile) (hdel : s.delivered ⊆ s'.delivered) : s'.holds url phase := by
  have written : ∀ {file : Nat} {body : List UInt8}, s.directory.WrittenAs (tempName (fileName url)) file body →
      s'.directory.WrittenAs (tempName (fileName url)) file body :=
    fun hw => ⟨fun name f hf => hw.only name f (hdir.file? hf), fun e he => hw.here e (hdir.find? he)⟩
  cases phase with
  | opened file => exact ⟨hfresh ▸ h.1, written h.2⟩
  | fetching file body => exact ⟨hfresh ▸ h.1, written h.2⟩
  | fetched body => exact ⟨hdel h.1, fun e he => h.2 e (hdir.find? he)⟩
  | _ => trivial

namespace State.Whole

/-- Steps that do no more to the directory than to remove files keep the invariant. -/
theorem rest (h : s.Whole start) (t : Turn s e s') (hdir : s'.directory.RestOf s.directory)
    (hfresh : s'.freshFile = s.freshFile) (hdel : s.delivered ⊆ s'.delivered)
    (hnew : ∀ (d : Nat) (url : String) (old new : Phase), s.downloads[d]? = some ⟨url, old⟩ →
      s'.downloads[d]? = some ⟨url, new⟩ → Phase.Next d e old new → s'.holds url new) :
    s'.Whole start := by
  refine ⟨fun name f hf => hfresh ▸ h.ids name f (hdir.file? hf), ?_, ?_, ?_⟩
  · exact fun name other f g hf hg => h.unlinked name other f g (hdir.file? hf) (hdir.file? hg)
  · intro d url phase hd
    rcases t.download_came hd with ⟨old, hold, ⟨rfl, -⟩ | next⟩ | ⟨-, rfl, -⟩
    · exact holds_rest (h.held d url phase hold) hdir hfresh hdel
    · exact hnew d url old phase hold hd next
    · trivial
  · intro name hname
    rcases hdir name with heq | hnone
    · unfold IsWhole
      rw [heq]
      rcases h.final name hname with hnone | hstart | ⟨f, url, hf, hu, hmem⟩
      · exact Or.inl hnone
      · exact Or.inr (Or.inl hstart)
      · exact Or.inr (Or.inr ⟨f, url, hf, hu, hdel hmem⟩)
    · exact Or.inl hnone

/-- Steps of a download that write its temporary file, or give it the name of the finished one, keep the invariant. -/
theorem changed (h : s.Whole start) (hb : s.Bookkept) (hn : NamesApart (s.downloads.map (·.url))) {d : Nat} {url : String}
    {old new : Phase} (here : s.downloads[d]? = some ⟨url, old⟩) (hm : old.isMarked = true)
    (downloads : s'.downloads = (s.setPhase d new).downloads)
    (c : s.directory.ChangedAt s'.directory s.freshFile s'.freshFile (tempName (fileName url)))
    (hle : s.freshFile ≤ s'.freshFile) (hdel : s'.delivered = s.delivered) (hnew : s'.holds url new)
    (hfinal : ∀ name, (∀ other, tempName other ≠ name) →
      s'.directory.find? name = s.directory.find? name ∨ s'.IsWhole start name) : s'.Whole start := by
  refine ⟨c.ids h.ids hle, h.unlinked.changed c, ?_, ?_⟩
  · intro d' url' phase hd'
    rw [downloads, downloads_setPhase here, getElem?_set_of_eq_some here] at hd'
    split at hd'
    · obtain ⟨rfl, rfl⟩ := Download.mk.inj (Option.some.inj hd')
      exact hnew
    · rename_i hne
      refine holds_changed (h.held d' url' phase hd') c hle hdel fun hm' ht => hne ?_
      -- two downloads at work are for different images, so for different temporary names
      have hurl : url' = url := hn _ (List.mem_map_of_mem (List.mem_of_getElem? hd')) _
        (List.mem_map_of_mem (List.mem_of_getElem? here)) (tempName_inj.mp ht)
      subst hurl
      exact hb.eq_of_isMarked hd' hm' here hm
  · intro name hname
    rcases hfinal name hname with heq | hwhole
    · have := h.final name hname
      unfold IsWhole at this ⊢
      rw [heq, hdel]
      exact this
    · exact hwhole

/-- A step that leaves the directory alone keeps the invariant if the download that goes on needs nothing new. -/
theorem quiet (h : s.Whole start) (t : Turn s e s') (hdir : s'.directory = s.directory)
    (hfresh : s'.freshFile = s.freshFile) (hdel : s'.delivered = s.delivered)
    (hnew : ∀ (d : Nat) (url : String) (old new : Phase), s.downloads[d]? = some ⟨url, old⟩ →
      s'.downloads[d]? = some ⟨url, new⟩ → Phase.Next d e old new → s'.holds url new) : s'.Whole start :=
  h.rest t (hdir ▸ Directory.RestOf.refl _) hfresh (hdel ▸ List.Subset.refl _) hnew

/-- Every step keeps the invariant, as long as the digests of the images do not collide. -/
theorem step (h : s.Whole start) (hb : s.Bookkept) (hn : NamesApart (s.downloads.map (·.url)))
    (hs : s.step? p e = some s') : s'.Whole start := by
  have t := turn_of_step? hs
  cases e with
  | create d =>
    obtain ⟨url, hd, ⟨directory, file, hc, rfl⟩ | ⟨-, rfl⟩⟩ := create?_eq_some_iff.mp hs
    · obtain ⟨c, hw, hlt⟩ := Directory.changedAt_create h.ids h.unlinked hc
      refine h.changed hb hn hd rfl rfl c (Nat.le_succ _) rfl ⟨hlt, hw⟩ fun name hname => Or.inl ?_
      exact (Directory.find?_create hc).2.1 name (hname _).symm
    · refine h.quiet t rfl rfl rfl fun x image old new hx hx' next => ?_
      cases next with
      | refuse => trivial
      | create file =>
        rw [downloads_setPhase hd, getElem?_set_of_eq_some hd, if_pos rfl] at hx'
        nomatch hx'
  | ask d =>
    obtain ⟨url, file, hd, rfl⟩ := ask?_eq_some_iff.mp hs
    refine h.quiet t rfl rfl rfl fun x image old new hx _ next => ?_
    cases next
    rw [hd] at hx
    obtain ⟨rfl, hp⟩ := Download.mk.inj (Option.some.inj hx)
    obtain rfl := Phase.opened.inj hp
    exact h.held _ _ _ hd
  | write d bytes =>
    obtain ⟨url, file, body, hd, rfl⟩ := write?_eq_some_iff.mp hs
    obtain ⟨hlt, hw⟩ := h.held d url (.fetching file body) hd
    obtain ⟨c, hw'⟩ := Directory.changedAt_write bytes s.clock h.ids h.unlinked hw
    refine h.changed hb hn hd rfl rfl c (Nat.le_refl _) rfl ⟨hlt, hw'⟩ fun name hname => Or.inl ?_
    exact hw.find?_write_of_ne (hname _).symm
  | deliver d =>
    obtain ⟨url, file, body, hd, rfl⟩ := deliver?_eq_some_iff.mp hs
    refine h.rest t (Directory.RestOf.refl _) rfl (List.subset_append_left _ _) fun x image old new hx _ next => ?_
    cases next
    rw [hd] at hx
    obtain ⟨rfl, hp⟩ := Download.mk.inj (Option.some.inj hx)
    obtain ⟨rfl, rfl⟩ := Phase.fetching.inj hp
    refine ⟨List.mem_append_right _ (List.mem_singleton_self _), ?_⟩
    exact (h.held _ _ (.fetching _ _) hd).2.holdsWhole
  | rename d =>
    obtain ⟨url, body, hd, ⟨directory, hr, rfl⟩ | ⟨-, rfl⟩⟩ := rename?_eq_some_iff.mp hs
    · obtain ⟨hmem, hwhole⟩ := h.held d url (.fetched body) hd
      have hne : ∀ other, tempName other ≠ fileName url := fun other => (fileName_ne_tempName url other).symm
      have c := Directory.changedAt_rename h.ids h.unlinked hne hr
      obtain ⟨-, hnew, ⟨e, he⟩, hothers⟩ := Directory.find?_rename (hne _) hr
      refine h.changed hb hn hd rfl rfl c (Nat.le_refl _) rfl trivial fun name hname => ?_
      by_cases hf : name = fileName url
      · subst hf
        obtain ⟨f, rfl, hcontent⟩ := hwhole e he
        exact Or.inr (Or.inr (Or.inr ⟨f, url, hnew.trans he, rfl, hcontent ▸ hmem⟩))
      · exact Or.inl (hothers name (hname _).symm hf)
    · exact h.quiet t rfl rfl rfl fun _ _ _ _ _ _ next => by cases next <;> trivial
  | clean d =>
    obtain ⟨url, hd, rfl⟩ := clean?_eq_some_iff.mp hs
    have hdir : ((s.directory.removeFile? (tempName (fileName url))).getD s.directory).RestOf s.directory := by
      cases hr : s.directory.removeFile? (tempName (fileName url)) with
      | none => exact Directory.RestOf.refl _
      | some directory => exact Directory.RestOf.of_removeFile hr
    exact h.rest t hdir rfl (List.Subset.refl _) fun _ _ _ _ _ _ next => by cases next; trivial
  | remove i =>
    obtain ⟨_, _, _, _, _, -, ⟨_, hr, rfl⟩ | ⟨-, rfl⟩⟩ := remove?_eq_some_iff.mp hs
    · exact h.rest t (Directory.RestOf.of_removeFile hr) rfl (List.Subset.refl _) nofun
    · exact h.quiet t rfl rfl rfl nofun
  | _ =>
    obtain ⟨hdir, hfresh, hdel⟩ := files_of_step? hs rfl
    exact h.quiet t hdir hfresh hdel fun _ _ _ _ _ _ next => by cases next <;> trivial

end State.Whole

/-- The images that downloads are for only become more. -/
theorem Turn.urls_subset (t : Turn s e s') : s.downloads.map (·.url) ⊆ s'.downloads.map (·.url) := by
  intro url hu
  obtain ⟨⟨url, phase⟩, hx, rfl⟩ := List.mem_map.mp hu
  obtain ⟨d, hd⟩ := List.mem_iff_getElem?.mp hx
  obtain ⟨new, hd', -⟩ := t.download_stays hd
  exact List.mem_map.mpr ⟨_, List.mem_of_getElem? hd', rfl⟩

/-- In a run over a directory whose temporary files have one name, every file is whole as long as the digests of the images
do not collide. -/
theorem State.whole_of_steps? {clock : Int} {events : List Event} (hu : start.TempsUnlinked)
    (h : (State.begun p start clock).steps? p events = some s) (hn : NamesApart (s.downloads.map (·.url))) :
    s.Whole start := by
  refine steps?_induction (motive := fun _ m => NamesApart (m.downloads.map (·.url)) → m.Whole start) (fun _ => ?_)
    (fun es m e m' hes ih he hn' => ?_) h hn
  · exact ⟨fun _ _ hf => Directory.id_lt_freshId hf, hu, nofun, fun _ _ => Or.inr (Or.inl rfl)⟩
  · have hbefore := hn'.mono (turn_of_step? he).urls_subset
    exact (ih hbefore).step ((Reachable.begun start clock).steps? hes).bookkept hbefore he

/-- In a directory of finished files alone there are no temporary files, so none with a second name. -/
theorem Directory.tempsUnlinked_of_finished {directory : Directory}
    (h : ∀ x ∈ directory.entries, isFileName x.1 = true) : directory.TempsUnlinked := by
  intro name other f g hf
  obtain ⟨⟨name', e⟩, hfind, -⟩ := Option.map_eq_some_iff.mp (file?_eq_some_iff.mp hf)
  have hname : name' = tempName name := by simpa using List.find?_some hfind
  have hfile := h _ (List.mem_of_find?_eq_some hfind)
  rw [hname, isFileName_tempName] at hfile
  nomatch hfile

/-! ## Files are whole -/

/-- At every moment of a run, the file of an image is not there, or what it was at the start, or all that the source has
written for one download of this image which it ended with success. The temporary files at the start have one name, and no
two of the images that the run and the name are about have the same digest. -/
theorem files_whole {directory : Directory} {clock : Int} {events : List Event} (hu : directory.TempsUnlinked)
    (h : (State.begun p directory clock).steps? p events = some s) (u : String)
    (hn : NamesApart (Link.secure u :: s.downloads.map (·.url))) :
    s.directory.find? (nameFor u) = none ∨ s.directory.find? (nameFor u) = directory.find? (nameFor u) ∨
      ∃ f d phase, s.directory.find? (nameFor u) = some (.file f) ∧ s.downloads[d]? = some ⟨Link.secure u, phase⟩ ∧
        Event.deliver d ∈ events ∧ f.content = events.flatMap (·.written d) := by
  have whole := State.whole_of_steps? hu h (hn.mono (List.subset_cons_self _ _))
  have hfinal : ∀ other, tempName other ≠ nameFor u := fun other => (fileName_ne_tempName _ other).symm
  rcases whole.final (nameFor u) hfinal with hnone | hstart | ⟨f, url, hf, hurl, hmem⟩
  · exact Or.inl hnone
  · exact Or.inr (Or.inl hstart)
  · obtain ⟨d, phase, hd, -, hev, hbody⟩ := (State.recorded h).delivered url f.content hmem
    -- the file has the name of the image, so it was delivered for this image
    have hin : url ∈ Link.secure u :: s.downloads.map (·.url) :=
      List.mem_cons_of_mem _ (List.mem_map.mpr ⟨_, List.mem_of_getElem? hd, rfl⟩)
    obtain rfl := hn url hin (Link.secure u) List.mem_cons_self hurl
    exact Or.inr (Or.inr ⟨f, d, phase, hf, hd, hev, hbody.symm⟩)

/-- The second download of an image takes over the temporary file that the crash of the first one has left behind. -/
theorem files_whole_after_crash :
    ∃ events s, (State.begun ⟨10, "/", 1⟩ (.present []) 0).steps? ⟨10, "/", 1⟩ events = some s ∧
      s.directory.find? (nameFor "http://a/b.png") = some (.file ⟨0, [4, 5], 0⟩) ∧
      (s.directory.find? (nameFor "http://a/b.png") = none ∨
        s.directory.find? (nameFor "http://a/b.png") = (Directory.present []).find? (nameFor "http://a/b.png") ∨
        ∃ f d phase, s.directory.find? (nameFor "http://a/b.png") = some (.file f) ∧
          s.downloads[d]? = some ⟨Link.secure "http://a/b.png", phase⟩ ∧ Event.deliver d ∈ events ∧
          f.content = events.flatMap (·.written d)) := by
  let url := "https://a/b.png"
  let left : Directory := .present [(tempName (fileName url), .file ⟨0, [1, 2, 3], 0⟩)]
  let crashed : State := {
    clock := 0, directory := left, freshFile := 1, closed := false, free := 0, line := []
    downloads := [⟨url, .ended⟩, ⟨url, .admitted⟩], markers := [(url, 1)]
    calls := [⟨.preload, url, .finished⟩, ⟨.preload, url, .finished⟩], sweeps := [], asked := [url], delivered := [] }
  let before : List Event := [.call .preload "http://a/b.png", .call .preload "https://a/b.png", .register 0, .queue 0, .acquire 0,
    .create 0, .ask 0, .write 0 [1, 2, 3], .crash 0, .release 0, .unmark 0, .signal 0, .register 1, .queue 1, .acquire 1]
  have hcrashed : (State.begun ⟨10, "/", 1⟩ (.present []) 0).steps? ⟨10, "/", 1⟩ before = some crashed := rfl
  have htemp : left.find? (tempName (fileName url)) = some (.file ⟨0, [1, 2, 3], 0⟩) := Directory.find?_insert_self [] _ _
  have hcreate : left.create? 1 0 (tempName (fileName url)) =
      some (.present [(tempName (fileName url), .file ⟨0, [], 0⟩)], 0) := by
    simp [left, Directory.create?, Directory.find?, Directory.entries, Directory.insert]
  have hfree : left.Admits (fileName url) := by
    intro modified children hfind
    simp [left, Directory.find?, Directory.entries, (fileName_ne_tempName url (fileName url)).symm] at hfind
  obtain ⟨directory, hcarried, hfind, -⟩ :=
    State.carried (p := ⟨10, "/", 1⟩) (s := crashed) (d := 1) rfl hcreate hfree [[4], [5]]
  have h := State.steps?_trans hcrashed hcarried
  have hnames : NamesApart [url, url, url] := by
    intro a ha b hb _
    simp only [List.mem_cons, List.not_mem_nil, or_false, or_self] at ha hb
    rw [ha, hb]
  have hunlinked : (Directory.present []).TempsUnlinked :=
    Directory.tempsUnlinked_of_finished fun _ hx => absurd hx List.not_mem_nil
  exact ⟨_, _, h, hfind, files_whole hunlinked h _ hnames⟩

end ChannelWatch.Cache
