import ChannelWatch.Proofs.Cache.Names
import ChannelWatch.Proofs.Cache.Runs

/-!
# What stands in the directory

Statements about the operations on the cache directory through what is found under a name: what each of them leaves under
the names that it does not touch, which file it puts under the one that it does, and what a look makes of what it finds. For a
single name, `NameTurn` lists all that a step of the cache can do to what stands there.
-/

namespace ChannelWatch.Cache

/-- An entry after some bytes were written to a file that is held open. -/
def Entry.written (file offset : Nat) (bytes : List UInt8) (now : Int) : Entry → Entry
  | .file f =>
    if f.id = file ∧ bytes ≠ [] then .file ⟨f.id, Directory.overwrite f.content offset bytes, now⟩ else .file f
  | .directory modified children => .directory modified children

namespace Directory

variable {d d' : Directory} {name other : String}

/-- The file of a name is what is found under it. -/
theorem file?_eq_some_iff {f : FileData} : d.file? name = some f ↔ d.find? name = some (.file f) := by
  unfold file?
  rw [Option.bind_eq_some_iff]
  constructor
  · rintro ⟨e, he, hf⟩
    cases e with
    | file g =>
      obtain rfl := Option.some.inj hf
      exact he
    | directory => nomatch hf
  · intro h
    exact ⟨.file f, h, rfl⟩

theorem file?_congr (h : d'.find? other = d.find? name) : d'.file? other = d.file? name := by
  simp only [file?, h]

@[simp] theorem find?_nil : (present []).find? name = none := rfl

@[simp] theorem find?_cons (first : String) (e : Entry) (es : List (String × Entry)) :
    (present ((first, e) :: es)).find? name = if first = name then some e else (present es).find? name := by
  by_cases h : first = name <;> simp [find?, entries, h]

/-- Something is found only in a directory that is there. -/
theorem exists_present_of_find? {e : Entry} (h : d.find? name = some e) : ∃ entries, d = .present entries := by
  cases d with
  | present entries => exact ⟨entries, rfl⟩
  | absent => nomatch h
  | obstructed => nomatch h

theorem overwrite_length (content bytes : List UInt8) : overwrite content content.length bytes = content ++ bytes := by
  simp [overwrite]

/-- Writing changes the entries and keeps their names. -/
theorem write_present (entries : List (String × Entry)) (file offset : Nat) (bytes : List UInt8) (now : Int) :
    (present entries).write file offset bytes now =
      present (entries.map fun e => (e.1, e.2.written file offset bytes now)) := by
  by_cases hb : bytes = []
  · have hid : (fun e : String × Entry => (e.1, e.2.written file offset [] now)) = id := by
      funext e
      obtain ⟨name, f | ⟨modified, children⟩⟩ := e
      · simp [Entry.written]
      · rfl
    simp [write, hb, hid]
  · simp only [write, List.isEmpty_iff, hb, if_false]
    congr 2
    funext e
    obtain ⟨name, f | ⟨modified, children⟩⟩ := e
    · by_cases hf : f.id = file <;> simp [Entry.written, hf, hb]
    · rfl

/-- Writing changes the file that is held open under every name it has, and nothing else. -/
theorem find?_write (d : Directory) (file offset : Nat) (bytes : List UInt8) (now : Int) (name : String) :
    (d.write file offset bytes now).find? name = (d.find? name).map (·.written file offset bytes now) := by
  cases d with
  | absent => rfl
  | obstructed => rfl
  | present es =>
    simp only [write_present, find?, entries, List.find?_map, Option.map_map]
    rfl

/-- A file may be put under a name: the name does not stand for a directory. -/
def Admits (d : Directory) (name : String) : Prop :=
  ∀ modified children, d.find? name ≠ some (.directory modified children)

theorem Admits.of_none (h : d.find? name = none) : d.Admits name := by
  intro modified children
  rw [h]
  exact (Option.some_ne_none _).symm

theorem Admits.of_file {f : FileData} (h : d.find? name = some (.file f)) : d.Admits name := by
  intro modified children hfind
  cases h.symm.trans hfind

/-- Writing to a file that is held open makes no directory and changes none. -/
theorem find?_of_written_directory {file offset : Nat} {bytes : List UInt8} {now modified : Int}
    {children : List (String × Entry)}
    (h : (d.find? name).map (·.written file offset bytes now) = some (.directory modified children)) :
    d.find? name = some (.directory modified children) := by
  obtain ⟨entry, hentry, hwritten⟩ := Option.map_eq_some_iff.mp h
  cases entry with
  | file f =>
    simp only [Entry.written] at hwritten
    split at hwritten <;> nomatch hwritten
  | directory => rw [hentry, ← hwritten, Entry.written]

theorem Admits.write (h : d.Admits name) (file offset : Nat) (bytes : List UInt8) (now : Int) :
    (d.write file offset bytes now).Admits name :=
  fun modified children hfind => h modified children (find?_of_written_directory ((find?_write ..).symm.trans hfind))

/-- Opening a file for writing leaves every other name as it was. The name then stands for an empty file: the one that was
there, or a new one. -/
theorem find?_create {fresh file : Nat} {now : Int} (h : d.create? fresh now name = some (d', file)) :
    d'.find? name = some (.file ⟨file, [], now⟩) ∧ (∀ other, other ≠ name → d'.find? other = d.find? other) ∧
      (d.find? name = none ∧ file = fresh ∨ ∃ f, d.find? name = some (.file f) ∧ f.id = file) := by
  cases d with
  | absent => nomatch h
  | obstructed => nomatch h
  | present entries =>
    simp only [create?] at h
    split at h
    · rename_i hn
      obtain ⟨rfl, rfl⟩ := Prod.mk.inj (Option.some.inj h)
      exact ⟨find?_insert_self _ _ _, fun other ho => find?_insert_of_ne _ _ ho, Or.inl ⟨hn, rfl⟩⟩
    · rename_i f hf
      obtain ⟨rfl, rfl⟩ := Prod.mk.inj (Option.some.inj h)
      exact ⟨find?_insert_self _ _ _, fun other ho => find?_insert_of_ne _ _ ho, Or.inr ⟨f, hf, rfl⟩⟩
    · nomatch h

/-- A file can be opened for writing in a directory that is there, if its name stands for no directory. -/
theorem exists_create (hthere : ∃ entries, d = .present entries) (ha : d.Admits name) (fresh : Nat) (now : Int) :
    ∃ d' file, d.create? fresh now name = some (d', file) := by
  obtain ⟨entries, rfl⟩ := hthere
  simp only [create?]
  split
  · exact ⟨_, _, rfl⟩
  · exact ⟨_, _, rfl⟩
  · rename_i modified children hfind
    exact absurd hfind (ha modified children)

/-- A file can be given another name, if this stands for no directory. -/
theorem exists_rename {new : String} {f : FileData} (hf : d.find? name = some (.file f)) (ha : d.Admits new) :
    ∃ d', d.rename? name new = some d' := by
  have hmay : mayReplace (.file f) (d.find? new) = true := by
    cases hold : d.find? new with
    | none => rfl
    | some entry =>
      cases entry with
      | file => rfl
      | directory modified children => exact absurd hold (ha modified children)
  simp only [rename?, hf, hmay, if_true]
  exact ⟨_, rfl⟩

/-- A file cannot be given a name that stands for a directory. -/
theorem rename?_eq_none {new : String} {f : FileData} {modified : Int} {children : List (String × Entry)}
    (hf : d.find? name = some (.file f)) (hnew : d.find? new = some (.directory modified children)) : d.rename? name new = none := by
  simp only [rename?, hf, hnew, mayReplace, if_false, Bool.false_eq_true]

/-- A renamed entry is found under its new name and no longer under its old one. -/
theorem find?_rename {old new : String} (hne : old ≠ new) (h : d.rename? old new = some d') :
    d'.find? old = none ∧ d'.find? new = d.find? old ∧ (∃ e, d.find? old = some e) ∧
      ∀ other, other ≠ old → other ≠ new → d'.find? other = d.find? other := by
  simp only [rename?] at h
  split at h
  · rename_i e he
    split at h
    · obtain rfl := Option.some.inj h
      obtain ⟨entries, rfl⟩ := exists_present_of_find? he
      refine ⟨?_, ?_, ⟨e, he⟩, fun other ho hn => ?_⟩
      · rw [find?_insert_of_ne _ _ hne, find?_erase_self]
      · rw [he]
        exact find?_insert_self _ _ _
      · rw [find?_insert_of_ne _ _ hn, find?_erase_of_ne _ ho]
    · nomatch h
  · nomatch h

/-- Removing the file of a name leaves every other name as it was. -/
theorem find?_removeFile (h : d.removeFile? name = some d') :
    d'.find? name = none ∧ ∀ other, other ≠ name → d'.find? other = d.find? other := by
  simp only [removeFile?] at h
  split at h
  · obtain rfl := Option.some.inj h
    exact ⟨find?_erase_self _ _, fun other ho => find?_erase_of_ne _ ho⟩
  · nomatch h

theorem removeFile?_of_file {f : FileData} (hf : d.find? name = some (.file f)) : d.removeFile? name = some (d.erase name) := by
  rw [removeFile?, hf]

/-- What is removed under a name is a file. -/
theorem exists_file_of_removeFile (h : d.removeFile? name = some d') : ∃ f, d.file? name = some f := by
  simp only [removeFile?] at h
  split at h
  · rename_i f hf
    exact ⟨f, file?_eq_some_iff.mpr hf⟩
  · nomatch h

/-- The greatest identity so far only grows. -/
theorem le_foldl_ids (fs : List FileData) (n : Nat) :
    n ≤ fs.foldl (fun n f => max n (f.id + 1)) n ∧ ∀ f ∈ fs, f.id < fs.foldl (fun n f => max n (f.id + 1)) n := by
  induction fs generalizing n with
  | nil => exact ⟨Nat.le_refl n, nofun⟩
  | cons g fs ih =>
    obtain ⟨hle, hlt⟩ := ih (max n (g.id + 1))
    rw [List.foldl_cons]
    refine ⟨by omega, fun f hf => ?_⟩
    rcases List.mem_cons.mp hf with rfl | hf
    · omega
    · exact hlt f hf

/-- The identity for a new file is above that of every file that is there. -/
theorem id_lt_freshId {f : FileData} (h : d.file? name = some f) : f.id < d.freshId := by
  obtain ⟨⟨name', e⟩, hfind, rfl⟩ := Option.map_eq_some_iff.mp (file?_eq_some_iff.mp h)
  refine (le_foldl_ids _ 0).2 f (List.mem_filterMap.mpr ⟨_, List.mem_of_find?_eq_some hfind, rfl⟩)

end Directory

/-! ## What a look finds -/

/-- The entry is younger than the time to live; one from the future is not. -/
def Entry.IsFresh (ttl : Nat) (now : Int) (entry : Entry) : Prop :=
  0 ≤ now - entry.modified ∧ now - entry.modified < ttl

instance (ttl : Nat) (now : Int) (entry : Entry) : Decidable (entry.IsFresh ttl now) :=
  inferInstanceAs (Decidable (_ ∧ _))

namespace Directory

variable {d : Directory} {ttl : Nat} {now : Int} {name : String}

/-- A look tells whether what stands under a name is fresh. -/
theorem look_of_find? {entry : Entry} (h : d.find? name = some entry) :
    d.look ttl now name = if entry.IsFresh ttl now then .fresh else .stale := by
  rw [look, h]
  rfl

/-- A look finds a fresh file exactly if a fresh entry stands under the name. -/
theorem look_eq_fresh_iff :
    d.look ttl now name = .fresh ↔ ∃ entry, d.find? name = some entry ∧ entry.IsFresh ttl now := by
  cases hf : d.find? name with
  | none => simp [look, hf]
  | some entry =>
    rw [look_of_find? hf]
    by_cases h : entry.IsFresh ttl now <;> simp [h]

/-- A look finds a stale file exactly if an entry stands under the name that is not fresh. -/
theorem look_eq_stale_iff :
    d.look ttl now name = .stale ↔ ∃ entry, d.find? name = some entry ∧ ¬entry.IsFresh ttl now := by
  cases hf : d.find? name with
  | none => simp [look, hf]
  | some entry =>
    rw [look_of_find? hf]
    by_cases h : entry.IsFresh ttl now <;> simp [h]

/-- A look finds nothing exactly if nothing stands under the name. -/
theorem look_eq_absent_iff : d.look ttl now name = .absent ↔ d.find? name = none := by
  cases hf : d.find? name with
  | none => simp [look, hf]
  | some entry =>
    rw [look_of_find? hf]
    by_cases h : entry.IsFresh ttl now <;> simp [h]

end Directory

/-! ## What a step does to one name -/

variable {p : Policy} {s s' : State} {e : Event}

/-- What a step does to what stands under a name: nothing; a download opens it as its temporary file, writes to it, gives its
temporary file this name for good, or takes its temporary file away from it; or a download or a sweep removes the file. -/
inductive NameTurn (s : State) (name : String) : Event → State → Prop
  | idle {e : Event} {s' : State} (found : s'.directory.find? name = s.directory.find? name) : NameTurn s name e s'
  | create {s' : State} (d : Nat) (url : String) (file : Nat) (here : s.downloads[d]? = some ⟨url, .admitted⟩)
      (temp : name = tempName (fileName url)) (found : s'.directory.find? name = some (.file ⟨file, [], s.clock⟩)) :
      NameTurn s name (.create d) s'
  | write {s' : State} (d : Nat) (url : String) (file : Nat) (body bytes : List UInt8)
      (here : s.downloads[d]? = some ⟨url, .fetching file body⟩)
      (found : s'.directory.find? name = (s.directory.find? name).map (·.written file body.length bytes s.clock)) :
      NameTurn s name (.write d bytes) s'
  | rename {s' : State} (d : Nat) (url : String) (body : List UInt8) (entry : Entry)
      (here : s.downloads[d]? = some ⟨url, .fetched body⟩) (final : name = fileName url)
      (moved : s.directory.find? (tempName (fileName url)) = some entry) (found : s'.directory.find? name = some entry) :
      NameTurn s name (.rename d) s'
  | vacate {s' : State} (d : Nat) (url : String) (body : List UInt8) (here : s.downloads[d]? = some ⟨url, .fetched body⟩)
      (temp : name = tempName (fileName url)) (found : s'.directory.find? name = none) : NameTurn s name (.rename d) s'
  | clean {s' : State} (d : Nat) (url : String) (here : s.downloads[d]? = some ⟨url, .cleaning⟩)
      (temp : name = tempName (fileName url)) (found : s'.directory.find? name = none) : NameTurn s name (.clean d) s'
  | remove {s' : State} (i : Nat) (f : FileData) (there : s.directory.file? name = some f)
      (found : s'.directory.find? name = none) : NameTurn s name (.remove i) s'

/-- Every step takes its turn with every name. -/
theorem nameTurn_of_step? (h : s.step? p e = some s') (name : String) : NameTurn s name e s' := by
  cases e with
  | create d =>
    obtain ⟨url, hd, ⟨directory, file, hc, rfl⟩ | ⟨-, rfl⟩⟩ := State.create?_eq_some_iff.mp h
    · obtain ⟨hnew, hothers, -⟩ := Directory.find?_create hc
      by_cases ht : name = tempName (fileName url)
      · exact .create d url file hd ht (ht ▸ hnew)
      · exact .idle (hothers name ht)
    · exact .idle rfl
  | write d bytes =>
    obtain ⟨url, file, body, hd, rfl⟩ := State.write?_eq_some_iff.mp h
    exact .write d url file body bytes hd (Directory.find?_write ..)
  | rename d =>
    obtain ⟨url, body, hd, ⟨directory, hr, rfl⟩ | ⟨-, rfl⟩⟩ := State.rename?_eq_some_iff.mp h
    · obtain ⟨hgone, hnew, ⟨entry, hentry⟩, hothers⟩ := Directory.find?_rename (fileName_ne_tempName url _).symm hr
      by_cases ht : name = tempName (fileName url)
      · exact .vacate d url body hd ht (ht ▸ hgone)
      · by_cases hf : name = fileName url
        · exact .rename d url body entry hd hf hentry (hf ▸ hnew.trans hentry)
        · exact .idle (hothers name ht hf)
    · exact .idle rfl
  | clean d =>
    obtain ⟨url, hd, rfl⟩ := State.clean?_eq_some_iff.mp h
    cases hr : s.directory.removeFile? (tempName (fileName url)) with
    | none => exact .idle rfl
    | some directory =>
      obtain ⟨hgone, hothers⟩ := Directory.find?_removeFile hr
      by_cases ht : name = tempName (fileName url)
      · exact .clean d url hd ht (ht ▸ hgone)
      · exact .idle (hothers name ht)
  | remove i =>
    obtain ⟨_, _, other, _, _, -, ⟨directory, hr, rfl⟩ | ⟨-, rfl⟩⟩ := State.remove?_eq_some_iff.mp h
    · obtain ⟨hgone, hothers⟩ := Directory.find?_removeFile hr
      obtain ⟨f, hf⟩ := Directory.exists_file_of_removeFile hr
      by_cases ho : name = other
      · exact .remove i f (ho ▸ hf) (ho ▸ hgone)
      · exact .idle (hothers name ho)
    · exact .idle rfl
  | deliver d =>
    obtain ⟨_, _, _, -, rfl⟩ := State.deliver?_eq_some_iff.mp h
    exact .idle rfl
  | _ => exact .idle (by rw [(files_of_step? h rfl).1])

end ChannelWatch.Cache
