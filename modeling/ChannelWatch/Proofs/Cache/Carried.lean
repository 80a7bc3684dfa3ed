import ChannelWatch.Proofs.Cache.Files

/-!
# Downloads carried through

The runs of one download over a given directory while nothing else happens, put together from their parts: it is begun by a call
(`State.preloaded`), its source writes the image in pieces (`State.fetched`), and then the image gets its name (`State.placed`) or
the temporary file is given up (`State.discarded`). Of the directory only what is found under the names that matter is said.
-/

namespace ChannelWatch.Cache

variable {p : Policy} {s : State} {d : Nat} {url : String} {file : Nat} {body : List UInt8}

/-! ## Directories with the same directories in them -/

/-- The same names stand for the same directories. -/
def Directory.SameFolders (before after : Directory) : Prop :=
  ∀ name modified children,
    after.find? name = some (.directory modified children) ↔ before.find? name = some (.directory modified children)

namespace Directory.SameFolders

variable {before between after : Directory} {name : String}

theorem refl (before : Directory) : before.SameFolders before :=
  fun _ _ _ => Iff.rfl

theorem trans (h : before.SameFolders between) (h' : between.SameFolders after) : before.SameFolders after :=
  fun name modified children => (h' name modified children).trans (h name modified children)

theorem admits (h : before.SameFolders after) (ha : before.Admits name) : after.Admits name :=
  fun modified children hfind => ha modified children ((h name modified children).mp hfind)

/-- Opening a file makes no directory and takes none away. -/
theorem of_create {fresh : Nat} {now : Int} (h : before.create? fresh now name = some (after, file)) :
    before.SameFolders after := by
  obtain ⟨hnew, hothers, hold⟩ := Directory.find?_create h
  intro other modified children
  by_cases ho : other = name
  · subst ho
    rcases hold with ⟨hnone, -⟩ | ⟨f, hf, -⟩
    · simp [hnew, hnone]
    · simp [hnew, hf]
  · rw [hothers other ho]

/-- Writing to a file makes no directory and takes none away. -/
theorem of_write (before : Directory) (file offset : Nat) (bytes : List UInt8) (now : Int) :
    before.SameFolders (before.write file offset bytes now) := by
  intro name modified children
  rw [Directory.find?_write]
  constructor
  · exact Directory.find?_of_written_directory
  · intro hfind
    rw [hfind, Option.map_some, Entry.written]

end Directory.SameFolders

/-! ## Parts of the way -/

theorem State.setPhase_setPhase (s : State) (d : Nat) (old new : Phase) :
    (s.setPhase d old).setPhase d new = s.setPhase d new := by
  simp only [setPhase, List.modify_modify_eq]
  rfl

theorem State.setPhase_self {phase : Phase} (h : s.downloads[d]? = some ⟨url, phase⟩) : s.setPhase d phase = s := by
  have hsame : s.downloads.modify d (fun x => { x with phase := phase }) = s.downloads := by
    obtain ⟨hlt, hd⟩ := List.getElem?_eq_some_iff.mp h
    exact (downloads_setPhase h phase).trans (by rw [← hd, List.set_getElem_self])
  rw [setPhase, hsame]

theorem State.getElem?_setPhase_self {old : Phase} (h : s.downloads[d]? = some ⟨url, old⟩) (new : Phase) :
    (s.setPhase d new).downloads[d]? = some ⟨url, new⟩ := by
  rw [downloads_setPhase h, List.getElem?_set_self (List.getElem?_eq_some_iff.mp h).1]

theorem State.steps?_cons {m s' : State} {e : Event} {es : List Event} (h : s.step? p e = some m) (h' : m.steps? p es = some s') :
    s.steps? p (e :: es) = some s' := by
  rw [steps?, h, Option.bind_some, h']

/-- The state after a call has begun a download for an image. -/
def State.preload (s : State) (image : String) : State :=
  { s.spawn image with calls := s.calls ++ [⟨.preload, image, .finished⟩] }

/-- A call for an image without a fresh file begins a download if none is in flight. -/
theorem State.preloaded {image : String} (hsecure : Link.secure url = image) (himage : url ≠ "") (hcold : s.look p image ≠ .fresh)
    (hm : s.marker? image = none) :
    s.steps? p [.call .preload url, .register s.calls.length] = some (s.preload image) := by
  have hlooked : s.firstStage p .preload url = .looked := State.firstStage_eq_looked_iff.mpr ⟨himage, hsecure ▸ hcold⟩
  let called : State := { s with calls := s.calls ++ [⟨.preload, image, .looked⟩] }
  have hcall : s.step? p (.call .preload url) = some called := by
    rw [step?, beginCall_eq, hlooked, hsecure]
  refine steps?_cons hcall (steps?_singleton ?_)
  refine register?_eq_some_iff.mpr ⟨.preload, image, List.getElem?_concat_length, Or.inr ⟨hm, ?_⟩⟩
  simp only [called, preload, spawn, setStage, modify_append_singleton]

/-- A download that asks for a permit gets it at once, if no other waits and one is free. -/
theorem State.admitted {n : Nat} (hd : s.downloads[d]? = some ⟨url, .spawned⟩) (hline : s.line = []) (hopen : s.closed = false)
    (hfree : s.free = n + 1) : s.steps? p [.queue d, .acquire d] = some { s.setPhase d .admitted with free := n } := by
  have hqueue : s.step? p (.queue d) = some _ := queue?_eq_some_iff.mpr ⟨phase?_eq_some_iff.mpr ⟨_, hd⟩, rfl⟩
  refine steps?_cons hqueue (steps?_singleton ?_)
  refine acquire?_eq_some_iff.mpr ⟨phase?_setPhase_self (phase?_eq_some_iff.mpr ⟨_, hd⟩) _, hopen, [], n, ?_, hfree, ?_⟩
  · show s.line ++ [_] = _
    rw [hline, List.nil_append]
  · simp only [setPhase, List.modify_modify_eq, hline]
    rfl

/-- The state after a call has begun a download for an image and it was admitted, which leaves some permits free. -/
def State.withAdmitted (s : State) (image : String) (free : Nat) : State :=
  { s.preload image with downloads := s.downloads ++ [⟨image, .admitted⟩], free := free }

/-- A call for an image without a fresh file begins a download, which is admitted at once if no other waits and a permit is free. -/
theorem State.preloaded_admitted {image : String} {n : Nat} (hsecure : Link.secure url = image) (himage : url ≠ "")
    (hcold : s.look p image ≠ .fresh) (hm : s.marker? image = none) (hline : s.line = []) (hopen : s.closed = false)
    (hfree : s.free = n + 1) :
    s.steps? p [.call .preload url, .register s.calls.length, .queue s.downloads.length, .acquire s.downloads.length] =
      some (s.withAdmitted image n) := by
  have hd : (s.preload image).downloads[s.downloads.length]? = some ⟨image, .spawned⟩ := List.getElem?_concat_length
  refine steps?_trans (preloaded hsecure himage hcold hm) ((admitted (n := n) hd hline hopen hfree).trans ?_)
  simp only [withAdmitted, preload, spawn, setPhase, modify_append_singleton]

/-- What the source of a download does that is asked for an image and writes it in pieces. -/
def fetching (d : Nat) (pieces : List (List UInt8)) : List Event :=
  .create d :: .ask d :: pieces.map (.write d)

/-- The source writes some pieces, one after another. -/
theorem State.written {name : String} (hd : s.downloads[d]? = some ⟨url, .fetching file body⟩)
    (hf : s.directory.find? name = some (.file ⟨file, body, s.clock⟩)) (pieces : List (List UInt8)) :
    ∃ directory, s.steps? p (pieces.map (.write d)) =
        some { s.setPhase d (.fetching file (body ++ pieces.flatten)) with directory := directory } ∧
      directory.find? name = some (.file ⟨file, body ++ pieces.flatten, s.clock⟩) ∧ s.directory.SameFolders directory := by
  induction pieces generalizing s body with
  | nil =>
    refine ⟨s.directory, ?_, by simpa using hf, .refl _⟩
    rw [List.flatten_nil, List.append_nil, setPhase_self hd]
    rfl
  | cons piece pieces ih =>
    have hwrite : s.step? p (.write d piece) = some _ := write?_eq_some_iff.mpr ⟨url, file, body, hd, rfl⟩
    have hf' : (s.directory.write file body.length piece s.clock).find? name = some (.file ⟨file, body ++ piece, s.clock⟩) := by
      rw [Directory.find?_write, hf, Option.map_some, Entry.written]
      by_cases hempty : piece = []
      · simp [hempty]
      · simp [hempty, Directory.overwrite_length]
    obtain ⟨directory, hrun, hfind, hsame⟩ := ih (s := { s.setPhase d (.fetching file (body ++ piece)) with
      directory := s.directory.write file body.length piece s.clock }) (getElem?_setPhase_self hd _) hf'
    rw [List.append_assoc] at hrun hfind
    refine ⟨directory, steps?_cons hwrite (hrun.trans ?_), hfind, .trans (.of_write _ _ _ _ _) hsame⟩
    exact congrArg (fun m : State => some { m with directory := directory }) (setPhase_setPhase s d _ _)

/-- An admitted download opens its temporary file and asks the source, which writes the image in pieces. -/
theorem State.fetched (hd : s.downloads[d]? = some ⟨url, .admitted⟩) {opened : Directory}
    (hc : s.directory.create? s.freshFile s.clock (tempName (fileName url)) = some (opened, file)) (pieces : List (List UInt8)) :
    ∃ directory, s.steps? p (fetching d pieces) = some { s.setPhase d (.fetching file pieces.flatten) with
        directory := directory, freshFile := s.freshFile + 1, asked := s.asked ++ [url] } ∧
      directory.find? (tempName (fileName url)) = some (.file ⟨file, pieces.flatten, s.clock⟩) ∧
      s.directory.SameFolders directory := by
  have hcreate : s.step? p (.create d) = some _ := create?_eq_some_iff.mpr ⟨url, hd, Or.inl ⟨_, _, hc, rfl⟩⟩
  have hask : State.step? p { s.setPhase d (.opened file) with directory := opened, freshFile := s.freshFile + 1 } (.ask d) =
      some _ := ask?_eq_some_iff.mpr ⟨url, file, getElem?_setPhase_self hd _, rfl⟩
  have hd' := getElem?_setPhase_self (getElem?_setPhase_self hd (.opened file)) (.fetching file [])
  obtain ⟨directory, hrun, hfind, hsame⟩ := written (p := p) (s := { (s.setPhase d (.opened file)).setPhase d (.fetching file []) with
    directory := opened, freshFile := s.freshFile + 1, asked := s.asked ++ [url] }) hd' (Directory.find?_create hc).1 pieces
  refine ⟨directory, steps?_cons hcreate (steps?_cons hask (hrun.trans ?_)), hfind, .trans (.of_create hc) hsame⟩
  exact congrArg (fun m : State => some { m with
    directory := directory, freshFile := s.freshFile + 1, asked := s.asked ++ [url] })
    ((setPhase_setPhase _ d _ _).trans (setPhase_setPhase s d _ _))

/-- The state after a download that was about to leave has left. -/
def State.leave (s : State) (d : Nat) (url : String) : State :=
  { s.setPhase d .ended with free := s.free + 1, markers := s.markers.filter (·.1 ≠ url) }

theorem State.marker?_leave (s : State) (d : Nat) (url : String) : (s.leave d url).marker? url = none := by
  simp [marker?, leave]

/-- A download that is about to leave gives its permit back, takes its marker down and tells those who wait. -/
theorem State.left (hd : s.downloads[d]? = some ⟨url, .leaving⟩) :
    s.steps? p [.release d, .unmark d, .signal d] = some (s.leave d url) := by
  have hreleased := getElem?_setPhase_self hd .released
  have hunmarked := getElem?_setPhase_self hreleased .unmarked
  have hrelease : s.step? p (.release d) = some _ := release?_eq_some_iff.mpr ⟨phase?_eq_some_iff.mpr ⟨url, hd⟩, rfl⟩
  have hunmark : State.step? p { s.setPhase d .released with free := s.free + 1 } (.unmark d) = some _ :=
    unmark?_eq_some_iff.mpr ⟨url, hreleased, rfl⟩
  refine steps?_cons hrelease (steps?_cons hunmark (steps?_singleton ?_))
  refine signal?_eq_some_iff.mpr ⟨phase?_eq_some_iff.mpr ⟨url, hunmarked⟩, ?_⟩
  simp only [leave, setPhase, List.modify_modify_eq]
  rfl

/-- A download whose image is fetched gives it its name, if this stands for no directory, and leaves. -/
theorem State.placed {f : FileData} (hd : s.downloads[d]? = some ⟨url, .fetched body⟩)
    (hf : s.directory.find? (tempName (fileName url)) = some (.file f)) (ha : s.directory.Admits (fileName url)) :
    ∃ directory, s.steps? p [.rename d, .release d, .unmark d, .signal d] =
        some { s.leave d url with directory := directory } ∧
      directory.find? (fileName url) = some (.file f) ∧ directory.find? (tempName (fileName url)) = none := by
  obtain ⟨directory, hr⟩ := Directory.exists_rename hf ha
  obtain ⟨hgone, hnew, -, -⟩ := Directory.find?_rename (fileName_ne_tempName url _).symm hr
  have hrename : s.step? p (.rename d) = some _ := rename?_eq_some_iff.mpr ⟨url, body, hd, Or.inl ⟨directory, hr, rfl⟩⟩
  have hleft := left (p := p) (s := { s.setPhase d .leaving with directory := directory }) (getElem?_setPhase_self hd _)
  refine ⟨directory, steps?_cons hrename (hleft.trans ?_), hnew.trans hf, hgone⟩
  simp only [leave, setPhase, List.modify_modify_eq]
  rfl

/-- A download that has failed removes its temporary file and leaves. -/
theorem State.discarded {f : FileData} (hd : s.downloads[d]? = some ⟨url, .cleaning⟩)
    (hf : s.directory.find? (tempName (fileName url)) = some (.file f)) :
    s.steps? p [.clean d, .release d, .unmark d, .signal d] =
      some { s.leave d url with directory := s.directory.erase (tempName (fileName url)) } := by
  have hclean : s.step? p (.clean d) = some _ := clean?_eq_some_iff.mpr ⟨url, hd, rfl⟩
  rw [Directory.removeFile?_of_file hf, Option.getD_some] at hclean
  have hleft := left (p := p) (s := { s.setPhase d .leaving with directory := s.directory.erase (tempName (fileName url)) })
    (getElem?_setPhase_self hd _)
  refine steps?_cons hclean (hleft.trans ?_)
  simp only [leave, setPhase, List.modify_modify_eq]
  rfl

/-! ## The whole way -/

/-- What an admitted download does whose source delivers the image in pieces. -/
def carrying (d : Nat) (pieces : List (List UInt8)) : List Event :=
  fetching d pieces ++ [.deliver d, .rename d, .release d, .unmark d, .signal d]

/-- An admitted download whose source delivers the image runs to its end if the image's two names stand for no directory, and the
image is then found under its name. -/
theorem State.carried (hd : s.downloads[d]? = some ⟨url, .admitted⟩) {opened : Directory}
    (hc : s.directory.create? s.freshFile s.clock (tempName (fileName url)) = some (opened, file))
    (ha : s.directory.Admits (fileName url)) (pieces : List (List UInt8)) :
    ∃ directory, s.steps? p (carrying d pieces) = some { s.leave d url with
        directory := directory, freshFile := s.freshFile + 1, asked := s.asked ++ [url]
        delivered := s.delivered ++ [(url, pieces.flatten)] } ∧
      directory.find? (fileName url) = some (.file ⟨file, pieces.flatten, s.clock⟩) ∧
      directory.find? (tempName (fileName url)) = none := by
  obtain ⟨directory, hfetched, hfind, hsame⟩ := fetched (p := p) hd hc pieces
  have hd' := getElem?_setPhase_self hd (.fetching file pieces.flatten)
  have hdeliver : State.step? p { s.setPhase d (.fetching file pieces.flatten) with
      directory := directory, freshFile := s.freshFile + 1, asked := s.asked ++ [url] } (.deliver d) = some _ :=
    deliver?_eq_some_iff.mpr ⟨url, file, pieces.flatten, hd', rfl⟩
  obtain ⟨final, hplaced, hnew, hgone⟩ := placed (p := p) (s := {
    (s.setPhase d (.fetching file pieces.flatten)).setPhase d (.fetched pieces.flatten) with
      directory := directory, freshFile := s.freshFile + 1, asked := s.asked ++ [url]
      delivered := s.delivered ++ [(url, pieces.flatten)] }) (getElem?_setPhase_self hd' _) hfind (hsame.admits ha)
  refine ⟨final, steps?_trans hfetched (steps?_cons hdeliver (hplaced.trans ?_)), hnew, hgone⟩
  simp only [leave, setPhase, List.modify_modify_eq]
  rfl

/-- Where a directory stands under the name of an image, an admitted download runs to its end too, but the image is given up. -/
theorem State.obstructed (hd : s.downloads[d]? = some ⟨url, .admitted⟩) {opened : Directory}
    (hc : s.directory.create? s.freshFile s.clock (tempName (fileName url)) = some (opened, file)) {modified : Int}
    {children : List (String × Entry)} (hobstacle : s.directory.find? (fileName url) = some (.directory modified children))
    (pieces : List (List UInt8)) :
    ∃ directory, s.steps? p (fetching d pieces ++ [.deliver d, .rename d, .clean d, .release d, .unmark d, .signal d]) =
        some { s.leave d url with
          directory := directory, freshFile := s.freshFile + 1, asked := s.asked ++ [url]
          delivered := s.delivered ++ [(url, pieces.flatten)] } ∧
      directory.find? (fileName url) = some (.directory modified children) ∧
      directory.find? (tempName (fileName url)) = none := by
  obtain ⟨directory, hfetched, hfind, hsame⟩ := fetched (p := p) hd hc pieces
  have hd' := getElem?_setPhase_self hd (.fetching file pieces.flatten)
  have hdeliver : State.step? p { s.setPhase d (.fetching file pieces.flatten) with
      directory := directory, freshFile := s.freshFile + 1, asked := s.asked ++ [url] } (.deliver d) = some _ :=
    deliver?_eq_some_iff.mpr ⟨url, file, pieces.flatten, hd', rfl⟩
  have hstands := (hsame _ _ _).mpr hobstacle
  have hd'' := getElem?_setPhase_self hd' (.fetched pieces.flatten)
  have hrename : State.step? p { (s.setPhase d (.fetching file pieces.flatten)).setPhase d (.fetched pieces.flatten) with
      directory := directory, freshFile := s.freshFile + 1, asked := s.asked ++ [url]
      delivered := s.delivered ++ [(url, pieces.flatten)] } (.rename d) = some _ :=
    rename?_eq_some_iff.mpr ⟨url, pieces.flatten, hd'', Or.inr ⟨Directory.rename?_eq_none hfind hstands, rfl⟩⟩
  have hdiscarded := discarded (p := p) (s := {
    ((s.setPhase d (.fetching file pieces.flatten)).setPhase d (.fetched pieces.flatten)).setPhase d .cleaning with
      directory := directory, freshFile := s.freshFile + 1, asked := s.asked ++ [url]
      delivered := s.delivered ++ [(url, pieces.flatten)] }) (getElem?_setPhase_self hd'' _) hfind
  refine ⟨_, steps?_trans hfetched (steps?_cons hdeliver (steps?_cons hrename (hdiscarded.trans ?_))),
    (Directory.find?_erase_of_ne _ (fileName_ne_tempName url _)).trans hstands, Directory.find?_erase_self _ _⟩
  simp only [leave, setPhase, List.modify_modify_eq]
  rfl

/-! ## Calls that are late -/

/-- What a call does that registers when the download `d` of its image is over, and what the download does that it begins. -/
def registeringLate (c next : Nat) : List Event :=
  .register c :: .queue next :: .acquire next :: fetching next []

/-- A call that has looked before a download of its image runs to its end, and registers after it, has the source asked again. -/
theorem State.asked_again {purpose : Purpose} {c : Nat} (hd : s.downloads[d]? = some ⟨url, .admitted⟩)
    (hthere : ∃ entries, s.directory = .present entries) (hfinal : s.directory.Admits (fileName url))
    (htemp : s.directory.Admits (tempName (fileName url))) (hc : s.calls[c]? = some ⟨purpose, url, .looked⟩) (hline : s.line = [])
    (hopen : s.closed = false) (pieces : List (List UInt8)) :
    ∃ x, s.steps? p (carrying d pieces ++ registeringLate c s.downloads.length) = some x ∧ x.asked = s.asked ++ [url, url] ∧
      x.clock = s.clock := by
  obtain ⟨opened, file, hcreate⟩ := Directory.exists_create hthere htemp s.freshFile s.clock
  obtain ⟨directory, hcarried, hfind, hgone⟩ := carried (p := p) hd hcreate hfinal pieces
  let ended : State := { s.leave d url with
    directory := directory, freshFile := s.freshFile + 1, asked := s.asked ++ [url], delivered := s.delivered ++ [(url, pieces.flatten)] }
  obtain ⟨stage, hregister⟩ : ∃ stage, ended.step? p (.register c) = some ((ended.spawn url).setStage c stage) :=
    ⟨_, register?_eq_some_iff.mpr ⟨purpose, url, hc, Or.inr ⟨marker?_leave s d url, rfl⟩⟩⟩
  let registered : State := (ended.spawn url).setStage c stage
  have hspawned : registered.downloads[s.downloads.length]? = some ⟨url, .spawned⟩ := by
    simp [registered, ended, spawn, setStage, leave, setPhase]
  have hadmitted := admitted (p := p) (n := s.free) hspawned hline hopen rfl
  obtain ⟨_, _, hcreate'⟩ := Directory.exists_create (Directory.exists_present_of_find? hfind) (.of_none hgone) (s.freshFile + 1) s.clock
  obtain ⟨_, hfetched, -⟩ := fetched (p := p) (s := { registered.setPhase s.downloads.length .admitted with free := s.free })
    (getElem?_setPhase_self hspawned _) hcreate' []
  refine ⟨_, steps?_trans hcarried (steps?_cons hregister (steps?_trans hadmitted hfetched)), ?_, rfl⟩
  exact List.append_assoc s.asked [url] [url]

end ChannelWatch.Cache
