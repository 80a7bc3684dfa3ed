import ChannelWatch.Proofs.Cache.Orderly

/-!
# What downloads leave under the name of an image

From a moment on at which an image is not in flight, the file of the image holds the body of the last download that the source
has delivered, or is what it was at that moment if the source has delivered none (`State.renewed_of_steps?`): a download that
fails or crashes leaves the file alone, and one that is delivered never fails to replace it. This holds in an orderly directory
without sweeps. The invariant (`Renewing`) follows each download of the image through its phases: the events so far have written
what its temporary file holds (`Phase.Records`, `Directory.TempHolds`), and the one that was renamed last has left its body.
-/

namespace ChannelWatch.Cache

variable {p : Policy} {s s' : State} {e : Event} {events : List Event} {url : String} {d first : Nat}
  {before : Option Entry} {start : State}

/-! ## What is known of a download -/

/-- What the events so far have done for a download in a phase. -/
def Phase.Records (events : List Event) (d : Nat) : Phase → Prop
  | .spawned | .queued | .admitted | .opened _ => events.flatMap (·.written d) = [] ∧ Event.deliver d ∉ events
  | .fetching _ body => events.flatMap (·.written d) = body ∧ Event.deliver d ∉ events
  | .fetched body => events.flatMap (·.written d) = body ∧ Event.deliver d ∈ events
  | .cleaning => Event.deliver d ∉ events
  | .leaving | .released | .unmarked | .ended => True

/-- What stands under the temporary name of a download in a phase. -/
def Directory.TempHolds (directory : Directory) (temp : String) : Phase → Prop
  | .opened file => ∃ modified, directory.find? temp = some (.file ⟨file, [], modified⟩)
  | .fetching file body => ∃ modified, directory.find? temp = some (.file ⟨file, body, modified⟩)
  | .fetched body => ∃ f, directory.find? temp = some (.file f) ∧ f.content = body
  | _ => True

/-- The download has no more to do with the directory. -/
def Phase.isOver : Phase → Bool
  | .leaving | .released | .unmarked | .ended => true
  | _ => false

/-- The download of an image from the place `first` on was delivered and has done its work. -/
def State.HasReplaced (s : State) (url : String) (first : Nat) (events : List Event) (d : Nat) : Prop :=
  first ≤ d ∧ Event.deliver d ∈ events ∧ ∃ phase, s.downloads[d]? = some ⟨url, phase⟩ ∧ phase.isOver = true

/-- No download is for another image whose file has the same name. -/
def State.Alone (s : State) (url : String) : Prop :=
  ∀ image ∈ s.downloads.map (·.url), fileName image = fileName url → image = url

/-- What is known of the downloads of an image from the place `first` on, if `before` stood under the name of the image when
they were to begin. -/
structure State.Renewing (s : State) (url : String) (first : Nat) (before : Option Entry) (events : List Event) : Prop where
  /-- Those before them are no longer at work. -/
  done : ∀ d phase, d < first → s.downloads[d]? = some ⟨url, phase⟩ → phase.isMarked = false
  within : first ≤ s.downloads.length
  records : ∀ d phase, first ≤ d → s.downloads[d]? = some ⟨url, phase⟩ → phase.Records events d
  temps : ∀ d phase, first ≤ d → s.downloads[d]? = some ⟨url, phase⟩ →
    s.directory.TempHolds (tempName (fileName url)) phase
  final : s.directory.find? (fileName url) = before ∧ (∀ d, ¬s.HasReplaced url first events d) ∨
    ∃ d f, s.directory.file? (fileName url) = some f ∧ f.content = events.flatMap (·.written d) ∧
      s.HasReplaced url first events d ∧ ∀ d', s.HasReplaced url first events d' → d' ≤ d

/-! ## One step -/

/-- A step keeps the record of the download that takes it. A download that was delivered is not given up: this is left out. -/
theorem Phase.Records.next {old new : Phase} (h : old.Records events d) (next : Phase.Next d e old new)
    (hkeep : ∀ body, old = .fetched body → new ≠ .cleaning) : new.Records (events ++ [e]) d := by
  cases next with
  | abandon | refuse | crash | rename | clean | release | unmark | signal => trivial
  | queue | acquire | create | ask => exact ⟨by simpa [Event.written] using h.1, by simpa using h.2⟩
  | write file body bytes =>
    refine ⟨?_, by simpa using h.2⟩
    rw [List.flatMap_append, h.1, List.flatMap_singleton, Event.written, if_pos rfl]
  | deliver file body => exact ⟨by simpa [Event.written] using h.1, by simp⟩
  | fail => exact fun hmem => h.2 (by simpa using hmem)
  | keep body => exact absurd rfl (hkeep body rfl)

/-- The step of another download leaves a record as it is. -/
theorem Phase.Records.idle {phase : Phase} (h : phase.Records events d) (he : e.download? ≠ some d) :
    phase.Records (events ++ [e]) d := by
  have hwritten : (events ++ [e]).flatMap (·.written d) = events.flatMap (·.written d) := by
    rw [List.flatMap_append, List.flatMap_singleton, Event.written_of_ne he, List.append_nil]
  have hdeliver : Event.deliver d ∈ events ++ [e] ↔ Event.deliver d ∈ events := by
    rw [List.mem_append, List.mem_singleton]
    refine or_iff_left ?_
    rintro rfl
    exact he rfl
  unfold Records at h ⊢
  rw [hwritten, hdeliver]
  exact h

/-- Under a temporary name stands what stood there, as long as the same is found. -/
theorem Directory.TempHolds.of_find? {directory directory' : Directory} {temp : String} {phase : Phase}
    (h : directory.TempHolds temp phase) (hf : phase.hasTemp = true → directory'.find? temp = directory.find? temp) :
    directory'.TempHolds temp phase := by
  cases phase with
  | opened | fetching | fetched =>
    unfold TempHolds at h ⊢
    rw [hf rfl]
    exact h
  | _ => trivial

/-- A step keeps what stands under the temporary name of the download that takes it. -/
theorem Directory.TempHolds.next {old new : Phase} (h : s.directory.TempHolds (tempName (fileName url)) old)
    (hs : s.step? p e = some s') (here : s.downloads[d]? = some ⟨url, old⟩) (here' : s'.downloads[d]? = some ⟨url, new⟩)
    (next : Phase.Next d e old new) : s'.directory.TempHolds (tempName (fileName url)) new := by
  cases next with
  | create file => exact ⟨s.clock, (find?_create (State.create?_of_opened hs here').1).1⟩
  | ask file => exact h.of_find? fun _ => by rw [(files_of_step? hs rfl).1]
  | write file body bytes =>
    obtain ⟨image, file', body', himage, rfl⟩ := State.write?_eq_some_iff.mp hs
    obtain ⟨rfl, hphase⟩ := Download.mk.inj (Option.some.inj (here.symm.trans himage))
    obtain ⟨rfl, rfl⟩ := Phase.fetching.inj hphase
    obtain ⟨modified, hfile⟩ := h
    have hwrite := find?_write s.directory file body.length bytes s.clock (tempName (fileName url))
    rw [hfile, Option.map_some, Entry.written] at hwrite
    split at hwrite
    · exact ⟨s.clock, by rw [hwrite, overwrite_length]⟩
    · rename_i hnone
      obtain rfl : bytes = [] := Classical.not_not.mp fun hb => hnone ⟨rfl, hb⟩
      exact ⟨modified, by rw [hwrite, List.append_nil]⟩
  | deliver file body =>
    obtain ⟨image, _, _, -, rfl⟩ := State.deliver?_eq_some_iff.mp hs
    obtain ⟨modified, hfile⟩ := h
    exact ⟨_, hfile, rfl⟩
  | _ => trivial

namespace State.Renewing

/-- Only the downloads from the place `first` on are at work. -/
theorem le_of_isMarked (h : s.Renewing url first before events) {phase : Phase} (hd : s.downloads[d]? = some ⟨url, phase⟩)
    (hm : phase.isMarked = true) : first ≤ d := by
  refine Nat.le_of_not_lt fun hlt => ?_
  rw [h.done d phase hlt hd] at hm
  nomatch hm

/-- The fetched body replaces the file of the image: nothing can be in its way. -/
theorem rename (h : s.Renewing url first before events) (ha : s.directory.Admits (fileName url)) {body : List UInt8}
    (hd : s.downloads[d]? = some ⟨url, .fetched body⟩) (hs : s.step? p (.rename d) = some s') :
    s'.downloads[d]? = some ⟨url, .leaving⟩ ∧ ∃ f, s'.directory.file? (fileName url) = some f ∧ f.content = body := by
  obtain ⟨f, hf, hcontent⟩ := h.temps d _ (h.le_of_isMarked hd rfl) hd
  obtain ⟨renamed, hrenamed⟩ := Directory.exists_rename hf ha
  obtain ⟨image, body', himage, ⟨directory, hr, rfl⟩ | ⟨hnone, -⟩⟩ := rename?_eq_some_iff.mp hs
  · obtain ⟨rfl, -⟩ := Download.mk.inj (Option.some.inj (hd.symm.trans himage))
    refine ⟨by rw [downloads_setPhase himage, getElem?_set_of_eq_some himage, if_pos rfl], f, ?_, hcontent⟩
    have hnew := (Directory.find?_rename (fileName_ne_tempName url _).symm hr).2.1
    exact Directory.file?_eq_some_iff.mpr (hnew.trans hf)
  · obtain ⟨rfl, -⟩ := Download.mk.inj (Option.some.inj (hd.symm.trans himage))
    nomatch hnone.symm.trans hrenamed

/-- The downloads that were at work before are still none. -/
theorem done_step (h : s.Renewing url first before events) (hs : s.step? p e = some s') {phase : Phase} (hlt : d < first)
    (hd : s'.downloads[d]? = some ⟨url, phase⟩) : phase.isMarked = false := by
  rcases (turn_of_step? hs).download_came hd with ⟨old, hold, ⟨rfl, -⟩ | next⟩ | ⟨hlast, -, -⟩
  · exact h.done d phase hlt hold
  · exact next.isMarked_eq_false (h.done d old hlt hold)
  · have := h.within
    omega

/-- A fetched body that is renamed is not given up. -/
theorem ne_cleaning (h : s.Renewing url first before events) (ha : s.directory.Admits (fileName url))
    (hs : s.step? p e = some s') {old new : Phase} (hd : s.downloads[d]? = some ⟨url, old⟩)
    (hd' : s'.downloads[d]? = some ⟨url, new⟩) (next : Phase.Next d e old new) {body : List UInt8}
    (hold : old = .fetched body) : new ≠ .cleaning := by
  subst hold
  obtain rfl : e = .rename d := by cases next <;> rfl
  rintro rfl
  nomatch hd'.symm.trans (h.rename ha hd hs).1

/-- A step keeps the records of all downloads of the image, and begins that of a new one. -/
theorem records_step (h : s.Renewing url first before events) (ha : s.directory.Admits (fileName url))
    (hrun : start.steps? p events = some s) (hs : s.step? p e = some s') {phase : Phase} (hle : first ≤ d)
    (hd : s'.downloads[d]? = some ⟨url, phase⟩) : phase.Records (events ++ [e]) d := by
  rcases (turn_of_step? hs).download_came hd with ⟨old, hold, ⟨rfl, he⟩ | next⟩ | ⟨hlast, rfl, -⟩
  · exact (h.records d phase hle hold).idle he
  · exact (h.records d old hle hold).next next fun _ hbody => h.ne_cleaning ha hs hold hd next hbody
  · have hnone : s.downloads[d]? = none := List.getElem?_eq_none (Nat.le_of_eq hlast.symm)
    have hspawned : Phase.spawned.Records events d := unbegun_of_steps? hrun hnone
    exact hspawned.idle (download?_ne_of_none hs hnone)

/-- While a download of the image is at work, no other one is for which the same temporary name is used. -/
theorem fileName_ne_of_other (hr : Reachable p s) (hn : s.Alone url) {phase : Phase} (hd : s.downloads[d]? = some ⟨url, phase⟩)
    (hm : phase.isMarked = true) {other : Nat} (hne : other ≠ d) {image : String} {phase' : Phase}
    (ho : s.downloads[other]? = some ⟨image, phase'⟩) (hm' : phase'.isMarked = true) : fileName image ≠ fileName url := by
  intro hname
  obtain rfl := hn image (List.mem_map_of_mem (List.mem_of_getElem? ho)) hname
  exact hne (hr.bookkept.eq_of_isMarked ho hm' hd hm)

/-- A step keeps what stands under the temporary name of a download of the image. -/
theorem temps_step (h : s.Renewing url first before events) (hr : Reachable p s) (ho : s.Orderly) (hn : s.Alone url)
    (hs : s.step? p e = some s') (hremove : ∀ i, e ≠ .remove i) {phase : Phase} (hle : first ≤ d)
    (hd : s'.downloads[d]? = some ⟨url, phase⟩) : s'.directory.TempHolds (tempName (fileName url)) phase := by
  rcases (turn_of_step? hs).download_came hd with ⟨old, hold, ⟨rfl, he⟩ | next⟩ | ⟨-, rfl, -⟩
  · refine (h.temps d phase hle hold).of_find? fun htemp => ?_
    refine ho.find?_of_others hs (Or.inr rfl) hremove fun other image phase' hother himage hm => ?_
    have hmarked : phase.isMarked = true := by
      cases phase <;> first | rfl | nomatch htemp
    refine fileName_ne_of_other hr hn hold hmarked ?_ himage hm
    rintro rfl
    exact he hother
  · exact (h.temps d old hle hold).next hs hold hd next
  · trivial

/-- A step leaves what stands under the name of the image alone, unless it gives the name to a fetched body. -/
theorem find?_final (h : s.Renewing url first before events) (ho : s.Orderly) (hn : s.Alone url) (hs : s.step? p e = some s')
    (hremove : ∀ i, e ≠ .remove i) (hrename : ∀ d body, e = .rename d → s.downloads[d]? ≠ some ⟨url, .fetched body⟩) :
    s'.directory.find? (fileName url) = s.directory.find? (fileName url) := by
  have mine : ∀ {d : Nat} {image : String} {phase : Phase}, s.downloads[d]? = some ⟨image, phase⟩ →
      fileName url = fileName image → image = url :=
    fun hd hname => hn _ (List.mem_map_of_mem (List.mem_of_getElem? hd)) hname.symm
  cases nameTurn_of_step? hs (fileName url) with
  | idle found => exact found
  | create d image file here temp => exact absurd temp (fileName_ne_tempName url _)
  | write d image file body bytes here found =>
    rw [found]
    cases hf : s.directory.find? (fileName url) with
    | none => rfl
    | some entry =>
      cases entry with
      | directory => rfl
      | file f =>
        have hid : f.id ≠ file := by
          intro hid
          have hfile := Directory.file?_eq_some_iff.mpr hf
          rcases (ho.held d image _ file here rfl).2 _ f hfile hid with ht | hname
          · exact fileName_ne_tempName url _ ht
          · -- the temporary file has no second name
            obtain rfl := mine here hname
            obtain ⟨modified, htemp⟩ := h.temps d _ (h.le_of_isMarked here rfl) here
            exact fileName_ne_tempName _ _
              (ho.unlinked _ _ _ f (Directory.file?_eq_some_iff.mpr htemp) hfile hid)
        simp [Entry.written, hid]
  | rename d image body entry here final =>
    obtain rfl := mine here final
    exact absurd here (hrename d body rfl)
  | vacate d image body here temp => exact absurd temp (fileName_ne_tempName url _)
  | clean d image here temp => exact absurd temp (fileName_ne_tempName url _)
  | remove i => exact absurd rfl (hremove i)

/-- No step but the renaming of a fetched body makes a download one that has replaced the file, or one that has not. -/
theorem hasReplaced_step_iff (h : s.Renewing url first before events) (hs : s.step? p e = some s')
    (hrename : ∀ d body, e = .rename d → s.downloads[d]? ≠ some ⟨url, .fetched body⟩) :
    s'.HasReplaced url first (events ++ [e]) d ↔ s.HasReplaced url first events d := by
  have t := turn_of_step? hs
  -- in the phases in which a download can be over with its next step, it was not delivered
  have onward : ∀ {old new : Phase}, first ≤ d → s.downloads[d]? = some ⟨url, old⟩ → Phase.Next d e old new →
      (Event.deliver d ∈ events ++ [e] ∧ new.isOver = true ↔ Event.deliver d ∈ events ∧ old.isOver = true) := by
    intro old new hle hold next
    have hrecords := h.records d old hle hold
    cases next with
    | rename body | keep body => exact absurd hold (hrename d body rfl)
    | abandon | refuse | crash => simp [Phase.isOver, hrecords.2]
    | clean =>
      have hnot : Event.deliver d ∉ events := hrecords
      simp [Phase.isOver, hnot]
    | _ => simp [Phase.isOver]
  constructor
  · rintro ⟨hle, hmem, phase, hd, hover⟩
    rcases t.download_came hd with ⟨old, hold, ⟨rfl, he⟩ | next⟩ | ⟨-, rfl, -⟩
    · refine ⟨hle, ?_, phase, hold, hover⟩
      rcases List.mem_append.mp hmem with hmem | hlast
      · exact hmem
      · obtain rfl := List.mem_singleton.mp hlast
        exact absurd rfl he
    · obtain ⟨hmem', hover'⟩ := (onward hle hold next).mp ⟨hmem, hover⟩
      exact ⟨hle, hmem', old, hold, hover'⟩
    · nomatch hover
  · rintro ⟨hle, hmem, old, hold, hover⟩
    obtain ⟨phase, hd, rfl | next⟩ := t.download_stays hold
    · exact ⟨hle, List.mem_append_left _ hmem, phase, hd, hover⟩
    · obtain ⟨hmem', hover'⟩ := (onward hle hold next).mpr ⟨hmem, hover⟩
      exact ⟨hle, hmem', phase, hd, hover'⟩

/-- What has been written for a download that has replaced the file stays what it is. -/
theorem written_of_hasReplaced (hs : s.step? p e = some s') (hd : s.HasReplaced url first events d) :
    (events ++ [e]).flatMap (·.written d) = events.flatMap (·.written d) := by
  obtain ⟨-, -, phase, hphase, hover⟩ := hd
  have hnil : e.written d = [] := by
    refine written_eq_nil hs fun image phase' hd' => ?_
    rw [hphase] at hd'
    obtain ⟨rfl, rfl⟩ := Download.mk.inj (Option.some.inj hd')
    cases phase <;> first | rfl | nomatch hover
  rw [List.flatMap_append, List.flatMap_singleton, hnil, List.append_nil]

/-- The file of the image holds the body of the download that was renamed last. -/
theorem final_step (h : s.Renewing url first before events) (hr : Reachable p s) (ho : s.Orderly) (hn : s.Alone url)
    (ha : s.directory.Admits (fileName url)) (hs : s.step? p e = some s') (hremove : ∀ i, e ≠ .remove i) :
    s'.directory.find? (fileName url) = before ∧ (∀ d, ¬s'.HasReplaced url first (events ++ [e]) d) ∨
      ∃ d f, s'.directory.file? (fileName url) = some f ∧ f.content = (events ++ [e]).flatMap (·.written d) ∧
        s'.HasReplaced url first (events ++ [e]) d ∧ ∀ d', s'.HasReplaced url first (events ++ [e]) d' → d' ≤ d := by
  by_cases hrename : ∃ d body, e = .rename d ∧ s.downloads[d]? = some ⟨url, .fetched body⟩
  · obtain ⟨d, body, rfl, hd⟩ := hrename
    have hle := h.le_of_isMarked hd rfl
    obtain ⟨hwritten, hdelivered⟩ := h.records d _ hle hd
    obtain ⟨hd', f, hf, hcontent⟩ := h.rename ha hd hs
    refine Or.inr ⟨d, f, hf, ?_, ⟨hle, List.mem_append_left _ hdelivered, .leaving, hd', rfl⟩, ?_⟩
    · rw [hcontent, List.flatMap_append, hwritten]
      exact (List.append_nil body).symm
    · -- a later download of the image would have begun while this one was at work
      rintro d' ⟨-, -, phase, hphase, hover⟩
      refine Nat.le_of_not_lt fun hlt => ?_
      rcases (turn_of_step? hs).download_came hphase with ⟨old, hold, -⟩ | ⟨-, rfl, -⟩
      · nomatch hr.superseded hlt hd hold
      · nomatch hover
  · have hnot : ∀ d body, e = .rename d → s.downloads[d]? ≠ some ⟨url, .fetched body⟩ :=
      fun d body he hd => hrename ⟨d, body, he, hd⟩
    have hfind := h.find?_final ho hn hs hremove hnot
    rcases h.final with ⟨hbefore, hnone⟩ | ⟨d, f, hf, hcontent, hd, hlast⟩
    · exact Or.inl ⟨hfind.trans hbefore, fun d hd => hnone d ((h.hasReplaced_step_iff hs hnot).mp hd)⟩
    · refine Or.inr ⟨d, f, (Directory.file?_congr hfind).trans hf, ?_, (h.hasReplaced_step_iff hs hnot).mpr hd, ?_⟩
      · rw [hcontent, written_of_hasReplaced hs hd]
      · exact fun d' hd' => hlast d' ((h.hasReplaced_step_iff hs hnot).mp hd')

/-- Every step that is none of a sweep keeps what is known. -/
theorem step (h : s.Renewing url first before events) (hr : Reachable p s) (ho : s.Orderly) (hn : s.Alone url)
    (ha : s.directory.Admits (fileName url)) (hrun : start.steps? p events = some s) (hs : s.step? p e = some s')
    (hremove : ∀ i, e ≠ .remove i) : s'.Renewing url first before (events ++ [e]) where
  done := fun _ _ hlt hd => h.done_step hs hlt hd
  within := Nat.le_trans h.within (turn_of_step? hs).downloads_length_le
  records := fun _ _ hle hd => h.records_step ha hrun hs hle hd
  temps := fun _ _ hle hd => h.temps_step hr ho hn hs hremove hle hd
  final := h.final_step hr ho hn ha hs hremove

end State.Renewing

/-! ## Runs -/

/-- What stands under the name of an image after some events, where `before` stood before them: the downloads from the place
`first` on have begun with these events. -/
structure State.Renewed (s : State) (url : String) (first : Nat) (before : Option Entry) (events : List Event) : Prop where
  /-- The body of the last download that was delivered, once it has ended. -/
  latest : ∀ d, first ≤ d → s.downloads[d]? = some ⟨url, .ended⟩ → Event.deliver d ∈ events →
    (∀ d' phase, d < d' → s.downloads[d']? = some ⟨url, phase⟩ → Event.deliver d' ∉ events) →
    ∃ f, s.directory.file? (fileName url) = some f ∧ f.content = events.flatMap (·.written d)
  /-- What stood there before, if none was delivered. -/
  previous : (∀ d phase, first ≤ d → s.downloads[d]? = some ⟨url, phase⟩ → Event.deliver d ∉ events) →
    s.directory.find? (fileName url) = before

/-- What is known of the downloads of an image tells what stands under its name. -/
theorem State.Renewing.renewed (h : s.Renewing url first before events) : s.Renewed url first before events where
  latest := by
    intro d hle hd hmem hlater
    have hreplaced : s.HasReplaced url first events d := ⟨hle, hmem, .ended, hd, rfl⟩
    rcases h.final with ⟨-, hnone⟩ | ⟨last, f, hf, hcontent, ⟨-, hdelivered, phase, hlast, -⟩, hmax⟩
    · exact absurd hreplaced (hnone d)
    · have hsame : last = d := by
        refine Nat.le_antisymm (Nat.le_of_not_lt fun hlt => ?_) (hmax d hreplaced)
        exact hlater last phase hlt hlast hdelivered
      exact ⟨f, hf, hsame ▸ hcontent⟩
  previous := by
    intro hnone
    rcases h.final with ⟨hbefore, -⟩ | ⟨d, f, -, -, ⟨hle, hdelivered, phase, hd, -⟩, -⟩
    · exact hbefore
    · exact absurd hdelivered (hnone d phase hle hd)

/-- From a moment on at which an image is not in flight, its file holds the body of the last download that was delivered, or is
what it was if none was, as long as no sweep removes a file and no digests collide. -/
theorem State.renewed_of_steps? (hr : Reachable p s) (ho : s.Orderly) (ha : s.directory.Admits (fileName url))
    (hm : s.marker? url = none) (hs : s.steps? p events = some s') (hremove : ∀ i, Event.remove i ∉ events)
    (hn : s'.Alone url) : s'.Renewed url s.downloads.length (s.directory.find? (fileName url)) events := by
  refine Renewing.renewed (steps?_induction (motive := fun es m => (∀ i, Event.remove i ∉ es) → m.Alone url →
    m.Renewing url s.downloads.length (s.directory.find? (fileName url)) es) ?_ ?_ hs hremove hn)
  · intro _ _
    have hnone : ∀ d, s.downloads.length ≤ d → s.downloads[d]? = none := fun d hle => List.getElem?_eq_none hle
    refine ⟨fun d phase _ hd => Bool.eq_false_iff.mpr fun hmarked => ?_, Nat.le_refl _, ?_, ?_, Or.inl ⟨rfl, ?_⟩⟩
    · have hmem := (hr.bookkept.marker_iff url d).mpr ⟨phase, hd, hmarked⟩
      exact marker?_eq_none_iff.mp hm (List.mem_map_of_mem hmem)
    · intro d phase hle hd
      nomatch (hnone d hle).symm.trans hd
    · intro d phase hle hd
      nomatch (hnone d hle).symm.trans hd
    · rintro d ⟨-, hmem, -⟩
      nomatch hmem
  · intro es m e m' hes ih he hremove' hn'
    obtain ⟨hom, hkept⟩ := ho.steps? hes
    have hnm : m.Alone url := fun image himage => hn' image ((turn_of_step? he).urls_subset himage)
    have hem : ∀ i, e ≠ .remove i := by
      rintro i rfl
      exact hremove' i (List.mem_append_right _ (List.mem_singleton_self _))
    have hold := ih (fun i hi => hremove' i (List.mem_append_left _ hi)) hnm
    exact hold.step (hr.steps? hes) hom hnm (hkept.admits ha) hes he hem

end ChannelWatch.Cache
