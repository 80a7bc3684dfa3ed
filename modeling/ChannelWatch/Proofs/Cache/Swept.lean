import ChannelWatch.Proofs.Cache.Attempts
import ChannelWatch.Proofs.Cache.Layout
import ChannelWatch.Proofs.Cache.Resolved
import ChannelWatch.Proofs.Cache.Sweeps

/-!
# A sweep of a directory at rest

A sweep that nothing else interferes with removes exactly the expired files of the directory and reports what it has removed
(`sweep_exact`). It is seen round by round, where a round is a look at the next name with the removal that may follow from it
(`State.Sweeping.round`).
-/

namespace ChannelWatch.Cache

variable {p : Policy} {s t : State} {i : Nat} {now : Int} {report : SweepReport}

/-! ## What is expired -/

/-- The entry is a file that is older than the time to live; one from the future has no age, and a directory is never expired. -/
def Entry.isExpired (ttl : Nat) (now : Int) : Entry → Bool
  | .file f => State.isExpired ttl now f.modified
  | .directory _ _ => false

/-- How many bytes a file holds. -/
def Entry.size : Entry → Nat
  | .file f => f.content.length
  | .directory _ _ => 0

/-- The report on the removal of some entries after an earlier report. -/
def SweepReport.add (report : SweepReport) (removed : List (String × Entry)) : SweepReport :=
  ⟨report.files + removed.length, report.bytes + (removed.map (·.2.size)).sum⟩

theorem SweepReport.add_append (report : SweepReport) (first second : List (String × Entry)) :
    report.add (first ++ second) = (report.add first).add second := by
  simp only [add, List.length_append, List.map_append, List.sum_append, Nat.add_assoc]

/-- An expired entry is not fresh. -/
theorem Entry.not_isFresh_of_isExpired {ttl : Nat} {entry : Entry} (h : entry.isExpired ttl now = true) :
    ¬entry.IsFresh ttl now := by
  cases entry with
  | directory => nomatch h
  | file f =>
    have hold := State.isExpired_iff.mp h
    rintro ⟨-, hyoung⟩
    exact absurd hold (Int.not_lt.mpr (Int.le_of_lt hyoung))

namespace Directory

variable {d : Directory} {entries kept rest : List (String × Entry)} {name : String} {entry : Entry}

/-- Where names differ, a name stands for an entry exactly if the directory has this entry under it. -/
theorem NamesDiffer.find?_eq_some_iff (h : d.NamesDiffer) : d.find? name = some entry ↔ (name, entry) ∈ d.entries := by
  refine ⟨fun hf => ?_, h.find?_of_mem⟩
  obtain ⟨⟨name', entry⟩, hfind, rfl⟩ := Option.map_eq_some_iff.mp hf
  have hname : name' = name := by simpa using List.find?_some hfind
  exact hname ▸ List.mem_of_find?_eq_some hfind

theorem NamesDiffer.sublist (h : (present entries).NamesDiffer) (hrest : rest.Sublist entries) :
    (present rest).NamesDiffer :=
  List.Nodup.sublist (hrest.map _) h

theorem NamesDiffer.find?_filter (h : (present entries).NamesDiffer) (keep : Entry → Bool) (name : String) :
    (present (entries.filter fun x => keep x.2)).find? name = ((present entries).find? name).filter keep := by
  ext entry
  rw [(h.sublist List.filter_sublist).find?_eq_some_iff, Option.filter_eq_some_iff, h.find?_eq_some_iff]
  exact List.mem_filter

/-- Where names differ, erasing a name takes away one entry. -/
theorem NamesDiffer.erase_append_cons (h : (present (kept ++ (name, entry) :: rest)).NamesDiffer) :
    (present (kept ++ (name, entry) :: rest)).erase name = present (kept ++ rest) := by
  have hnodup : (kept.map (·.1) ++ name :: rest.map (·.1)).Nodup := by
    have := h
    rw [NamesDiffer, Directory.entries, List.map_append, List.map_cons] at this
    exact this
  have hname : name ∉ (kept ++ rest).map (·.1) := by
    rw [List.map_append]
    exact (List.nodup_cons.mp (List.nodup_middle.mp hnodup)).1
  have hothers : (kept ++ rest).filter (·.1 ≠ name) = kept ++ rest :=
    List.filter_eq_self.mpr fun x hx => decide_eq_true fun heq => hname (heq ▸ List.mem_map_of_mem hx)
  rw [← hothers, List.filter_append, Directory.erase, List.filter_append, List.filter_cons_of_neg (by simp)]

end Directory

/-! ## Rounds -/

theorem State.getElem?_setSweep_self {old : Sweep} (h : s.sweeps[i]? = some old) (sweep : Sweep) :
    (s.setSweep i sweep).sweeps[i]? = some sweep :=
  List.getElem?_set_self (List.getElem?_eq_some_iff.mp h).1

/-- A sweep of the cache `s` has come to `t`: some names are still to be looked at, and some entries are left. -/
structure State.Sweeping (s : State) (i : Nat) (names : List String) (report : SweepReport)
    (entries : List (String × Entry)) (t : State) : Prop where
  clock : t.clock = s.clock
  markers : t.markers = s.markers
  directory : t.directory = .present entries
  stage : t.sweeps[i]? = some ⟨.going s.clock names, report⟩

namespace State.Sweeping

variable {kept rest : List (String × Entry)} {names : List String} {name : String} {entry : Entry}

/-- A sweep begins with all the names of the directory. -/
theorem start {entries : List (String × Entry)} (p : Policy) (hd : s.directory = .present entries) :
    s.Sweeping s.sweeps.length (entries.map (·.1)) ⟨0, 0⟩ entries (s.attempt p [.sweep, .takeTime s.sweeps.length]) := by
  let begun : State := { s with sweeps := s.sweeps ++ [⟨.listed (entries.map (·.1)), ⟨0, 0⟩⟩] }
  have hlist : s.directory.list = .ok (entries.map (·.1)) := by rw [hd, Directory.list]
  have hbegin : s.step? p .sweep = some begun := by rw [step?, beginSweep, hlist]
  have hlisted : begun.sweeps[s.sweeps.length]? = some ⟨.listed (entries.map (·.1)), ⟨0, 0⟩⟩ := by
    rw [getElem?_append_singleton, if_pos rfl]
  have htime : begun.step? p (.takeTime s.sweeps.length) = some _ := takeTime?_eq_some_iff.mpr ⟨_, _, hlisted, rfl⟩
  rw [attempt, hbegin, Option.getD_some, attempt, htime, Option.getD_some, attempt]
  exact ⟨rfl, rfl, hd, getElem?_setSweep_self hlisted _⟩

/-- What is not expired is passed over. -/
theorem pass (h : s.Sweeping i (name :: names) report (kept ++ (name, entry) :: rest) t)
    (hn : (Directory.present (kept ++ (name, entry) :: rest)).NamesDiffer) (hx : entry.isExpired p.ttl s.clock = false) :
    s.Sweeping i names report (kept ++ (name, entry) :: rest) (t.attempt p [.inspect i, .remove i]) := by
  have hfind : t.directory.find? name = some entry := by
    rw [h.directory]
    exact hn.find?_of_mem (List.mem_append_right _ List.mem_cons_self)
  have hyoung : ∀ f, t.directory.file? name = some f → isExpired p.ttl s.clock f.modified = false := by
    intro f hf
    obtain rfl := Option.some.inj (hfind.symm.trans (Directory.file?_eq_some_iff.mp hf))
    exact hx
  have hinspect : t.step? p (.inspect i) = some (t.setSweep i ⟨.going s.clock names, report⟩) :=
    inspect?_eq_some_iff.mpr ⟨s.clock, report, Or.inr ⟨name, names, h.stage, Or.inr ⟨hyoung, rfl⟩⟩⟩
  have hgoing := getElem?_setSweep_self h.stage ⟨.going s.clock names, report⟩
  have hremove : (t.setSweep i ⟨.going s.clock names, report⟩).step? p (.remove i) = none := by
    simp [step?, remove?, hgoing]
  rw [attempt, hinspect, Option.getD_some, attempt, hremove, Option.getD_none, attempt]
  exact ⟨h.clock, h.markers, h.directory, hgoing⟩

/-- An expired file is removed. -/
theorem remove (h : s.Sweeping i (name :: names) report (kept ++ (name, entry) :: rest) t)
    (hn : (Directory.present (kept ++ (name, entry) :: rest)).NamesDiffer) (hx : entry.isExpired p.ttl s.clock = true) :
    s.Sweeping i names (report.add [(name, entry)]) (kept ++ rest) (t.attempt p [.inspect i, .remove i]) := by
  cases entry with
  | directory modified children => nomatch hx
  | file f =>
    have hfind : t.directory.find? name = some (.file f) := by
      rw [h.directory]
      exact hn.find?_of_mem (List.mem_append_right _ List.mem_cons_self)
    have hinspect : t.step? p (.inspect i) =
        some (t.setSweep i ⟨.removing s.clock names name f.content.length, report⟩) :=
      inspect?_eq_some_iff.mpr ⟨s.clock, report, Or.inr ⟨name, names, h.stage, Or.inl
        ⟨f, Directory.file?_eq_some_iff.mpr hfind, hx, rfl⟩⟩⟩
    have hremoving := getElem?_setSweep_self h.stage ⟨.removing s.clock names name f.content.length, report⟩
    have hgone : t.directory.removeFile? name = some (.present (kept ++ rest)) := by
      rw [Directory.removeFile?, hfind, h.directory]
      exact congrArg some hn.erase_append_cons
    have hremove : (t.setSweep i ⟨.removing s.clock names name f.content.length, report⟩).step? p (.remove i) = some _ :=
      remove?_eq_some_iff.mpr ⟨_, _, _, _, _, hremoving, Or.inl ⟨_, hgone, rfl⟩⟩
    rw [attempt, hinspect, Option.getD_some, attempt, hremove, Option.getD_some, attempt]
    exact ⟨h.clock, h.markers, rfl, getElem?_setSweep_self hremoving _⟩

/-- The rounds of a sweep remove what is expired of the entries that it still has to look at, and leave the rest. -/
theorem rounds (h : s.Sweeping i (rest.map (·.1)) report (kept ++ rest) t)
    (hn : (Directory.present (kept ++ rest)).NamesDiffer) :
    s.Sweeping i [] (report.add (rest.filter (·.2.isExpired p.ttl s.clock)))
      (kept ++ rest.filter (!·.2.isExpired p.ttl s.clock))
      (t.attempt p (List.replicate rest.length [.inspect i, .remove i]).flatten) := by
  induction rest generalizing t kept report with
  | nil => exact h
  | cons x rest ih =>
    obtain ⟨name, entry⟩ := x
    rw [List.length_cons, List.replicate_succ, List.flatten_cons, attempt_append]
    cases hx : entry.isExpired p.ttl s.clock with
    | false =>
      have hround := h.pass hn hx
      have happend : kept ++ (name, entry) :: rest = kept ++ [(name, entry)] ++ rest := List.append_cons ..
      rw [happend] at hround hn
      have := ih hround hn
      simpa [hx] using this
    | true =>
      have hround := h.remove hn hx
      have hrest := hn.sublist ((List.Sublist.refl kept).append (List.sublist_cons_self (name, entry) rest))
      have := ih hround hrest
      rw [← SweepReport.add_append] at this
      simpa [hx] using this

/-- A sweep with no name left is over. -/
theorem finish {entries : List (String × Entry)} (h : s.Sweeping i [] report entries t) :
    (t.attempt p [.inspect i]).clock = s.clock ∧ (t.attempt p [.inspect i]).markers = s.markers ∧
      (t.attempt p [.inspect i]).directory = .present entries ∧
      (t.attempt p [.inspect i]).sweeps[i]? = some ⟨.over, report⟩ := by
  have hinspect : t.step? p (.inspect i) = some _ := inspect?_eq_some_iff.mpr ⟨_, _, Or.inl ⟨h.stage, rfl⟩⟩
  rw [attempt, hinspect, Option.getD_some, attempt]
  exact ⟨h.clock, h.markers, h.directory, getElem?_setSweep_self h.stage _⟩

end State.Sweeping

/-! ## The sweep -/

/-- A sweep begins, goes through as many rounds as there are names, and ends. -/
theorem State.sweepAll_snd (p : Policy) (s : State) : (s.sweepAll p).2 =
    ((s.attempt p [.sweep, .takeTime s.sweeps.length]).attempt p
      (List.replicate s.directory.entries.length [.inspect s.sweeps.length, .remove s.sweeps.length]).flatten).attempt p
        [.inspect s.sweeps.length] := by
  rw [← attempt_append, ← attempt_append]
  rfl

/-- What a sweep answers is read off where it stands at last. -/
theorem State.sweepAll_fst (p : Policy) (s : State) : (s.sweepAll p).1 =
    match (s.sweepAll p).2.sweeps[s.sweeps.length]? with
    | some ⟨.refused fault, _⟩ => .error fault
    | some ⟨_, report⟩ => .ok report
    | none => .ok ⟨0, 0⟩ := rfl

/-- A sweep of a directory that is there removes what is expired, reports it and leaves the rest. -/
theorem State.sweepAll_present {entries : List (String × Entry)} (p : Policy) (hd : s.directory = .present entries)
    (hn : (Directory.present entries).NamesDiffer) :
    (s.sweepAll p).1 = .ok (SweepReport.add ⟨0, 0⟩ (entries.filter (·.2.isExpired p.ttl s.clock))) ∧
      (s.sweepAll p).2.directory = .present (entries.filter (!·.2.isExpired p.ttl s.clock)) ∧
      (s.sweepAll p).2.clock = s.clock ∧ (s.sweepAll p).2.markers = s.markers := by
  have hlength : s.directory.entries.length = entries.length := by rw [hd, Directory.entries]
  have hstart : s.Sweeping s.sweeps.length (entries.map (·.1)) ⟨0, 0⟩ ([] ++ entries)
      (s.attempt p [.sweep, .takeTime s.sweeps.length]) := .start p hd
  obtain ⟨hclock, hmarkers, hdirectory, hsweep⟩ := (hstart.rounds (p := p) hn).finish (p := p)
  rw [← hlength, ← sweepAll_snd] at hclock hmarkers hdirectory hsweep
  refine ⟨?_, hdirectory, hclock, hmarkers⟩
  rw [sweepAll_fst, hsweep]

/-- A sweep of a directory that cannot be listed is refused with the reason, and changes nothing in it. -/
theorem State.sweepAll_refused {fault : IoFault} (p : Policy) (hd : s.directory.list = .error fault) :
    (s.sweepAll p).1 = .error fault ∧ (s.sweepAll p).2.directory = s.directory := by
  let begun : State := { s with sweeps := s.sweeps ++ [⟨.refused fault, ⟨0, 0⟩⟩] }
  have hlength : s.directory.entries.length = 0 := by
    cases hdirectory : s.directory with
    | present entries =>
      rw [hdirectory] at hd
      nomatch hd
    | absent | obstructed => rfl
  have hbegin : s.step? p .sweep = some begun := by rw [step?, beginSweep, hd]
  have hrefused : begun.sweeps[s.sweeps.length]? = some ⟨.refused fault, ⟨0, 0⟩⟩ := by
    rw [getElem?_append_singleton, if_pos rfl]
  have htime : begun.step? p (.takeTime s.sweeps.length) = none := by simp [step?, takeTime?, hrefused]
  have hinspect : begun.step? p (.inspect s.sweeps.length) = none := by simp [step?, inspect?, hrefused]
  have hstart : s.attempt p [.sweep, .takeTime s.sweeps.length] = begun := by
    rw [attempt, hbegin, Option.getD_some, attempt, htime, Option.getD_none, attempt]
  have hswept : (s.sweepAll p).2 = begun := by
    rw [sweepAll_snd, hlength, hstart]
    show begun.attempt p [.inspect s.sweeps.length] = begun
    rw [attempt, hinspect, Option.getD_none, attempt]
  refine ⟨?_, by rw [hswept]⟩
  rw [sweepAll_fst, hswept, hrefused]

/-- After a sweep, a name stands for what it stood for, but for an expired file. -/
theorem State.find?_sweepAll {entries : List (String × Entry)} (p : Policy) (hd : s.directory = .present entries)
    (hn : (Directory.present entries).NamesDiffer) (name : String) : (s.sweepAll p).2.directory.find? name =
      (s.directory.find? name).filter (!·.isExpired p.ttl s.clock) := by
  rw [(sweepAll_present p hd hn).2.1, hd]
  exact hn.find?_filter (fun entry => !entry.isExpired p.ttl s.clock) name

/-- A second sweep at the same instant finds nothing to remove. -/
theorem State.sweepAll_sweepAll {entries : List (String × Entry)} (p : Policy) (hd : s.directory = .present entries)
    (hn : (Directory.present entries).NamesDiffer) : ((s.sweepAll p).2.sweepAll p).1 = .ok ⟨0, 0⟩ ∧
      ((s.sweepAll p).2.sweepAll p).2.directory = (s.sweepAll p).2.directory := by
  obtain ⟨-, hleft, hclock, -⟩ := sweepAll_present p hd hn
  obtain ⟨hreport', hleft', -⟩ := sweepAll_present p hleft (hn.sublist List.filter_sublist)
  have hnone : (entries.filter (!·.2.isExpired p.ttl s.clock)).filter (·.2.isExpired p.ttl s.clock) = [] := by
    simp [List.filter_filter]
  have hall : (entries.filter (!·.2.isExpired p.ttl s.clock)).filter (!·.2.isExpired p.ttl s.clock) =
      entries.filter (!·.2.isExpired p.ttl s.clock) := by
    simp [List.filter_filter]
  rw [hclock, hnone] at hreport'
  rw [hclock, hall, ← hleft] at hleft'
  exact ⟨hreport', hleft'⟩

/-- What a call would be answered with that finds a fresh file survives a sweep. -/
theorem State.resolved?_sweepAll_of_fresh {entries : List (String × Entry)} {url href : String}
    (hd : s.directory = .present entries) (hn : (Directory.present entries).NamesDiffer)
    (h : s.resolved? p url = some (.fresh href)) : (s.sweepAll p).2.resolved? p url = some (.fresh href) := by
  obtain ⟨-, -, hclock, -⟩ := sweepAll_present p hd hn
  obtain ⟨hu, hlook, hhref⟩ := resolved?_eq_fresh_iff.mp h
  obtain ⟨entry, hentry, hfresh⟩ := Directory.look_eq_fresh_iff.mp hlook
  have hkept : entry.isExpired p.ttl s.clock = false :=
    Bool.eq_false_iff.mpr fun hx => Entry.not_isFresh_of_isExpired hx hfresh
  refine resolved?_eq_fresh_iff.mpr ⟨hu, Directory.look_eq_fresh_iff.mpr ⟨entry, ?_, hclock ▸ hfresh⟩, hhref⟩
  rw [find?_sweepAll p hd hn, hentry, Option.filter_some_pos (by simp [hkept])]

/-- What a call would be answered with that finds a stale file survives a sweep unless this is expired. -/
theorem State.resolved?_sweepAll_of_stale {entries : List (String × Entry)} {url href : String}
    (hd : s.directory = .present entries) (hn : (Directory.present entries).NamesDiffer)
    (h : s.resolved? p url = some (.stale href)) : ∃ entry, s.directory.find? (nameFor url) = some entry ∧
      (s.sweepAll p).2.resolved? p url =
        some (if entry.isExpired p.ttl s.clock then .remote (Link.secure url) else .stale href) := by
  obtain ⟨-, -, hclock, hmarkers⟩ := sweepAll_present p hd hn
  obtain ⟨hu, hmarker, hlook, hhref⟩ := resolved?_eq_stale_iff.mp h
  obtain ⟨entry, hentry, hold⟩ := Directory.look_eq_stale_iff.mp hlook
  have hmarker' : (s.sweepAll p).2.marker? (Link.secure url) = none := by
    rw [marker?, hmarkers]
    exact hmarker
  refine ⟨entry, hentry, ?_⟩
  have hfind := find?_sweepAll p hd hn (fileName (Link.secure url))
  rw [hentry] at hfind
  cases hx : entry.isExpired p.ttl s.clock with
  | true =>
    refine resolved?_eq_remote_iff.mpr ⟨hu, hmarker', Directory.look_eq_absent_iff.mpr ?_, rfl⟩
    rw [hfind, Option.filter_some_neg (by simp [hx])]
  | false =>
    refine resolved?_eq_stale_iff.mpr ⟨hu, hmarker', Directory.look_eq_stale_iff.mpr ⟨entry, ?_, hclock ▸ hold⟩, hhref⟩
    rw [hfind, Option.filter_some_pos (by simp [hx])]

/-- What a sweep does to a directory that is there. -/
structure State.Swept (p : Policy) (s : State) (entries : List (String × Entry)) : Prop where
  /-- It reports how many files were expired and how many bytes they held. -/
  report : (s.sweepAll p).1 = .ok ⟨(entries.filter (·.2.isExpired p.ttl s.clock)).length,
    ((entries.filter (·.2.isExpired p.ttl s.clock)).map (·.2.size)).sum⟩
  /-- Everything else is left as it was. -/
  left : (s.sweepAll p).2.directory = .present (entries.filter (!·.2.isExpired p.ttl s.clock))
  /-- Another sweep at the same instant removes nothing. -/
  again : (s.sweepAll p).2.clock = s.clock ∧ ((s.sweepAll p).2.sweepAll p).1 = .ok ⟨0, 0⟩ ∧
    ((s.sweepAll p).2.sweepAll p).2.directory = (s.sweepAll p).2.directory
  /-- A call that would have been answered with a fresh file still is. -/
  fresh : ∀ url href, s.resolved? p url = some (.fresh href) → (s.sweepAll p).2.resolved? p url = some (.fresh href)
  /-- A call that would have been answered with a stale file is answered with the remote URL exactly if this was a file older than
  the time to live, and still with the stale file otherwise. -/
  stale : ∀ url href, s.resolved? p url = some (.stale href) →
    ((s.sweepAll p).2.resolved? p url = some (.remote (Link.secure url)) ↔
      ∃ f, s.directory.file? (nameFor url) = some f ∧ p.ttl < s.clock - f.modified) ∧
    ((s.sweepAll p).2.resolved? p url = some (.remote (Link.secure url)) ∨
      (s.sweepAll p).2.resolved? p url = some (.stale href))

theorem Directory.isExpired_iff {d : Directory} {name : String} {entry : Entry} {ttl : Nat} (h : d.find? name = some entry) :
    entry.isExpired ttl now = true ↔ ∃ f, d.file? name = some f ∧ ttl < now - f.modified := by
  simp only [file?_eq_some_iff, h, Option.some.injEq]
  cases entry with
  | file f => simp [Entry.isExpired, State.isExpired_iff]
  | directory => simp [Entry.isExpired]

/-- A sweep removes exactly the files that are older than the time to live, and reports how many they were and how many bytes they
held; whatever else there is stays as it was. It finds nothing more to remove at the same instant. No call is answered otherwise
after it than before, unless the stale file that it would have been answered with has been removed. A directory that is not there
is not swept. -/
theorem sweep_exact (p : Policy) (s : State) (hn : s.directory.NamesDiffer) :
    (∀ entries, s.directory = .present entries → s.Swept p entries) ∧
      (s.directory = .absent → (s.sweepAll p).1 = .error .notFound ∧ (s.sweepAll p).2.directory = .absent) ∧
      (s.directory = .obstructed → (s.sweepAll p).1 = .error .notADirectory ∧ (s.sweepAll p).2.directory = .obstructed) := by
  refine ⟨fun entries hd => ?_, fun hd => ?_, fun hd => ?_⟩
  · have hn : (Directory.present entries).NamesDiffer := hd ▸ hn
    obtain ⟨hreport, hleft, hclock, -⟩ := State.sweepAll_present p hd hn
    refine {
      report := by simpa only [SweepReport.add, Nat.zero_add] using hreport
      left := hleft
      again := ⟨hclock, State.sweepAll_sweepAll p hd hn⟩
      fresh := fun url href => State.resolved?_sweepAll_of_fresh hd hn
      stale := fun url href h => ?_ }
    obtain ⟨entry, hentry, hafter⟩ := State.resolved?_sweepAll_of_stale hd hn h
    rw [hafter, ← Directory.isExpired_iff hentry]
    cases entry.isExpired p.ttl s.clock <;> simp
  · have hlist : s.directory.list = .error .notFound := by rw [hd, Directory.list]
    obtain ⟨hfault, hsame⟩ := State.sweepAll_refused p hlist
    exact ⟨hfault, hsame.trans hd⟩
  · have hlist : s.directory.list = .error .notADirectory := by rw [hd, Directory.list]
    obtain ⟨hfault, hsame⟩ := State.sweepAll_refused p hlist
    exact ⟨hfault, hsame.trans hd⟩

/-- Of an expired image, a temporary file whose age is the time to live, a file from the future, a directory and an old file, the
first and the last are removed. -/
theorem sweep_exact_mixed :
    let final := fileName "https://a/b.png"
    let left : List (String × Entry) := [(tempName final, .file ⟨1, [4], 90⟩), ("note", .file ⟨2, [5, 6], 200⟩),
      ("sub", .directory 0 [("old", .file ⟨3, [7], 0⟩)])]
    let entries := (final, .file ⟨0, [1, 2, 3], 80⟩) :: left ++ [("old", .file ⟨4, [8], 0⟩)]
    let s := State.begun ⟨10, "/", 1⟩ (.present entries) 100
    s.directory.NamesDiffer ∧ (s.sweepAll ⟨10, "/", 1⟩).1 = .ok ⟨2, 4⟩ ∧
      (s.sweepAll ⟨10, "/", 1⟩).2.directory = .present left ∧
      s.resolved? ⟨10, "/", 1⟩ "http://a/b.png" = some (.stale ("/" ++ final)) ∧
      (s.sweepAll ⟨10, "/", 1⟩).2.resolved? ⟨10, "/", 1⟩ "http://a/b.png" = some (.remote "https://a/b.png") := by
  intro final left entries s
  have hlong : 32 ≤ final.toList.length := by simp [final, fileName, length_hexDigest]
  have hshort : ∀ name ∈ ["note", "sub", "old"], final ≠ name ∧ tempName final ≠ name := by
    intro name hname
    have hlength : name.toList.length < 32 := (by decide : ∀ name ∈ ["note", "sub", "old"], name.toList.length < 32) name hname
    refine ⟨fun h => absurd (h ▸ hlong) (Nat.not_le.mpr hlength), fun h => ?_⟩
    rw [← h, tempName, String.toList_append, List.length_append] at hlength
    omega
  have hdiffer : s.directory.NamesDiffer := by
    have hne : final ≠ tempName final := fileName_ne_tempName _ _
    have hnote := hshort "note" (by simp)
    have hsub := hshort "sub" (by simp)
    have hold := hshort "old" (by simp)
    show [final, tempName final, "note", "sub", "old"].Nodup
    simp [hne, hnote, hsub, hold]
  have swept := (sweep_exact ⟨10, "/", 1⟩ s hdiffer).1 _ rfl
  have hfind : s.directory.find? final = some (.file ⟨0, [1, 2, 3], 80⟩) := by
    rw [show s.directory = .present ((final, _) :: (left ++ _)) from rfl, Directory.find?_cons, if_pos rfl]
  have hstale : s.resolved? ⟨10, "/", 1⟩ "http://a/b.png" = some (.stale ("/" ++ final)) :=
    State.resolved?_eq_stale_iff.mpr ⟨by decide, rfl, Directory.look_eq_stale_iff.mpr ⟨_, hfind, by decide⟩, rfl⟩
  exact ⟨hdiffer, swept.report, swept.left, hstale, (swept.stale _ _ hstale).1.mpr
    ⟨_, Directory.file?_eq_some_iff.mpr hfind, by decide⟩⟩

end ChannelWatch.Cache
