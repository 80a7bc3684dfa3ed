import ChannelWatch.Proofs.Cache.Carried

/-!
# What a sweep removes

A sweep takes the time once, then looks at one name after another and removes what it has found expired in a step of its
own. It does not ask which downloads are running, so two things are to be told apart: what it saw when it looked, and what
it removes. They are the same file unless a download has put something under the name in between (`State.Puts`), and a
temporary file expires only if no download has put anything under its name for longer than the time to live.
-/

namespace ChannelWatch.Cache

variable {p : Policy} {s s' : State} {e : Event}

/-! ## What a step does to sweeps -/

/-- A sweep goes on from one stage to the next by an event of its own. -/
inductive SweepStage.Next (p : Policy) (s : State) (i : Nat) : Event → SweepStage → SweepStage → Prop
  | takeTime (names : List String) : Next p s i (.takeTime i) (.listed names) (.going s.clock names)
  | finish (now : Int) : Next p s i (.inspect i) (.going now []) .over
  | find (now : Int) (name : String) (names : List String) (f : FileData) (here : s.directory.file? name = some f)
      (expired : State.isExpired p.ttl now f.modified = true) :
      Next p s i (.inspect i) (.going now (name :: names)) (.removing now names name f.content.length)
  | pass (now : Int) (name : String) (names : List String)
      (kept : ∀ f, s.directory.file? name = some f → State.isExpired p.ttl now f.modified = false) :
      Next p s i (.inspect i) (.going now (name :: names)) (.going now names)
  | remove (now : Int) (names : List String) (name : String) (size : Nat) :
      Next p s i (.remove i) (.removing now names name size) (.going now names)

/-- The time that a sweep has taken. -/
def SweepStage.time? : SweepStage → Option Int
  | .going now _ | .removing now _ _ _ => some now
  | .listed _ | .over | .refused _ => none

/-- What a step does to the sweeps: nothing, a sweep begins, or a sweep goes on. -/
inductive SweepTurn (p : Policy) (s : State) : Event → State → Prop
  | idle {e : Event} {s' : State} (sweeps : s'.sweeps = s.sweeps) : SweepTurn p s e s'
  | begin {s' : State} (stage : SweepStage) (timeless : stage.time? = none)
      (sweeps : s'.sweeps = s.sweeps ++ [⟨stage, ⟨0, 0⟩⟩]) : SweepTurn p s .sweep s'
  | go {e : Event} {s' : State} (i : Nat) (old new : SweepStage) (before after : SweepReport)
      (here : s.sweeps[i]? = some ⟨old, before⟩) (next : SweepStage.Next p s i e old new)
      (sweeps : s'.sweeps = s.sweeps.set i ⟨new, after⟩) : SweepTurn p s e s'

/-- Every step takes its turn with the sweeps. -/
theorem sweepTurn_of_step? (h : s.step? p e = some s') : SweepTurn p s e s' := by
  cases e with
  | sweep =>
    obtain rfl := Option.some.inj h
    cases hl : s.directory.list with
    | ok names => exact .begin (.listed names) rfl (by simp only [State.beginSweep, hl])
    | error fault => exact .begin (.refused fault) rfl (by simp only [State.beginSweep, hl])
  | takeTime i =>
    obtain ⟨names, report, hi, rfl⟩ := State.takeTime?_eq_some_iff.mp h
    exact .go i _ _ report report hi (.takeTime names) rfl
  | inspect i =>
    obtain ⟨now, report, ⟨hi, rfl⟩ | ⟨name, names, hi, ⟨f, hf, hx, rfl⟩ | ⟨hx, rfl⟩⟩⟩ :=
      State.inspect?_eq_some_iff.mp h
    · exact .go i _ _ report report hi (.finish now) rfl
    · exact .go i _ _ report report hi (.find now name names f hf hx) rfl
    · exact .go i _ _ report report hi (.pass now name names hx) rfl
  | remove i =>
    obtain ⟨now, names, name, size, report, hi, ⟨_, -, rfl⟩ | ⟨-, rfl⟩⟩ := State.remove?_eq_some_iff.mp h
    · exact .go i _ _ report _ hi (.remove now names name size) rfl
    · exact .go i _ _ report _ hi (.remove now names name size) rfl
  | _ => exact .idle ((effect_of_step? h).sweeps rfl)

/-- A sweep that is at a stage after a step was at this stage before it, has just begun, or has just come to it. -/
theorem SweepTurn.cases_at (t : SweepTurn p s e s') {i : Nat} {stage : SweepStage} {report : SweepReport}
    (h : s'.sweeps[i]? = some ⟨stage, report⟩) :
    s.sweeps[i]? = some ⟨stage, report⟩ ∨ stage.time? = none ∨
      ∃ old before, s.sweeps[i]? = some ⟨old, before⟩ ∧ SweepStage.Next p s i e old stage := by
  cases t with
  | idle sweeps => exact Or.inl (sweeps ▸ h)
  | begin new timeless sweeps =>
    rw [sweeps, getElem?_append_singleton] at h
    split at h
    · obtain ⟨rfl, -⟩ := Sweep.mk.inj (Option.some.inj h)
      exact Or.inr (Or.inl timeless)
    · exact Or.inl h
  | go x old new before after here next sweeps =>
    rw [sweeps, getElem?_set_of_eq_some here] at h
    split at h
    · rename_i hx
      subst hx
      obtain ⟨rfl, -⟩ := Sweep.mk.inj (Option.some.inj h)
      exact Or.inr (Or.inr ⟨old, before, here, next⟩)
    · exact Or.inl h

/-! ## What a sweep has seen -/

theorem State.isExpired_iff {ttl : Nat} {now modified : Int} : isExpired ttl now modified = true ↔ ttl < now - modified := by
  simp only [isExpired, decide_eq_true_eq]
  omega

/-- The time that a sweep goes by is the one at which it took the time. -/
theorem State.taken_of_steps? {directory : Directory} {clock : Int} {events : List Event}
    (h : (State.begun p directory clock).steps? p events = some s) {i : Nat} {stage : SweepStage} {report : SweepReport}
    {now : Int} (hi : s.sweeps[i]? = some ⟨stage, report⟩) (hnow : stage.time? = some now) :
    ∃ m, (State.begun p directory clock).Happens p events m (.takeTime i) ∧ m.clock = now := by
  refine steps?_induction (motive := fun es m => ∀ i stage report, m.sweeps[i]? = some ⟨stage, report⟩ →
    ∀ now, stage.time? = some now → ∃ t, (State.begun p directory clock).Happens p es t (.takeTime i) ∧ t.clock = now)
    (fun _ _ _ hi => by simp [begun, initial] at hi) (fun es m e m' hes ih he => ?_) h i stage report hi now hnow
  intro i stage report hi now hnow
  rcases (sweepTurn_of_step? he).cases_at hi with hi | hnone | ⟨old, before, hold, next⟩
  · obtain ⟨t, ht, hclock⟩ := ih i stage report hi now hnow
    exact ⟨t, ht.append [e], hclock⟩
  · nomatch hnone.symm.trans hnow
  · -- the time of the stage before it is kept by every step but the one that takes it
    have kept : old.time? = some now → ∃ t, (State.begun p directory clock).Happens p (es ++ [e]) t (.takeTime i) ∧
        t.clock = now := fun hnow => by
      obtain ⟨t, ht, hclock⟩ := ih i old before hold now hnow
      exact ⟨t, ht.append [e], hclock⟩
    cases next with
    | takeTime names => exact ⟨m, happens_last hes, Option.some.inj hnow⟩
    | finish => nomatch hnow
    | find => exact kept hnow
    | pass => exact kept hnow
    | remove => exact kept hnow

/-- A sweep that is about to remove a file has looked at its name and found a file there that was expired by the time it
goes by. -/
theorem State.seen_of_steps? {directory : Directory} {clock : Int} {events : List Event}
    (h : (State.begun p directory clock).steps? p events = some s) {i : Nat} {now : Int} {names : List String}
    {name : String} {size : Nat} {report : SweepReport}
    (hi : s.sweeps[i]? = some ⟨.removing now names name size, report⟩) :
    ∃ before after m f old, events = before ++ .inspect i :: after ∧
      (State.begun p directory clock).steps? p before = some m ∧
      m.sweeps[i]? = some ⟨.going now (name :: names), old⟩ ∧ m.directory.file? name = some f ∧
      State.isExpired p.ttl now f.modified = true ∧ size = f.content.length := by
  refine steps?_induction (motive := fun es m => ∀ i now names name size report,
    m.sweeps[i]? = some ⟨.removing now names name size, report⟩ → ∃ before after t f old, es = before ++ .inspect i :: after ∧
      (State.begun p directory clock).steps? p before = some t ∧ t.sweeps[i]? = some ⟨.going now (name :: names), old⟩ ∧
      t.directory.file? name = some f ∧ State.isExpired p.ttl now f.modified = true ∧ size = f.content.length)
    (fun _ _ _ _ _ _ hi => by simp [begun, initial] at hi) (fun es m e m' hes ih he => ?_) h i now names name size report hi
  intro i now names name size report hi
  rcases (sweepTurn_of_step? he).cases_at hi with hi | hnone | ⟨old, before, hold, next⟩
  · obtain ⟨before, after, t, f, old, rfl, rest⟩ := ih i now names name size report hi
    exact ⟨before, after ++ [e], t, f, old, by simp, rest⟩
  · nomatch hnone
  · cases next with
    | find _ _ _ f hf hx => exact ⟨es, [], m, f, before, rfl, hes, hold, hf, hx, rfl⟩

/-! ## What is put under a name -/

/-- The event is a step of a download that may put a file under a name, or bytes into the file that is there: it opens its
temporary file, writes to the file that it holds open, or gives a fetched image its final name. -/
inductive State.Puts (s : State) (name : String) : Event → Prop
  | create (d : Nat) (url : String) (here : s.downloads[d]? = some ⟨url, .admitted⟩)
      (temp : name = tempName (fileName url)) : Puts s name (.create d)
  | write (d : Nat) (url : String) (file : Nat) (body bytes : List UInt8) (f : FileData)
      (here : s.downloads[d]? = some ⟨url, .fetching file body⟩) (there : s.directory.file? name = some f)
      (held : f.id = file) (nonempty : bytes ≠ []) : Puts s name (.write d bytes)
  | rename (d : Nat) (url : String) (body : List UInt8) (here : s.downloads[d]? = some ⟨url, .fetched body⟩)
      (final : name = fileName url) : Puts s name (.rename d)

/-- No download puts anything under a name in the course of a run from a state. -/
def State.Untouched (p : Policy) (s : State) (name : String) (events : List Event) : Prop :=
  ∀ m e, s.Happens p events m e → ¬m.Puts name e

/-- A step that puts nothing under a name leaves the file of this name as it was, or removes it. -/
theorem file?_of_step? (h : s.step? p e = some s') {name : String} (hn : ¬s.Puts name e) :
    s'.directory.file? name = s.directory.file? name ∨ s'.directory.file? name = none := by
  have gone : s'.directory.find? name = none → s'.directory.file? name = none := fun hnone => by
    rw [Directory.file?, hnone]
    rfl
  cases nameTurn_of_step? h name with
  | idle found => exact Or.inl (Directory.file?_congr found)
  | create d url file here temp => exact absurd (.create d url here temp) hn
  | write d url file body bytes here found =>
    refine Or.inl (Directory.file?_congr (found.trans ?_))
    cases hfind : s.directory.find? name with
    | none => rfl
    | some entry =>
      cases entry with
      | directory => rfl
      | file f =>
        have hw : ¬(f.id = file ∧ bytes ≠ []) := by
          rintro ⟨hid, hb⟩
          exact hn (.write d url file body bytes f here (Directory.file?_eq_some_iff.mpr hfind) hid hb)
        simp only [Option.map_some, Entry.written, if_neg hw]
  | rename d url body entry here final => exact absurd (.rename d url body here final) hn
  | vacate d url body here temp found | clean d url here temp found | remove i f there found => exact Or.inr (gone found)

/-- A file that is still there at the end of a run in which nothing was put under its name is the one from the start. -/
theorem State.Untouched.file? {events : List Event} {name : String} (hn : s.Untouched p name events)
    (h : s.steps? p events = some s') {f : FileData} (hf : s'.directory.file? name = some f) :
    s.directory.file? name = some f := by
  refine steps?_induction (motive := fun es m => s.Untouched p name es → ∀ f, m.directory.file? name = some f →
    s.directory.file? name = some f) (fun _ _ hf => hf) (fun es m e m' hes ih he hn f hf => ?_) h hn f hf
  have hput : ¬m.Puts name e := hn m e (happens_last hes)
  refine ih (fun t e' ht => hn t e' (ht.append [e])) f ?_
  rcases file?_of_step? he hput with hsame | hgone
  · rw [← hsame, hf]
  · nomatch hgone.symm.trans hf

/-- The file of a temporary name after something was put under the name was modified then. -/
theorem modified_of_puts (h : s.step? p e = some s') {name : String} (hp : s.Puts (tempName name) e) {f : FileData}
    (hf : s'.directory.file? (tempName name) = some f) : f.modified = s.clock := by
  cases hp with
  | create d url here temp =>
    obtain ⟨url', hd, ⟨directory, file, hc, rfl⟩ | ⟨hc, rfl⟩⟩ := State.create?_eq_some_iff.mp h
    · obtain ⟨rfl, -⟩ := Download.mk.inj (Option.some.inj (here.symm.trans hd))
      rw [temp] at hf
      have hnew := (Directory.find?_create hc).1
      obtain rfl := Entry.file.inj (Option.some.inj (hnew.symm.trans (Directory.file?_eq_some_iff.mp hf)))
      rfl
    · -- the name could not be opened, so no file is there
      obtain ⟨rfl, -⟩ := Download.mk.inj (Option.some.inj (here.symm.trans hd))
      rw [temp] at hf
      have hfind := Directory.file?_eq_some_iff.mp hf
      obtain ⟨entries, hentries⟩ := Directory.exists_present_of_find? hfind
      have hdir : s.directory = .present entries := hentries
      rw [show (s.setPhase d .leaving).directory = .present entries from hdir] at hfind
      simp [hdir, Directory.create?, hfind] at hc
  | write d url file body bytes g here there held nonempty =>
    obtain ⟨url', file', body', hd, rfl⟩ := State.write?_eq_some_iff.mp h
    obtain ⟨rfl, hphase⟩ := Download.mk.inj (Option.some.inj (here.symm.trans hd))
    obtain ⟨rfl, rfl⟩ := Phase.fetching.inj hphase
    have hfind := Directory.file?_eq_some_iff.mp hf
    simp only [Directory.find?_write, Directory.file?_eq_some_iff.mp there, Option.map_some, Entry.written, held,
      nonempty, ne_eq, not_false_eq_true, and_self, if_true, Option.some.injEq, Entry.file.injEq] at hfind
    rw [← hfind]
  | rename d url body here final => exact absurd final.symm (fileName_ne_tempName url name)

/-- The file of a temporary name is at least as new as anything that has been put under this name. -/
theorem State.clock_le_modified {events : List Event} (h : s.steps? p events = some s') {name : String} {m : State}
    (hm : s.Happens p events m e) (hp : m.Puts (tempName name) e) {f : FileData}
    (hf : s'.directory.file? (tempName name) = some f) : m.clock ≤ f.modified := by
  obtain ⟨m', after, he, hafter⟩ := hm.rest h
  -- what is put under the name later is newer still
  refine (steps?_induction (motive := fun _ t => m.clock ≤ t.clock ∧
    ∀ f, t.directory.file? (tempName name) = some f → m.clock ≤ f.modified)
    ⟨clock_le_of_step? he, fun f hf => Int.le_of_eq (modified_of_puts he hp hf).symm⟩
    (fun es t e' t' hes ih ht => ?_) hafter).2 f hf
  obtain ⟨hclock, hfiles⟩ := ih
  refine ⟨Int.le_trans hclock (clock_le_of_step? ht), fun f hf => ?_⟩
  by_cases hput : t.Puts (tempName name) e'
  · rw [modified_of_puts ht hput hf]
    exact hclock
  · rcases file?_of_step? ht hput with hsame | hgone
    · exact hfiles f (hsame ▸ hf)
    · nomatch hgone.symm.trans hf

/-! ## What a sweep removes -/

/-- Every file that a sweep removes has a name at which the sweep looked and found a file that was older than the time to live at the
time that the sweep had taken. If no download has put anything under the name since this look, the removed file is the one
that was found and is older than the time to live now; and if the name is a temporary one, no download has put anything under
it for longer than the time to live. -/
theorem sweep_removes_expired {directory : Directory} {clock : Int} {events : List Event}
    (h : (State.begun p directory clock).steps? p events = some s) {i : Nat} (hr : s.step? p (.remove i) = some s')
    {name : String} {g : FileData} (hg : s.directory.file? name = some g) (hgone : s'.directory.file? name = none) :
    ∃ before after t m f, events = before ++ .inspect i :: after ∧
      (State.begun p directory clock).Happens p before t (.takeTime i) ∧
      (State.begun p directory clock).steps? p before = some m ∧
      (∃ names report, m.sweeps[i]? = some ⟨.going t.clock (name :: names), report⟩) ∧ m.directory.file? name = some f ∧
      p.ttl < t.clock - f.modified ∧
      (m.Untouched p name (.inspect i :: after) → g = f ∧ p.ttl < s.clock - g.modified ∧
        ∀ final, name = tempName final → ∀ x e, (State.begun p directory clock).Happens p events x e → x.Puts name e →
          p.ttl < s.clock - x.clock) := by
  obtain ⟨now, names, other, size, report, hi, ⟨directory', hrem, rfl⟩ | ⟨-, rfl⟩⟩ := State.remove?_eq_some_iff.mp hr
  · -- the step removes the file of one name only, and this is the one
    obtain rfl : name = other := by
      apply Decidable.of_not_not
      intro hne
      have hsame := Directory.file?_congr ((Directory.find?_removeFile hrem).2 name hne)
      nomatch hgone.symm.trans (hsame.trans hg)
    obtain ⟨before, after, m, f, old, rfl, hm, hold, hf, hx, -⟩ := State.seen_of_steps? h hi
    obtain ⟨t, ht, rfl⟩ := State.taken_of_steps? hm hold rfl
    have hafter : m.steps? p (.inspect i :: after) = some s := by
      rw [State.steps?_append, hm, Option.bind_some] at h
      exact h
    refine ⟨before, after, t, m, f, rfl, ht, hm, ⟨names, old, hold⟩, hf, State.isExpired_iff.mp hx, fun hn => ?_⟩
    obtain rfl : g = f := Option.some.inj ((hn.file? hafter hg).symm.trans hf)
    have hold := State.isExpired_iff.mp hx
    have hclock : t.clock ≤ s.clock := (ht.append _).clock_le h
    refine ⟨rfl, by omega, fun final hfinal x e hxe hput => ?_⟩
    subst hfinal
    have hnew : x.clock ≤ g.modified := State.clock_le_modified h hxe hput hg
    omega
  · nomatch hgone.symm.trans hg

/-- A download whose source has written nothing for longer than the time to live is still running when a sweep removes its
temporary file. -/
theorem State.stalled_run : ∃ events s s', (State.begun ⟨10, "/", 1⟩ (.present []) 0).steps? ⟨10, "/", 1⟩ events = some s ∧
    s.step? ⟨10, "/", 1⟩ (.remove 0) = some s' ∧ s.downloads[0]? = some ⟨"https://a/b.png", .fetching 0 [1]⟩ ∧
    s.directory.file? (tempName (fileName "https://a/b.png")) = some ⟨0, [1], 0⟩ ∧
    s'.directory.file? (tempName (fileName "https://a/b.png")) = none := by
  let temp := tempName (fileName "https://a/b.png")
  let before : List Event := [.call .preload "https://a/b.png", .register 0, .queue 0, .acquire 0, .create 0, .ask 0, .write 0 [1],
    .tick 11, .sweep, .takeTime 0]
  let going : State := {
    clock := 11, directory := .present [(temp, .file ⟨0, [1], 0⟩)], freshFile := 1, closed := false, free := 0, line := []
    downloads := [⟨"https://a/b.png", .fetching 0 [1]⟩], markers := [("https://a/b.png", 0)]
    calls := [⟨.preload, "https://a/b.png", .finished⟩], sweeps := [⟨.going 11 [temp], ⟨0, 0⟩⟩]
    asked := ["https://a/b.png"], delivered := [] }
  have h1 : (State.begun ⟨10, "/", 1⟩ (.present []) 0).steps? ⟨10, "/", 1⟩ before = some going := rfl
  have hf : going.directory.file? temp = some ⟨0, [1], 0⟩ := by simp [going, Directory.file?, Entry.file?]
  have h2 : going.inspect? ⟨10, "/", 1⟩ 0 = some (going.setSweep 0 ⟨.removing 11 [] temp 1, ⟨0, 0⟩⟩) :=
    State.inspect?_eq_some_iff.mpr ⟨11, ⟨0, 0⟩, Or.inr ⟨temp, [], rfl, Or.inl ⟨_, hf, rfl, rfl⟩⟩⟩
  have h : (State.begun ⟨10, "/", 1⟩ (.present []) 0).steps? ⟨10, "/", 1⟩ (before ++ [.inspect 0]) = some _ :=
    State.steps?_trans h1 (State.steps?_singleton (e := .inspect 0) h2)
  have hr : going.directory.removeFile? temp = some (.present []) := by
    simp [going, Directory.removeFile?, Directory.erase]
  have h3 : (going.setSweep 0 ⟨.removing 11 [] temp 1, ⟨0, 0⟩⟩).remove? 0 = some _ :=
    State.remove?_eq_some_iff.mpr ⟨11, [], temp, 1, ⟨0, 0⟩, rfl, Or.inl ⟨_, hr, rfl⟩⟩
  exact ⟨_, _, _, h, h3, rfl, hf, rfl⟩

/-- The temporary file of a download that has stalled is removed, and nothing has been put under its name for longer than the
time to live. -/
theorem sweep_removes_expired_stalled : ∃ events s s' name g,
    (State.begun ⟨10, "/", 1⟩ (.present []) 0).steps? ⟨10, "/", 1⟩ events = some s ∧
      s.step? ⟨10, "/", 1⟩ (.remove 0) = some s' ∧ s.directory.file? name = some g ∧ s'.directory.file? name = none ∧
      ∃ before after t m f, events = before ++ .inspect 0 :: after ∧
        (State.begun ⟨10, "/", 1⟩ (.present []) 0).Happens ⟨10, "/", 1⟩ before t (.takeTime 0) ∧
        (State.begun ⟨10, "/", 1⟩ (.present []) 0).steps? ⟨10, "/", 1⟩ before = some m ∧
        (∃ names report, m.sweeps[0]? = some ⟨.going t.clock (name :: names), report⟩) ∧
        m.directory.file? name = some f ∧ (10 : Nat) < t.clock - f.modified ∧
        (m.Untouched ⟨10, "/", 1⟩ name (.inspect 0 :: after) → g = f ∧ (10 : Nat) < s.clock - g.modified ∧
          ∀ final, name = tempName final → ∀ x e,
            (State.begun ⟨10, "/", 1⟩ (.present []) 0).Happens ⟨10, "/", 1⟩ events x e → x.Puts name e →
            (10 : Nat) < s.clock - x.clock) := by
  obtain ⟨events, s, s', h, hr, -, hg, hgone⟩ := State.stalled_run
  exact ⟨events, s, s', _, _, h, hr, hg, hgone, sweep_removes_expired h hr hg hgone⟩

/-- A download gives a fresh image the name of the expired one that a sweep is about to remove. -/
theorem State.overtaken_run {url : String} (hsecure : Link.secure url = url) (himage : url ≠ "") : ∃ events s s' f,
    (State.begun ⟨10, "/", 1⟩ (.present [(fileName url, .file ⟨0, [9], 0⟩)]) 11).steps? ⟨10, "/", 1⟩ events = some s ∧
    s.step? ⟨10, "/", 1⟩ (.remove 0) = some s' ∧ s.directory.file? (fileName url) = some f ∧ s.clock - f.modified = 0 ∧
    s'.directory.file? (fileName url) = none := by
  let p : Policy := ⟨10, "/", 1⟩
  let before : Directory := .present [(fileName url, .file ⟨0, [9], 0⟩)]
  have hfound : before.find? (fileName url) = some (.file ⟨0, [9], 0⟩) := Directory.find?_insert_self [] _ _
  have hexpired : ¬(Entry.file ⟨0, [9], 0⟩).IsFresh 10 11 := by decide
  have hfinal : before.Admits (fileName url) := .of_file hfound
  have htemp : before.Admits (tempName (fileName url)) := by
    intro modified children
    simp [before, fileName_ne_tempName url (fileName url)]
  -- the sweep has found the image expired
  let going : State := { State.begun p before 11 with sweeps := [⟨.going 11 [fileName url], ⟨0, 0⟩⟩] }
  let removing := going.setSweep 0 ⟨.removing 11 [] (fileName url) 1, ⟨0, 0⟩⟩
  have hgoing : (State.begun p before 11).steps? p [.sweep, .takeTime 0] = some going := rfl
  have hremoving : going.inspect? p 0 = some removing :=
    inspect?_eq_some_iff.mpr ⟨11, ⟨0, 0⟩, Or.inr ⟨fileName url, [], rfl,
      Or.inl ⟨⟨0, [9], 0⟩, Directory.file?_eq_some_iff.mpr hfound, rfl, rfl⟩⟩⟩
  -- a download brings it in again
  have hstale : removing.look p url = .stale := Directory.look_eq_stale_iff.mpr ⟨_, hfound, hexpired⟩
  have hadmitted := preloaded_admitted (p := p) (s := removing) (n := 0) hsecure himage (hstale ▸ nofun) rfl rfl rfl rfl
  obtain ⟨_, _, hc⟩ := Directory.exists_create ⟨_, rfl⟩ htemp (removing.withAdmitted url 0).freshFile 11
  obtain ⟨after, hended, hnew, -⟩ := carried (p := p) (s := removing.withAdmitted url 0) (d := 0) rfl hc hfinal [[2]]
  have hremove : remove? { (removing.withAdmitted url 0).leave 0 url with
      directory := after, freshFile := (removing.withAdmitted url 0).freshFile + 1, asked := [url], delivered := [(url, [2])] } 0 = some _ :=
    remove?_eq_some_iff.mpr ⟨11, [], fileName url, 1, ⟨0, 0⟩, rfl, Or.inl ⟨_, Directory.removeFile?_of_file hnew, rfl⟩⟩
  refine ⟨_, _, _, _, steps?_trans hgoing (steps?_cons (e := .inspect 0) hremoving (steps?_trans hadmitted hended)), hremove,
    Directory.file?_eq_some_iff.mpr hnew, Int.sub_self _, ?_⟩
  rw [Directory.file?, Directory.find?_erase_self, Option.bind_none]

/-- Not every file that a sweep removes is out of use: one sweep removes the temporary file of a download that is still
fetching, and another one an image that has only just been fetched. -/
theorem sweep_removes_files_in_use :
    (∃ events s s' f body, (State.begun ⟨10, "/", 1⟩ (.present []) 0).steps? ⟨10, "/", 1⟩ events = some s ∧
      s.step? ⟨10, "/", 1⟩ (.remove 0) = some s' ∧ s.downloads[0]? = some ⟨"https://a/b.png", .fetching f.id body⟩ ∧
      s.directory.file? (tempName (fileName "https://a/b.png")) = some f ∧
      s'.directory.file? (tempName (fileName "https://a/b.png")) = none) ∧
    ∃ events s s' f,
      (State.begun ⟨10, "/", 1⟩ (.present [(fileName "https://a/b.png", .file ⟨0, [9], 0⟩)]) 11).steps? ⟨10, "/", 1⟩ events =
        some s ∧ s.step? ⟨10, "/", 1⟩ (.remove 0) = some s' ∧
      s.directory.file? (fileName "https://a/b.png") = some f ∧ s.clock - f.modified = 0 ∧
      s'.directory.file? (fileName "https://a/b.png") = none := by
  constructor
  · obtain ⟨events, s, s', h, hr, hd, hg, hgone⟩ := State.stalled_run
    exact ⟨events, s, s', _, _, h, hr, hd, hg, hgone⟩
  · exact State.overtaken_run rfl (by decide)

end ChannelWatch.Cache
