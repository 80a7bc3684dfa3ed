import ChannelWatch.Cache.Step

/-!
# When a step is possible

For every step of a download, a call or a sweep: exactly when it is possible, and the state that it leads to. What follows
about the cache cites these statements and does not open the steps again.
-/

namespace ChannelWatch.Cache.State

variable {p : Policy} {s s' : State} {c d i : Nat}

/-! ## Places -/

/-- A download has a phase exactly when it is there. -/
theorem phase?_eq_some_iff {phase : Phase} : s.phase? d = some phase ↔ ∃ url, s.downloads[d]? = some ⟨url, phase⟩ := by
  unfold phase?
  rw [Option.map_eq_some_iff]
  constructor
  · rintro ⟨⟨url, _⟩, hd, rfl⟩
    exact ⟨url, hd⟩
  · rintro ⟨url, hd⟩
    exact ⟨_, hd, rfl⟩

/-- A download that is there is put into another phase, and its URL stays. -/
theorem downloads_setPhase {url : String} {old : Phase} (h : s.downloads[d]? = some ⟨url, old⟩) (new : Phase) :
    (s.setPhase d new).downloads = s.downloads.set d ⟨url, new⟩ := by
  apply List.ext_getElem?
  intro j
  obtain ⟨hlt, hd⟩ := List.getElem?_eq_some_iff.mp h
  simp only [setPhase, List.getElem?_modify, List.getElem?_set]
  by_cases hj : d = j
  · subst hj
    simp [hlt, hd]
  · simp [hj]

theorem phase?_setPhase_self {old : Phase} (h : s.phase? d = some old) (new : Phase) :
    (s.setPhase d new).phase? d = some new := by
  obtain ⟨url, hd⟩ := phase?_eq_some_iff.mp h
  have hlt : d < s.downloads.length := (List.getElem?_eq_some_iff.mp hd).1
  rw [phase?_eq_some_iff, downloads_setPhase hd]
  exact ⟨url, List.getElem?_set_self hlt⟩

/-- A call that is there is put at another stage, and its purpose and URL stay. -/
theorem calls_setStage {purpose : Purpose} {url : String} {old : Stage} (h : s.calls[c]? = some ⟨purpose, url, old⟩)
    (new : Stage) : (s.setStage c new).calls = s.calls.set c ⟨purpose, url, new⟩ := by
  apply List.ext_getElem?
  intro j
  obtain ⟨hlt, hc⟩ := List.getElem?_eq_some_iff.mp h
  simp only [setStage, List.getElem?_modify, List.getElem?_set]
  by_cases hj : c = j
  · subst hj
    simp [hlt, hc]
  · simp [hj]

theorem getElem?_setStage_self {purpose : Purpose} {url : String} {old : Stage}
    (h : s.calls[c]? = some ⟨purpose, url, old⟩) (new : Stage) :
    (s.setStage c new).calls[c]? = some ⟨purpose, url, new⟩ := by
  have hlt : c < s.calls.length := (List.getElem?_eq_some_iff.mp h).1
  rw [calls_setStage h, List.getElem?_set_self hlt]

/-! ## Calls -/

/-- A call registers after its look: it joins the download in flight for its image, or begins one. -/
theorem register?_eq_some_iff :
    s.register? c = some s' ↔ ∃ purpose url, s.calls[c]? = some ⟨purpose, url, .looked⟩ ∧
      ((∃ d, s.marker? url = some d ∧
          s' = s.setStage c (match purpose with | .resolve => .waiting d | .preload => .finished)) ∨
        (s.marker? url = none ∧
          s' = (s.spawn url).setStage c (match purpose with | .resolve => .ready | .preload => .finished))) := by
  unfold register?
  constructor
  · intro h
    split at h
    · rename_i purpose url hc
      refine ⟨purpose, url, hc, ?_⟩
      cases hm : s.marker? url <;> cases purpose <;> simp_all
    · nomatch h
  · rintro ⟨purpose, url, hc, ⟨d, hm, rfl⟩ | ⟨hm, rfl⟩⟩ <;> cases purpose <;> simp [hc, hm]

/-- A waiting call goes on exactly when its download is over. -/
theorem proceed?_eq_some_iff :
    s.proceed? c = some s' ↔ ∃ purpose url d, s.calls[c]? = some ⟨purpose, url, .waiting d⟩ ∧
      s.phase? d = some .ended ∧ s' = s.setStage c .ready := by
  unfold proceed?
  constructor
  · intro h
    split at h
    · rename_i purpose url d hc
      cases hd : s.phase? d with
      | none => simp [hd] at h
      | some phase =>
        simp only [hd] at h
        split at h
        · rename_i hdone
          have he : phase = .ended := by cases phase <;> simp_all [Phase.isDone]
          exact ⟨purpose, url, d, hc, he ▸ hd, (Option.some.inj h).symm⟩
        · nomatch h
    · nomatch h
  · rintro ⟨purpose, url, d, hc, hd, rfl⟩
    simp [hc, hd, Phase.isDone]

/-- A call that is ready looks again and is answered. -/
theorem lookAgain?_eq_some_iff :
    s.lookAgain? p c = some s' ↔ ∃ purpose url, s.calls[c]? = some ⟨purpose, url, .ready⟩ ∧
      s' = s.setStage c (.answered (p.refer url (s.look p url))) := by
  unfold lookAgain?
  constructor
  · intro h
    split at h
    · rename_i purpose url hc
      exact ⟨purpose, url, hc, (Option.some.inj h).symm⟩
    · nomatch h
  · rintro ⟨purpose, url, hc, rfl⟩
    simp [hc]

/-! ## Downloads -/

/-- A download that was spawned asks for a permit. -/
theorem queue?_eq_some_iff :
    s.queue? d = some s' ↔ s.phase? d = some .spawned ∧ s' = { s.setPhase d .queued with line := s.line ++ [d] } := by
  unfold queue?
  constructor
  · intro h
    split at h
    · rename_i hd
      exact ⟨hd, (Option.some.inj h).symm⟩
    · nomatch h
  · rintro ⟨hd, rfl⟩
    simp [hd]

/-- A queued download gives up exactly when the pool is closed. -/
theorem abandon?_eq_some_iff :
    s.abandon? d = some s' ↔ s.phase? d = some .queued ∧ s.closed = true ∧
      s' = { s.setPhase d .released with line := s.line.filter (· ≠ d) } := by
  unfold abandon?
  constructor
  · intro h
    split at h
    · rename_i hd
      split at h
      · rename_i hc
        exact ⟨hd, hc, (Option.some.inj h).symm⟩
      · nomatch h
    · nomatch h
  · rintro ⟨hd, hc, rfl⟩
    simp [hd, hc]

/-- A queued download is admitted exactly when it is the first of the line and a permit is free. -/
theorem acquire?_eq_some_iff :
    s.acquire? d = some s' ↔ s.phase? d = some .queued ∧ s.closed = false ∧
      ∃ line free, s.line = d :: line ∧ s.free = free + 1 ∧
        s' = { s.setPhase d .admitted with free := free, line := line } := by
  unfold acquire?
  constructor
  · intro h
    split at h
    · rename_i first line free hd hline hfree
      split at h
      · rename_i hfirst
        obtain ⟨rfl, hopen⟩ := hfirst
        exact ⟨hd, hopen, line, free, hline, hfree, (Option.some.inj h).symm⟩
      · nomatch h
    · nomatch h
  · rintro ⟨hd, hopen, line, free, hline, hfree, rfl⟩
    simp [hd, hline, hfree, hopen]

/-- An admitted download opens its temporary file, or is over if it cannot. -/
theorem create?_eq_some_iff :
    s.create? d = some s' ↔ ∃ url, s.downloads[d]? = some ⟨url, .admitted⟩ ∧
      ((∃ directory file, s.directory.create? s.freshFile s.clock (tempName (fileName url)) = some (directory, file) ∧
          s' = { s.setPhase d (.opened file) with directory := directory, freshFile := s.freshFile + 1 }) ∨
        (s.directory.create? s.freshFile s.clock (tempName (fileName url)) = none ∧ s' = s.setPhase d .leaving)) := by
  unfold create?
  constructor
  · intro h
    split at h
    · rename_i url hd
      refine ⟨url, hd, ?_⟩
      split at h
      · rename_i directory file hc
        exact Or.inl ⟨directory, file, hc, (Option.some.inj h).symm⟩
      · rename_i hc
        exact Or.inr ⟨hc, (Option.some.inj h).symm⟩
    · nomatch h
  · rintro ⟨url, hd, ⟨directory, file, hc, rfl⟩ | ⟨hc, rfl⟩⟩ <;> simp [hd, hc]

/-- A download whose temporary file is open asks the source. -/
theorem ask?_eq_some_iff :
    s.ask? d = some s' ↔ ∃ url file, s.downloads[d]? = some ⟨url, .opened file⟩ ∧
      s' = { s.setPhase d (.fetching file []) with asked := s.asked ++ [url] } := by
  unfold ask?
  constructor
  · intro h
    split at h
    · rename_i url file hd
      exact ⟨url, file, hd, (Option.some.inj h).symm⟩
    · nomatch h
  · rintro ⟨url, file, hd, rfl⟩
    simp [hd]

/-- The source writes only for a download that is fetching. -/
theorem write?_eq_some_iff {bytes : List UInt8} :
    s.write? d bytes = some s' ↔ ∃ url file body, s.downloads[d]? = some ⟨url, .fetching file body⟩ ∧
      s' = { s.setPhase d (.fetching file (body ++ bytes)) with
        directory := s.directory.write file body.length bytes s.clock } := by
  unfold write?
  constructor
  · intro h
    split at h
    · rename_i file body hd
      obtain ⟨url, hd⟩ := phase?_eq_some_iff.mp hd
      exact ⟨url, file, body, hd, (Option.some.inj h).symm⟩
    · nomatch h
  · rintro ⟨url, file, body, hd, rfl⟩
    simp [phase?_eq_some_iff.mpr ⟨url, hd⟩]

/-- The source delivers only for a download that is fetching. -/
theorem deliver?_eq_some_iff :
    s.deliver? d = some s' ↔ ∃ url file body, s.downloads[d]? = some ⟨url, .fetching file body⟩ ∧
      s' = { s.setPhase d (.fetched body) with delivered := s.delivered ++ [(url, body)] } := by
  unfold deliver?
  constructor
  · intro h
    split at h
    · rename_i url file body hd
      exact ⟨url, file, body, hd, (Option.some.inj h).symm⟩
    · nomatch h
  · rintro ⟨url, file, body, hd, rfl⟩
    simp [hd]

/-- The source fails only for a download that is fetching. -/
theorem fail?_eq_some_iff :
    s.fail? d = some s' ↔ ∃ url file body, s.downloads[d]? = some ⟨url, .fetching file body⟩ ∧
      s' = s.setPhase d .cleaning := by
  unfold fail?
  constructor
  · intro h
    split at h
    · rename_i file body hd
      obtain ⟨url, hd⟩ := phase?_eq_some_iff.mp hd
      exact ⟨url, file, body, hd, (Option.some.inj h).symm⟩
    · nomatch h
  · rintro ⟨url, file, body, hd, rfl⟩
    simp [phase?_eq_some_iff.mpr ⟨url, hd⟩]

/-- The source crashes only for a download that is fetching. -/
theorem crash?_eq_some_iff :
    s.crash? d = some s' ↔ ∃ url file body, s.downloads[d]? = some ⟨url, .fetching file body⟩ ∧
      s' = s.setPhase d .leaving := by
  unfold crash?
  constructor
  · intro h
    split at h
    · rename_i file body hd
      obtain ⟨url, hd⟩ := phase?_eq_some_iff.mp hd
      exact ⟨url, file, body, hd, (Option.some.inj h).symm⟩
    · nomatch h
  · rintro ⟨url, file, body, hd, rfl⟩
    simp [phase?_eq_some_iff.mpr ⟨url, hd⟩]

/-- A fetched image takes the place of the file before it, or is given up if it cannot. -/
theorem rename?_eq_some_iff :
    s.rename? d = some s' ↔ ∃ url body, s.downloads[d]? = some ⟨url, .fetched body⟩ ∧
      ((∃ directory, s.directory.rename? (tempName (fileName url)) (fileName url) = some directory ∧
          s' = { s.setPhase d .leaving with directory := directory }) ∨
        (s.directory.rename? (tempName (fileName url)) (fileName url) = none ∧ s' = s.setPhase d .cleaning)) := by
  unfold rename?
  constructor
  · intro h
    split at h
    · rename_i url body hd
      refine ⟨url, body, hd, ?_⟩
      split at h
      · rename_i directory hr
        exact Or.inl ⟨directory, hr, (Option.some.inj h).symm⟩
      · rename_i hr
        exact Or.inr ⟨hr, (Option.some.inj h).symm⟩
    · nomatch h
  · rintro ⟨url, body, hd, ⟨directory, hr, rfl⟩ | ⟨hr, rfl⟩⟩ <;> simp [hd, hr]

/-- A failed download removes its temporary file if it is there. -/
theorem clean?_eq_some_iff :
    s.clean? d = some s' ↔ ∃ url, s.downloads[d]? = some ⟨url, .cleaning⟩ ∧
      s' = { s.setPhase d .leaving with
        directory := (s.directory.removeFile? (tempName (fileName url))).getD s.directory } := by
  unfold clean?
  constructor
  · intro h
    split at h
    · rename_i url hd
      exact ⟨url, hd, (Option.some.inj h).symm⟩
    · nomatch h
  · rintro ⟨url, hd, rfl⟩
    simp [hd]

/-- A download that is leaving gives its permit back. -/
theorem release?_eq_some_iff :
    s.release? d = some s' ↔ s.phase? d = some .leaving ∧ s' = { s.setPhase d .released with free := s.free + 1 } := by
  unfold release?
  constructor
  · intro h
    split at h
    · rename_i hd
      exact ⟨hd, (Option.some.inj h).symm⟩
    · nomatch h
  · rintro ⟨hd, rfl⟩
    simp [hd]

/-- A download that has given its permit back takes its marker down. -/
theorem unmark?_eq_some_iff :
    s.unmark? d = some s' ↔ ∃ url, s.downloads[d]? = some ⟨url, .released⟩ ∧
      s' = { s.setPhase d .unmarked with markers := s.markers.filter (·.1 ≠ url) } := by
  unfold unmark?
  constructor
  · intro h
    split at h
    · rename_i url hd
      exact ⟨url, hd, (Option.some.inj h).symm⟩
    · nomatch h
  · rintro ⟨url, hd, rfl⟩
    simp [hd]

/-- A download without its marker tells those who wait for it. -/
theorem signal?_eq_some_iff : s.signal? d = some s' ↔ s.phase? d = some .unmarked ∧ s' = s.setPhase d .ended := by
  unfold signal?
  constructor
  · intro h
    split at h
    · rename_i hd
      exact ⟨hd, (Option.some.inj h).symm⟩
    · nomatch h
  · rintro ⟨hd, rfl⟩
    simp [hd]

/-! ## Sweeps -/

/-- A sweep takes the time once it has listed the names. -/
theorem takeTime?_eq_some_iff :
    s.takeTime? i = some s' ↔ ∃ names report, s.sweeps[i]? = some ⟨.listed names, report⟩ ∧
      s' = s.setSweep i ⟨.going s.clock names, report⟩ := by
  unfold takeTime?
  constructor
  · intro h
    split at h
    · rename_i names report hi
      exact ⟨names, report, hi, (Option.some.inj h).symm⟩
    · nomatch h
  · rintro ⟨names, report, hi, rfl⟩
    simp [hi]

/-- A sweep is over when no name is left. It looks at the next one otherwise: an expired file is to be removed, anything else
is passed over. -/
theorem inspect?_eq_some_iff :
    s.inspect? p i = some s' ↔ ∃ now report,
      (s.sweeps[i]? = some ⟨.going now [], report⟩ ∧ s' = s.setSweep i ⟨.over, report⟩) ∨
      ∃ name names, s.sweeps[i]? = some ⟨.going now (name :: names), report⟩ ∧
        ((∃ f, s.directory.file? name = some f ∧ isExpired p.ttl now f.modified = true ∧
            s' = s.setSweep i ⟨.removing now names name f.content.length, report⟩) ∨
          ((∀ f, s.directory.file? name = some f → isExpired p.ttl now f.modified = false) ∧
            s' = s.setSweep i ⟨.going now names, report⟩)) := by
  unfold inspect?
  constructor
  · intro h
    split at h
    · rename_i now report hi
      exact ⟨now, report, Or.inl ⟨hi, (Option.some.inj h).symm⟩⟩
    · rename_i now name names report hi
      refine ⟨now, report, Or.inr ⟨name, names, hi, ?_⟩⟩
      split at h
      · rename_i f hf
        split at h
        · rename_i hx
          exact Or.inl ⟨f, hf, hx, (Option.some.inj h).symm⟩
        · rename_i hx
          refine Or.inr ⟨fun g hg => ?_, (Option.some.inj h).symm⟩
          obtain rfl := Option.some.inj (hf.symm.trans hg)
          exact Bool.eq_false_iff.mpr hx
      · rename_i hf
        refine Or.inr ⟨fun g hg => ?_, (Option.some.inj h).symm⟩
        nomatch hf.symm.trans hg
    · nomatch h
  · rintro ⟨now, report, ⟨hi, rfl⟩ | ⟨name, names, hi, ⟨f, hf, hx, rfl⟩ | ⟨hx, rfl⟩⟩⟩
    · simp [hi]
    · simp [hi, hf, hx]
    · cases hf : s.directory.file? name with
      | none => simp [hi, hf]
      | some f => simp [hi, hf, hx f hf]

theorem takeTime?_eq_setSweep (h : s.takeTime? i = some s') : ∃ sweep, s' = s.setSweep i sweep := by
  obtain ⟨_, _, -, rfl⟩ := takeTime?_eq_some_iff.mp h
  exact ⟨_, rfl⟩

theorem inspect?_eq_setSweep (h : s.inspect? p i = some s') : ∃ sweep, s' = s.setSweep i sweep := by
  obtain ⟨_, _, ⟨-, rfl⟩ | ⟨_, _, -, ⟨_, -, -, rfl⟩ | ⟨-, rfl⟩⟩⟩ := inspect?_eq_some_iff.mp h
  · exact ⟨_, rfl⟩
  · exact ⟨_, rfl⟩
  · exact ⟨_, rfl⟩

/-- A sweep removes the file it has found expired, or passes it over if it is gone. -/
theorem remove?_eq_some_iff :
    s.remove? i = some s' ↔ ∃ now names name size report,
      s.sweeps[i]? = some ⟨.removing now names name size, report⟩ ∧
      ((∃ directory, s.directory.removeFile? name = some directory ∧
          s' = { s.setSweep i ⟨.going now names, ⟨report.files + 1, report.bytes + size⟩⟩ with directory := directory }) ∨
        (s.directory.removeFile? name = none ∧ s' = s.setSweep i ⟨.going now names, report⟩)) := by
  unfold remove?
  constructor
  · intro h
    split at h
    · rename_i now names name size report hi
      refine ⟨now, names, name, size, report, hi, ?_⟩
      split at h
      · rename_i directory hr
        exact Or.inl ⟨directory, hr, (Option.some.inj h).symm⟩
      · rename_i hr
        exact Or.inr ⟨hr, (Option.some.inj h).symm⟩
    · nomatch h
  · rintro ⟨now, names, name, size, report, hi, ⟨directory, hr, rfl⟩ | ⟨hr, rfl⟩⟩ <;> simp [hi, hr]

end ChannelWatch.Cache.State
