import ChannelWatch.Cache.Rest
import ChannelWatch.Proofs.Cache.InFlight

/-!
# Waiting for downloads

No call waits in vain: a call that waits was led by a marker to one download, and can go on from the moment that this
download tells it is over. The download tells once, on every way out, and whatever happens to the marker or to later downloads
of the same image changes nothing for those who wait. A call that has waited begins no download.
-/

namespace ChannelWatch.Cache

variable {p : Policy} {s s' : State} {e : Event}

/-- Those who wait for a download have been told that it is over. -/
def State.isTold (s : State) (d : Nat) : Bool :=
  match s.phase? d with
  | some phase => phase.isDone
  | none => false

/-- Those who wait have been told exactly if the download has ended. -/
theorem State.isTold_iff {d : Nat} : s.isTold d = true ↔ s.phase? d = some .ended := by
  unfold isTold
  cases s.phase? d with
  | none => simp
  | some phase => cases phase <;> simp [Phase.isDone]

/-- The event tells those who wait for a download that it is over. -/
def Event.tells (d : Nat) : Event → Bool
  | .signal d' => d' = d
  | _ => false

theorem Event.tells_iff {d : Nat} : e.tells d = true ↔ e = .signal d := by
  cases e <;> simp [tells]

/-! ## The flag of a download -/

/-- A download ends by its signal alone. -/
theorem Phase.Next.eq_signal {d : Nat} {old : Phase} (h : Phase.Next d e old .ended) : e = .signal d ∧ old = .unmarked := by
  cases h
  exact ⟨rfl, rfl⟩

/-- A download that has ended does not go on. -/
theorem Phase.Next.ne_ended {d : Nat} {old new : Phase} (h : Phase.Next d e old new) : old ≠ .ended := by
  rintro rfl
  nomatch h

/-- The signal of a download comes when it has not told yet, and tells. -/
theorem State.isTold_signal {d : Nat} (h : s.step? p (.signal d) = some s') : s.isTold d = false ∧ s'.isTold d = true := by
  obtain ⟨hd, rfl⟩ := signal?_eq_some_iff.mp h
  exact ⟨by simp [isTold, hd, Phase.isDone], isTold_iff.mpr (phase?_setPhase_self hd .ended)⟩

/-- A step that is no signal of a download leaves its flag as it was. -/
theorem State.isTold_of_ne {d : Nat} (h : s.step? p e = some s') (hne : e ≠ .signal d) : s'.isTold d = s.isTold d := by
  have t := turn_of_step? h
  rw [Bool.eq_iff_iff, isTold_iff, isTold_iff, phase?_eq_some_iff, phase?_eq_some_iff]
  constructor
  · rintro ⟨url, hd'⟩
    rcases t.download_came hd' with ⟨old, hd, ⟨rfl, -⟩ | next⟩ | ⟨-, hqueued, -⟩
    · exact ⟨url, hd⟩
    · exact absurd next.eq_signal.1 hne
    · nomatch hqueued
  · rintro ⟨url, hd⟩
    obtain ⟨new, hd', rfl | next⟩ := t.download_stays hd
    · exact ⟨url, hd'⟩
    · exact absurd rfl next.ne_ended

/-- After a step a flag is set exactly if it was set before or the step is the download's signal. -/
theorem State.isTold_step_iff {d : Nat} (h : s.step? p e = some s') :
    s'.isTold d = true ↔ s.isTold d = true ∨ e = .signal d := by
  by_cases hs : e = .signal d
  · subst hs
    simp [isTold_signal h]
  · simp [isTold_of_ne h hs, hs]

theorem State.isTold_mono {es : List Event} {d : Nat} (h : s.steps? p es = some s') (hd : s.isTold d = true) :
    s'.isTold d = true :=
  steps?_induction (motive := fun _ m => m.isTold d = true) hd
    (fun _ _ _ _ _ hm he => (isTold_step_iff he).mpr (Or.inl hm)) h

/-- In a run from the beginning, a download has told once if its flag is set, and never if it is not. -/
theorem State.countP_tells {directory : Directory} {clock : Int} {es : List Event}
    (h : (State.begun p directory clock).steps? p es = some s) (d : Nat) :
    es.countP (·.tells d) = if s.isTold d then 1 else 0 := by
  refine steps?_induction (motive := fun es m => es.countP (·.tells d) = if m.isTold d then 1 else 0) rfl
    (fun es m e m' _ hm he => ?_) h
  rw [List.countP_append, hm, List.countP_singleton]
  by_cases hs : e = .signal d
  · subst hs
    obtain ⟨h1, h2⟩ := isTold_signal he
    simp [h1, h2, Event.tells]
  · have ht : e.tells d = false := by rw [← Bool.not_eq_true, Event.tells_iff]; exact hs
    simp [isTold_of_ne he hs, ht]

/-! ## What a waiting call waits for -/

/-- A call that waits is there for a reference and waits for a download of its own image. -/
def State.Linked (s : State) : Prop :=
  ∀ (c : Nat) (purpose : Purpose) (url : String) (d : Nat), s.calls[c]? = some ⟨purpose, url, .waiting d⟩ →
    purpose = .resolve ∧ ∃ phase, s.downloads[d]? = some ⟨url, phase⟩

/-- The first look never leaves a call waiting. -/
theorem State.firstStage_ne_waiting (s : State) (purpose : Purpose) (url : String) (d : Nat) :
    s.firstStage p purpose url ≠ .waiting d := by
  unfold firstStage
  split
  · cases purpose <;> exact nofun
  · exact nofun

/-- Every step keeps waiting calls with a download of their image: a call joins the download that the marker names. -/
theorem State.Linked.step (h : s.Linked) (hb : s.Bookkept) (hs : s.step? p e = some s') : s'.Linked := by
  have t := turn_of_step? hs
  have keep : ∀ {purpose : Purpose} {url : String} {d : Nat},
      (purpose = .resolve ∧ ∃ phase, s.downloads[d]? = some ⟨url, phase⟩) →
      purpose = .resolve ∧ ∃ phase, s'.downloads[d]? = some ⟨url, phase⟩ := by
    rintro purpose url d ⟨hp, phase, hd⟩
    obtain ⟨new, hd', -⟩ := t.download_stays hd
    exact ⟨hp, new, hd'⟩
  intro c purpose url d hc
  cases callTurn_of_step? hs with
  | idle calls => exact keep (h c purpose url d (calls ▸ hc))
  | call purpose' url' calls =>
    rw [calls, getElem?_append_singleton] at hc
    split at hc
    · exact absurd (congrArg Call.stage (Option.some.inj hc)) (s.firstStage_ne_waiting purpose' url' d)
    · exact keep (h c purpose url d hc)
  | go x purpose' url' old new hx next calls =>
    rw [calls, getElem?_set_of_eq_some hx] at hc
    split at hc
    · obtain ⟨rfl, rfl, rfl⟩ := Call.mk.inj (Option.some.inj hc)
      cases next with
      | join d hp hm =>
        obtain ⟨phase, hd, -⟩ := (hb.marker_iff _ _).mp (State.mem_markers_of_marker? hm)
        exact keep ⟨hp, phase, hd⟩
    · exact keep (h c purpose url d hc)

/-- In a reachable state every waiting call waits for a download of its image. -/
theorem Reachable.linked (h : Reachable p s) : s.Linked := by
  induction h with
  | begun directory clock => intro c purpose url d hc; nomatch hc
  | step hr he ih => exact ih.step hr.bookkept he
  | disturbed directory freshFile _ ih => exact ih

/-- A waiting call can go on exactly when its download has told. -/
theorem State.proceed?_isSome_iff {c d : Nat} {purpose : Purpose} {url : String}
    (h : s.calls[c]? = some ⟨purpose, url, .waiting d⟩) : (s.proceed? c).isSome = true ↔ s.isTold d = true := by
  rw [Option.isSome_iff_exists, isTold_iff]
  constructor
  · rintro ⟨s', hs⟩
    obtain ⟨_, _, _, hc, hd, -⟩ := proceed?_eq_some_iff.mp hs
    rw [h] at hc
    obtain ⟨-, -, hst⟩ := Call.mk.inj (Option.some.inj hc)
    rw [Stage.waiting.inj hst]
    exact hd
  · intro hd
    exact ⟨_, proceed?_eq_some_iff.mpr ⟨purpose, url, d, h, hd, rfl⟩⟩

/-- A call that waits goes on waiting for the same download until that has told, and then is answered after one more
look. -/
theorem State.waiting_later {es : List Event} {c d : Nat} {purpose : Purpose} {url : String}
    (h : s.steps? p es = some s') (hc : s.calls[c]? = some ⟨purpose, url, .waiting d⟩) :
    ∃ stage, s'.calls[c]? = some ⟨purpose, url, stage⟩ ∧
      (stage = .waiting d ∨ s'.isTold d = true ∧ (stage = .ready ∨ ∃ ref, stage = .answered ref)) := by
  refine steps?_induction (motive := fun _ m => ∃ stage, m.calls[c]? = some ⟨purpose, url, stage⟩ ∧
    (stage = .waiting d ∨ m.isTold d = true ∧ (stage = .ready ∨ ∃ ref, stage = .answered ref)))
    ⟨.waiting d, hc, Or.inl rfl⟩ (fun _ m e m' _ hm he => ?_) h
  obtain ⟨old, hold, hcases⟩ := hm
  obtain ⟨new, hnew, hstep⟩ := (callTurn_of_step? he).call_stays hold
  have told : m.isTold d = true → m'.isTold d = true := fun ht => (isTold_step_iff he).mpr (Or.inl ht)
  refine ⟨new, hnew, ?_⟩
  rcases hcases with rfl | ⟨ht, rfl | ⟨ref, rfl⟩⟩ <;> rcases hstep with rfl | next
  · exact Or.inl rfl
  · cases next with
    | proceed _ hd => exact Or.inr ⟨told (isTold_iff.mpr hd), Or.inl rfl⟩
  · exact Or.inr ⟨told ht, Or.inl rfl⟩
  · cases next with
    | answer => exact Or.inr ⟨told ht, Or.inr ⟨_, rfl⟩⟩
  · exact Or.inr ⟨told ht, Or.inr ⟨ref, rfl⟩⟩
  · nomatch next

/-! ## How far a call is from its answer -/

/-- How many steps a call has to take at most until it is answered. -/
def Stage.left : Stage → Nat
  | .looked => 3
  | .waiting _ => 2
  | .ready => 1
  | .answered _ | .finished => 0

theorem Stage.left_le (stage : Stage) : stage.left ≤ 3 := by
  cases stage <;> simp [left]

theorem Stage.Next.left_lt {c : Nat} {purpose : Purpose} {url : String} {old new : Stage}
    (h : Stage.Next p s c purpose url e old new) : new.left < old.left := by
  cases h <;> simp [left]

/-- The first look gives a call that is there for a reference either the reference or a reason to register. -/
theorem State.firstStage_resolve (s : State) (url : String) : s.firstStage p .resolve url ≠ .finished := by
  unfold firstStage
  split
  · exact nofun
  · exact nofun

/-- A call for a reference that has none yet can go on, unless it waits for a download that has not told. -/
theorem State.call_goes_on {c : Nat} {url : String} {stage : Stage} (hc : s.calls[c]? = some ⟨.resolve, url, stage⟩)
    (hf : stage ≠ .finished) (ha : s.answer? c = none) : (∃ d, stage = .waiting d ∧ s.isTold d = false) ∨
      ∃ e s' new, (∀ nanos, e ≠ .tick nanos) ∧ s.step? p e = some s' ∧ s'.calls[c]? = some ⟨.resolve, url, new⟩ ∧
        new.left < stage.left := by
  cases stage with
  | looked =>
    refine Or.inr ?_
    cases hm : s.marker? url with
    | none =>
      have hs : s.step? p (.register c) = some ((s.spawn url).setStage c .ready) :=
        register?_eq_some_iff.mpr ⟨.resolve, url, hc, Or.inr ⟨hm, rfl⟩⟩
      exact ⟨.register c, _, .ready, nofun, hs, getElem?_setStage_self (s := s.spawn url) hc _, by decide⟩
    | some d =>
      have hs : s.step? p (.register c) = some (s.setStage c (.waiting d)) :=
        register?_eq_some_iff.mpr ⟨.resolve, url, hc, Or.inl ⟨d, hm, rfl⟩⟩
      exact ⟨.register c, _, .waiting d, nofun, hs, getElem?_setStage_self hc _, Nat.lt_succ_self 2⟩
  | waiting d =>
    cases ht : s.isTold d with
    | false => exact Or.inl ⟨d, rfl, ht⟩
    | true =>
      have hs : s.step? p (.proceed c) = some (s.setStage c .ready) :=
        proceed?_eq_some_iff.mpr ⟨.resolve, url, d, hc, isTold_iff.mp ht, rfl⟩
      exact Or.inr ⟨.proceed c, _, .ready, nofun, hs, getElem?_setStage_self hc _, Nat.lt_succ_self 1⟩
  | ready =>
    have hs : s.step? p (.lookAgain c) = some (s.setStage c (.answered (p.refer url (s.look p url)))) :=
      lookAgain?_eq_some_iff.mpr ⟨.resolve, url, hc, rfl⟩
    exact Or.inr ⟨.lookAgain c, _, _, nofun, hs, getElem?_setStage_self hc _, Nat.lt_succ_self 0⟩
  | answered ref =>
    rw [answer?, hc] at ha
    nomatch ha
  | finished => exact absurd rfl hf

/-! ## Who begins downloads -/

/-- The call that begins a download with an event, if one does. -/
def Event.startedBy (s s' : State) : Event → List Nat
  | .register c => if s.downloads.length < s'.downloads.length then [c] else []
  | _ => []

/-- The calls that begin a download in a run, in the order in which they do. -/
def State.starters (p : Policy) : State → List Event → List Nat
  | _, [] => []
  | s, e :: es =>
    match s.step? p e with
    | some next => e.startedBy s next ++ starters p next es
    | none => []

/-- The starters of a run are those of its first part and those of the rest. -/
theorem State.starters_append {m : State} {es : List Event} (h : s.steps? p es = some m) (fs : List Event) :
    s.starters p (es ++ fs) = s.starters p es ++ m.starters p fs := by
  induction es generalizing s with
  | nil =>
    obtain rfl := Option.some.inj h
    rfl
  | cons e es ih =>
    simp only [steps?, Option.bind_eq_some_iff] at h
    obtain ⟨next, he, hes⟩ := h
    simp only [List.cons_append, starters, he, ih hes, List.append_assoc]

theorem State.starters_snoc {m m' : State} {es : List Event} (h : s.steps? p es = some m) (he : m.step? p e = some m') :
    s.starters p (es ++ [e]) = s.starters p es ++ e.startedBy m m' := by
  rw [starters_append h]
  simp only [starters, he, List.append_nil]

/-- A call that has registered, and does not wait for a download. -/
def Stage.isPast : Stage → Bool
  | .ready | .answered _ | .finished => true
  | .looked | .waiting _ => false

/-- A step begins a download exactly for a call that has looked and found no marker, and the call does not wait then. -/
theorem State.startedBy_cases (h : s.step? p e = some s') :
    (e.startedBy s s' = [] ∧ s'.downloads.length = s.downloads.length) ∨
      ∃ c purpose url stage, e.startedBy s s' = [c] ∧ s'.downloads.length = s.downloads.length + 1 ∧
        s.calls[c]? = some ⟨purpose, url, .looked⟩ ∧ s'.calls[c]? = some ⟨purpose, url, stage⟩ ∧ stage.isPast = true := by
  cases turn_of_step? h with
  | idle downloads _ =>
    have hl : s'.downloads.length = s.downloads.length := congrArg List.length downloads
    exact Or.inl ⟨by cases e <;> simp [Event.startedBy, hl], hl⟩
  | go d url old new _ _ downloads _ =>
    have hl : s'.downloads.length = s.downloads.length := by rw [downloads, List.length_set]
    exact Or.inl ⟨by cases e <;> simp [Event.startedBy, hl], hl⟩
  | begin c purpose url call unmarked downloads _ =>
    have hl : s'.downloads.length = s.downloads.length + 1 := by rw [downloads, List.length_append, List.length_singleton]
    obtain ⟨purpose', url', hc, ⟨d, hm, -⟩ | ⟨-, rfl⟩⟩ := State.register?_eq_some_iff.mp h
    · rw [call] at hc
      obtain ⟨rfl, rfl, -⟩ := Call.mk.inj (Option.some.inj hc)
      rw [unmarked] at hm
      nomatch hm
    · exact Or.inr ⟨c, purpose', url', _, by simp [Event.startedBy, hl], hl, hc,
        getElem?_setStage_self (s := s.spawn url') hc _, by cases purpose' <;> rfl⟩

/-- A call that does not wait and has registered stays so. -/
theorem State.isPast_step {c : Nat} {purpose : Purpose} {url : String} {stage : Stage} (h : s.step? p e = some s')
    (hc : s.calls[c]? = some ⟨purpose, url, stage⟩) (hp : stage.isPast = true) :
    ∃ stage, s'.calls[c]? = some ⟨purpose, url, stage⟩ ∧ stage.isPast = true := by
  obtain ⟨new, hnew, rfl | next⟩ := (callTurn_of_step? h).call_stays hc
  · exact ⟨new, hnew, hp⟩
  · refine ⟨new, hnew, ?_⟩
    cases next with
    | answer => rfl
    | _ => nomatch hp

/-- In a run from the beginning, every download was begun by a call, no call began two, and the calls that began one do not
wait. -/
theorem State.starters_begun {directory : Directory} {clock : Int} {es : List Event}
    (h : (State.begun p directory clock).steps? p es = some s) :
    ((State.begun p directory clock).starters p es).length = s.downloads.length ∧
      ((State.begun p directory clock).starters p es).Nodup ∧
      ∀ c ∈ (State.begun p directory clock).starters p es,
        ∃ purpose url stage, s.calls[c]? = some ⟨purpose, url, stage⟩ ∧ stage.isPast = true := by
  refine steps?_induction (motive := fun es m => ((State.begun p directory clock).starters p es).length = m.downloads.length ∧
    ((State.begun p directory clock).starters p es).Nodup ∧ ∀ c ∈ (State.begun p directory clock).starters p es,
      ∃ purpose url stage, m.calls[c]? = some ⟨purpose, url, stage⟩ ∧ stage.isPast = true)
    ⟨rfl, List.nodup_nil, fun c hc => nomatch hc⟩ (fun es m e m' hes hm he => ?_) h
  obtain ⟨hlen, hnd, hpast⟩ := hm
  rw [starters_snoc hes he]
  have kept : ∀ c ∈ (State.begun p directory clock).starters p es,
      ∃ purpose url stage, m'.calls[c]? = some ⟨purpose, url, stage⟩ ∧ stage.isPast = true := by
    intro c hc
    obtain ⟨purpose, url, stage, hcall, hp⟩ := hpast c hc
    exact ⟨purpose, url, isPast_step he hcall hp⟩
  rcases startedBy_cases he with ⟨hnone, hl⟩ | ⟨c, purpose, url, stage, hsome, hl, hlooked, hcall, hp⟩
  · rw [hnone, List.append_nil, hl]
    exact ⟨hlen, hnd, kept⟩
  · -- the starter has only looked so far, and those before it have registered
    have hnew : c ∉ (State.begun p directory clock).starters p es := by
      intro hc
      obtain ⟨_, _, _, hcall', hp'⟩ := hpast c hc
      rw [hlooked] at hcall'
      obtain ⟨-, -, rfl⟩ := Call.mk.inj (Option.some.inj hcall')
      nomatch hp'
    rw [hsome, List.length_append, hlen, hl, List.length_singleton]
    refine ⟨rfl, ?_, ?_⟩
    · rw [List.nodup_append]
      refine ⟨hnd, List.nodup_cons.mpr ⟨List.not_mem_nil, List.nodup_nil⟩, fun a ha b hb hab => hnew ?_⟩
      rw [List.mem_singleton] at hb
      rw [← hb, ← hab]
      exact ha
    · intro x hx
      rcases List.mem_append.mp hx with hx | hx
      · exact kept x hx
      · rw [List.mem_singleton] at hx
        subst hx
        exact ⟨purpose, url, stage, hcall, hp⟩

/-- A call that waits begins no download in what follows. -/
theorem State.not_mem_starters_of_waiting {es : List Event} {c d : Nat} {purpose : Purpose} {url : String}
    (h : s.steps? p es = some s') (hc : s.calls[c]? = some ⟨purpose, url, .waiting d⟩) : c ∉ s.starters p es := by
  refine steps?_induction (motive := fun es _ => c ∉ s.starters p es) (fun hn => nomatch hn)
    (fun es m e m' hes hm he => ?_) h
  rw [starters_snoc hes he, List.mem_append, not_or]
  refine ⟨hm, fun hmem => ?_⟩
  rcases startedBy_cases he with ⟨hnone, -⟩ | ⟨c', purpose', url', stage, hsome, -, hlooked, -, -⟩
  · rw [hnone] at hmem
    nomatch hmem
  · rw [hsome, List.mem_singleton] at hmem
    subst hmem
    obtain ⟨stage', hstage, hcases⟩ := waiting_later hes hc
    rw [hlooked] at hstage
    obtain ⟨-, -, rfl⟩ := Call.mk.inj (Option.some.inj hstage)
    rcases hcases with h' | ⟨-, h' | ⟨ref, h'⟩⟩ <;> nomatch h'

/-- A call that has waited at some time of a run from the beginning begins no download in the whole of it. -/
theorem State.not_mem_starters {directory : Directory} {clock : Int} {m : State} {before after : List Event} {c d : Nat}
    {purpose : Purpose} {url : String} (h : (State.begun p directory clock).steps? p (before ++ after) = some s)
    (hm : (State.begun p directory clock).steps? p before = some m) (hc : m.calls[c]? = some ⟨purpose, url, .waiting d⟩) :
    c ∉ (State.begun p directory clock).starters p (before ++ after) := by
  rw [steps?_append, hm] at h
  rw [starters_append hm, List.mem_append, not_or]
  refine ⟨fun hmem => ?_, not_mem_starters_of_waiting h hc⟩
  obtain ⟨_, _, _, hcall, hp⟩ := (starters_begun hm).2.2 c hmem
  rw [hc] at hcall
  obtain ⟨-, -, rfl⟩ := Call.mk.inj (Option.some.inj hcall)
  nomatch hp

/-! ## The ways out of a download -/

/-- The download needs neither the pool nor the source any more. -/
def Phase.isDeparting : Phase → Bool
  | .spawned | .queued | .admitted | .opened _ | .fetching _ _ => false
  | .fetched _ | .cleaning | .leaving | .released | .unmarked | .ended => true

/-- How many of the steps with which it departs a download has still to take at most; more for one that is at work. -/
def Phase.stepsLeft : Phase → Nat
  | .ended => 0
  | .unmarked => 1
  | .released => 2
  | .leaving => 3
  | .cleaning => 4
  | .fetched _ => 5
  | .spawned | .queued | .admitted | .opened _ | .fetching _ _ => 6

theorem Phase.stepsLeft_le_of_isDeparting {phase : Phase} (h : phase.isDeparting = true) : phase.stepsLeft ≤ 5 := by
  cases phase <;> simp [isDeparting, stepsLeft] at h ⊢

theorem Phase.Next.stepsLeft_lt {d : Nat} {old new : Phase} (h : Phase.Next d e old new) (hle : old.stepsLeft ≤ 5) :
    new.stepsLeft < old.stepsLeft := by
  cases h <;> simp [Phase.stepsLeft] at hle ⊢

/-- The step with which a departing download goes on in its phase can be taken. -/
theorem State.departs {d : Nat} {phase : Phase} (hd : s.phase? d = some phase) (hle : phase.stepsLeft ≤ 5)
    (he : (depart d)[5 - phase.stepsLeft]? = some e) :
    ∃ s' new, s.step? p e = some s' ∧ s'.phase? d = some new ∧ new ≠ phase := by
  obtain ⟨url, hu⟩ := phase?_eq_some_iff.mp hd
  cases phase with
  | spawned | queued | admitted | opened | fetching => simp [Phase.stepsLeft] at hle
  | fetched body =>
    obtain rfl := Option.some.inj he
    cases hr : s.directory.rename? (tempName (fileName url)) (fileName url) with
    | none =>
      exact ⟨_, .cleaning, rename?_eq_some_iff.mpr ⟨url, body, hu, Or.inr ⟨hr, rfl⟩⟩, phase?_setPhase_self hd _, nofun⟩
    | some directory =>
      exact ⟨_, .leaving, rename?_eq_some_iff.mpr ⟨url, body, hu, Or.inl ⟨directory, hr, rfl⟩⟩, phase?_setPhase_self hd _,
        nofun⟩
  | cleaning =>
    obtain rfl := Option.some.inj he
    exact ⟨_, .leaving, clean?_eq_some_iff.mpr ⟨url, hu, rfl⟩, phase?_setPhase_self hd _, nofun⟩
  | leaving =>
    obtain rfl := Option.some.inj he
    exact ⟨_, .released, release?_eq_some_iff.mpr ⟨hd, rfl⟩, phase?_setPhase_self hd _, nofun⟩
  | released =>
    obtain rfl := Option.some.inj he
    exact ⟨_, .unmarked, unmark?_eq_some_iff.mpr ⟨url, hu, rfl⟩, phase?_setPhase_self hd _, nofun⟩
  | unmarked =>
    obtain rfl := Option.some.inj he
    exact ⟨_, .ended, signal?_eq_some_iff.mpr ⟨hd, rfl⟩, phase?_setPhase_self hd _, nofun⟩
  | ended => nomatch he

/-- A departing download that is tried with one of its last steps has one step less to take. -/
theorem State.stepsLeft_attempt {d k : Nat} {phase : Phase} (he : (depart d)[4 - k]? = some e) (hk : k ≤ 4)
    (hd : s.phase? d = some phase) (hle : phase.stepsLeft ≤ k + 1) :
    ∃ new, ((s.step? p e).getD s).phase? d = some new ∧ new.stepsLeft ≤ k := by
  -- it is the turn of this very step unless the download is closer to its end already
  have turn : phase.stepsLeft = k + 1 → ∃ s' new, s.step? p e = some s' ∧ s'.phase? d = some new ∧ new ≠ phase := by
    intro heq
    refine departs hd (by omega) ?_
    rw [heq, ← he]
    congr 1
    omega
  obtain ⟨url, hu⟩ := phase?_eq_some_iff.mp hd
  cases hs : s.step? p e with
  | none =>
    refine ⟨phase, hd, ?_⟩
    rcases Nat.lt_or_eq_of_le hle with hlt | heq
    · omega
    · obtain ⟨s', new, hs', -⟩ := turn heq
      rw [hs] at hs'
      nomatch hs'
  | some s' =>
    obtain ⟨new, hnew, hsame | next⟩ := (turn_of_step? hs).download_stays hu
    · subst hsame
      refine ⟨new, phase?_eq_some_iff.mpr ⟨url, hnew⟩, ?_⟩
      rcases Nat.lt_or_eq_of_le hle with hlt | heq
      · omega
      · obtain ⟨s'', other, hs', hother, hne⟩ := turn heq
        rw [hs] at hs'
        obtain rfl := Option.some.inj hs'
        rw [phase?_eq_some_iff.mpr ⟨url, hnew⟩] at hother
        exact absurd (Option.some.inj hother).symm hne
    · refine ⟨new, phase?_eq_some_iff.mpr ⟨url, hnew⟩, ?_⟩
      have := next.stepsLeft_lt (by omega)
      omega

/-- A departing download tells those who wait as soon as it has taken its last steps. -/
theorem State.isTold_depart {d : Nat} {phase : Phase} (hd : s.phase? d = some phase) (hp : phase.isDeparting = true) :
    (s.attempt p (depart d)).isTold d = true := by
  simp only [depart, attempt]
  have hle := Phase.stepsLeft_le_of_isDeparting hp
  obtain ⟨p1, h1, l1⟩ := stepsLeft_attempt (p := p) (e := .rename d) (k := 4) rfl (by omega) hd hle
  obtain ⟨p2, h2, l2⟩ := stepsLeft_attempt (p := p) (e := .clean d) (k := 3) rfl (by omega) h1 l1
  obtain ⟨p3, h3, l3⟩ := stepsLeft_attempt (p := p) (e := .release d) (k := 2) rfl (by omega) h2 l2
  obtain ⟨p4, h4, l4⟩ := stepsLeft_attempt (p := p) (e := .unmark d) (k := 1) rfl (by omega) h3 l3
  obtain ⟨p5, h5, l5⟩ := stepsLeft_attempt (p := p) (e := .signal d) (k := 0) rfl (by omega) h4 l4
  rw [isTold_iff, h5]
  cases p5 <;> simp [Phase.stepsLeft] at l5 ⊢

/-- However the source ends its work on a download, and at whatever point, the download then tells those who wait. -/
theorem State.isTold_ending {d file : Nat} {body : List UInt8} (hd : s.phase? d = some (.fetching file body))
    (ending : SourceEnding) : (s.attempt p (ending.event d :: depart d)).isTold d = true := by
  obtain ⟨url, hu⟩ := phase?_eq_some_iff.mp hd
  cases ending with
  | whole =>
    have hs : s.step? p (.deliver d) = some _ := deliver?_eq_some_iff.mpr ⟨url, file, body, hu, rfl⟩
    simp only [SourceEnding.event, attempt, hs, Option.getD_some]
    exact isTold_depart (phase?_setPhase_self hd (.fetched body)) rfl
  | failure =>
    have hs : s.step? p (.fail d) = some _ := fail?_eq_some_iff.mpr ⟨url, file, body, hu, rfl⟩
    simp only [SourceEnding.event, attempt, hs, Option.getD_some]
    exact isTold_depart (phase?_setPhase_self hd .cleaning) rfl
  | crash =>
    have hs : s.step? p (.crash d) = some _ := crash?_eq_some_iff.mpr ⟨url, file, body, hu, rfl⟩
    simp only [SourceEnding.event, attempt, hs, Option.getD_some]
    exact isTold_depart (phase?_setPhase_self hd .leaving) rfl

/-- A download that is queued when the pool is closed tells those who wait. -/
theorem State.isTold_abandon {d : Nat} (hd : s.phase? d = some .queued) (hc : s.closed = true) :
    (s.attempt p (.abandon d :: depart d)).isTold d = true := by
  have hs : s.step? p (.abandon d) = some _ := abandon?_eq_some_iff.mpr ⟨hd, hc, rfl⟩
  simp only [attempt, hs, Option.getD_some]
  exact isTold_depart (phase?_setPhase_self hd .released) rfl

/-- A download that has no permit when the pool is closed tells those who wait, whether it has asked for one or is about to. -/
theorem State.isTold_unadmitted {d : Nat} {phase : Phase} (hd : s.phase? d = some phase) (hw : phase.awaitsPermit = true)
    (hc : s.closed = true) : (s.attempt p (.queue d :: .abandon d :: depart d)).isTold d = true := by
  cases phase with
  | spawned =>
    have hs : s.step? p (.queue d) = some _ := queue?_eq_some_iff.mpr ⟨hd, rfl⟩
    rw [attempt, hs, Option.getD_some]
    exact isTold_abandon (phase?_setPhase_self hd .queued) hc
  | queued =>
    have hs : s.step? p (.queue d) = none := Option.eq_none_iff_forall_ne_some.mpr fun s' h => by
      nomatch (queue?_eq_some_iff.mp h).1.symm.trans hd
    rw [attempt, hs, Option.getD_none]
    exact isTold_abandon hd hc
  | _ => nomatch hw

/-! ## Nobody waits in vain -/

/-- Those who wait for downloads are served, in a state that some events have led to. -/
structure State.WaitersServed (p : Policy) (start : State) (events : List Event) (s : State) : Prop where
  /-- A waiting call is there for a reference, and waits for one download of its own image. -/
  linked : s.Linked
  /-- A call that joins a download does so while its marker is in place, so before it has told. -/
  joined : ∀ c s', s.step? p (.register c) = some s' → ∀ purpose url d, s'.calls[c]? = some ⟨purpose, url, .waiting d⟩ →
    s.marker? url = some d ∧ s'.isTold d = false
  /-- A call is held up exactly as long as the download that it waits for has not told. -/
  held : ∀ c purpose url d, s.calls[c]? = some ⟨purpose, url, .waiting d⟩ → (s.proceed? c = none ↔ s.isTold d = false)
  /-- A download has told once or not at all. -/
  once : ∀ d, events.countP (·.tells d) = if s.isTold d then 1 else 0
  /-- The flag of a download is set by the signal of this very download and never taken back. -/
  flag : ∀ e s', s.step? p e = some s' → ∀ d, s'.isTold d = true ↔ s.isTold d = true ∨ e = .signal d
  /-- Whatever happens next, a call that waits waits for the same download, or that has told and the call has gone on. -/
  later : ∀ next s', s.steps? p next = some s' → ∀ c purpose url d, s.calls[c]? = some ⟨purpose, url, .waiting d⟩ →
    ∃ stage, s'.calls[c]? = some ⟨purpose, url, stage⟩ ∧
      (stage = .waiting d ∧ (s'.proceed? c = none ↔ s'.isTold d = false) ∨
        s'.isTold d = true ∧ (stage = .ready ∨ ∃ ref, stage = .answered ref))
  /-- A flag that is set stays set, whatever happens next. -/
  stays : ∀ next s', s.steps? p next = some s' → ∀ d, s.isTold d = true → s'.isTold d = true
  /-- However the source ends its work, the download then tells. -/
  ending : ∀ d file body, s.phase? d = some (.fetching file body) → ∀ ending : SourceEnding,
    (s.attempt p (ending.event d :: depart d)).isTold d = true
  /-- A download that a closed pool never admits tells, too. -/
  abandoned : ∀ d phase, s.phase? d = some phase → phase.awaitsPermit = true → s.closed = true →
    (s.attempt p (.queue d :: .abandon d :: depart d)).isTold d = true
  /-- A download that needs neither the pool nor the source tells after its own last steps. -/
  departing : ∀ d phase, s.phase? d = some phase → phase.isDeparting = true → (s.attempt p (depart d)).isTold d = true
  /-- Every download was begun by one call, and no call has begun two. -/
  starters : (start.starters p events).length = s.downloads.length ∧ (start.starters p events).Nodup
  /-- A call that has waited at any time is none of those that began a download. -/
  joiners : ∀ before after m, events = before ++ after → start.steps? p before = some m → ∀ c purpose url d,
    m.calls[c]? = some ⟨purpose, url, .waiting d⟩ → c ∉ start.starters p events

/-- A waiting call is held up exactly as long as its download has not told. -/
theorem State.proceed?_eq_none_iff {c d : Nat} {purpose : Purpose} {url : String}
    (h : s.calls[c]? = some ⟨purpose, url, .waiting d⟩) : s.proceed? c = none ↔ s.isTold d = false := by
  rw [← Option.isNone_iff_eq_none, ← Option.not_isSome, ← Bool.not_eq_true (s.isTold d), Bool.not_eq_true',
    ← Bool.not_eq_true, proceed?_isSome_iff h]

/-- A call joins a download before that has told. -/
theorem State.Bookkept.isTold_of_join {c d : Nat} {purpose : Purpose} {url : String} (hb : s.Bookkept)
    (hs : s.step? p (.register c) = some s') (hc : s'.calls[c]? = some ⟨purpose, url, .waiting d⟩) :
    s.marker? url = some d ∧ s'.isTold d = false := by
  obtain ⟨purpose', url', hlooked, -⟩ := register?_eq_some_iff.mp hs
  obtain ⟨new, hnew, heq | next⟩ := (callTurn_of_step? hs).call_stays hlooked
  · rw [hc, heq] at hnew
    nomatch hnew
  · rw [hc] at hnew
    obtain ⟨rfl, rfl, rfl⟩ := Call.mk.inj (Option.some.inj hnew)
    cases next with
    | join d _ hm =>
      obtain ⟨phase, hd, hp⟩ := (hb.marker_iff _ _).mp (mem_markers_of_marker? hm)
      refine ⟨hm, ?_⟩
      rw [isTold_of_ne hs nofun, isTold, phase?_eq_some_iff.mpr ⟨_, hd⟩]
      cases phase with
      | unmarked | ended => nomatch hp
      | _ => rfl

/-- In every run of a cache nobody waits in vain. -/
theorem waiters_served {directory : Directory} {clock : Int} {events : List Event}
    (h : (State.begun p directory clock).steps? p events = some s) :
    (State.begun p directory clock).WaitersServed p events s := by
  have hr := (Reachable.begun directory clock).steps? h
  refine {
    linked := hr.linked
    joined := fun c s' hs purpose url d hc => hr.bookkept.isTold_of_join hs hc
    held := fun c purpose url d hc => State.proceed?_eq_none_iff hc
    once := State.countP_tells h
    flag := fun e s' hs d => State.isTold_step_iff hs
    later := fun next s' hs c purpose url d hc => ?_
    stays := fun next s' hs d hd => State.isTold_mono hs hd
    ending := fun d file body hd ending => State.isTold_ending hd ending
    abandoned := fun d phase hd hw hc => State.isTold_unadmitted hd hw hc
    departing := fun d phase hd hp => State.isTold_depart hd hp
    starters := ⟨(State.starters_begun h).1, (State.starters_begun h).2.1⟩
    joiners := fun before after m hsplit hm c purpose url d hc => ?_ }
  · obtain ⟨stage, hstage, rfl | told⟩ := State.waiting_later hs hc
    · exact ⟨.waiting d, hstage, Or.inl ⟨rfl, State.proceed?_eq_none_iff hstage⟩⟩
    · exact ⟨stage, hstage, Or.inr told⟩
  · subst hsplit
    exact State.not_mem_starters h hm hc

/-- A call that has joined a download before it lost its marker can go on after its signal, though a second download of the
image has begun in between. -/
theorem waiters_served_after_second_download :
    ∃ events s, (State.begun ⟨10, "/", 1⟩ .absent 0).steps? ⟨10, "/", 1⟩ events = some s ∧
      s.downloads = [⟨"https://a/b.png", .ended⟩, ⟨"https://a/b.png", .spawned⟩] ∧
      s.calls[1]? = some ⟨.resolve, "https://a/b.png", .waiting 0⟩ ∧ s.proceed? 1 ≠ none ∧
      (State.begun ⟨10, "/", 1⟩ .absent 0).WaitersServed ⟨10, "/", 1⟩ events s := by
  let events : List Event := [.call .resolve "http://a/b.png", .register 0, .call .resolve "https://a/b.png", .register 1,
    .close, .queue 0, .abandon 0, .unmark 0, .call .resolve "https://a/b.png", .register 2, .signal 0]
  obtain ⟨s, hs, hd, hc, ht⟩ : ∃ s, (State.begun ⟨10, "/", 1⟩ .absent 0).steps? ⟨10, "/", 1⟩ events = some s ∧
      s.downloads = [⟨"https://a/b.png", .ended⟩, ⟨"https://a/b.png", .spawned⟩] ∧
      s.calls[1]? = some ⟨.resolve, "https://a/b.png", .waiting 0⟩ ∧ s.isTold 0 = true := ⟨_, rfl, rfl, rfl, rfl⟩
  have served := waiters_served hs
  refine ⟨events, s, hs, hd, hc, fun hn => ?_, served⟩
  rw [served.held 1 .resolve "https://a/b.png" 0 hc, ht] at hn
  nomatch hn

end ChannelWatch.Cache
