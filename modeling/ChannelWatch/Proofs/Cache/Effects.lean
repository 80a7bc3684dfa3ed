import ChannelWatch.Proofs.Cache.Steps
import ChannelWatch.Proofs.Places

/-!
# What a step does

What one step does to each part of the state: to the downloads with their markers (`Turn`), to the calls (`CallTurn`) and to
everything else (`State.Effect`). The events are gone through once (`effect_of_step?`); every later statement about a step is a case
analysis on a turn or one of the parts of its effect.
-/

namespace ChannelWatch.Cache

variable {p : Policy} {s s' : State} {e : Event}

/-! ## What a step does to downloads -/

/-- The download whose step an event is. -/
def Event.download? : Event → Option Nat
  | .queue d | .abandon d | .acquire d | .create d | .ask d | .write d _ | .deliver d | .fail d | .crash d | .rename d | .clean d
  | .release d | .unmark d | .signal d => some d
  | _ => none

/-- The download is registered and has no permit yet, be it that its task has not run or that it is in the line. -/
def Phase.awaitsPermit : Phase → Bool
  | .spawned | .queued => true
  | _ => false

/-- A download goes on from one phase to the next by an event of its own. -/
inductive Phase.Next (d : Nat) : Event → Phase → Phase → Prop
  | queue : Next d (.queue d) .spawned .queued
  | abandon : Next d (.abandon d) .queued .released
  | acquire : Next d (.acquire d) .queued .admitted
  | create (file : Nat) : Next d (.create d) .admitted (.opened file)
  | refuse : Next d (.create d) .admitted .leaving
  | ask (file : Nat) : Next d (.ask d) (.opened file) (.fetching file [])
  | write (file : Nat) (body bytes : List UInt8) :
      Next d (.write d bytes) (.fetching file body) (.fetching file (body ++ bytes))
  | deliver (file : Nat) (body : List UInt8) : Next d (.deliver d) (.fetching file body) (.fetched body)
  | fail (file : Nat) (body : List UInt8) : Next d (.fail d) (.fetching file body) .cleaning
  | crash (file : Nat) (body : List UInt8) : Next d (.crash d) (.fetching file body) .leaving
  | rename (body : List UInt8) : Next d (.rename d) (.fetched body) .leaving
  | keep (body : List UInt8) : Next d (.rename d) (.fetched body) .cleaning
  | clean : Next d (.clean d) .cleaning .leaving
  | release : Next d (.release d) .leaving .released
  | unmark : Next d (.unmark d) .released .unmarked
  | signal : Next d (.signal d) .unmarked .ended

theorem Phase.Next.download? {d : Nat} {old new : Phase} (h : Phase.Next d e old new) : e.download? = some d := by
  cases h <;> rfl

/-- What a step does to the downloads and their markers: nothing, a call begins a download, or a download goes on. -/
inductive Turn (s : State) : Event → State → Prop
  | idle {e : Event} {s' : State} (downloads : s'.downloads = s.downloads) (markers : s'.markers = s.markers)
      (stands : e.download? = none) : Turn s e s'
  | begin {s' : State} (c : Nat) (purpose : Purpose) (url : String) (call : s.calls[c]? = some ⟨purpose, url, .looked⟩)
      (unmarked : s.marker? url = none) (downloads : s'.downloads = s.downloads ++ [⟨url, .spawned⟩])
      (markers : s'.markers = (url, s.downloads.length) :: s.markers) : Turn s (.register c) s'
  | go {e : Event} {s' : State} (d : Nat) (url : String) (old new : Phase) (here : s.downloads[d]? = some ⟨url, old⟩)
      (next : Phase.Next d e old new) (downloads : s'.downloads = s.downloads.set d ⟨url, new⟩)
      (markers : s'.markers = if new = .unmarked then s.markers.filter (·.1 ≠ url) else s.markers) : Turn s e s'

theorem Turn.of_setPhase {d : Nat} {url : String} {old new : Phase} (here : s.downloads[d]? = some ⟨url, old⟩)
    (next : Phase.Next d e old new) (downloads : s'.downloads = (s.setPhase d new).downloads)
    (markers : s'.markers = if new = .unmarked then s.markers.filter (·.1 ≠ url) else s.markers) : Turn s e s' :=
  .go d url old new here next (downloads.trans (State.downloads_setPhase here new)) markers

/-- A download stays in its place with its URL, and its phase changes only by an event of its own. -/
theorem Turn.download_stays (t : Turn s e s') {d : Nat} {url : String} {old : Phase}
    (h : s.downloads[d]? = some ⟨url, old⟩) :
    ∃ new, s'.downloads[d]? = some ⟨url, new⟩ ∧ (new = old ∨ Phase.Next d e old new) := by
  cases t with
  | idle downloads _ => exact ⟨old, by rw [downloads, h], Or.inl rfl⟩
  | begin c purpose image _ _ downloads _ =>
    refine ⟨old, ?_, Or.inl rfl⟩
    have hne : d ≠ s.downloads.length := Nat.ne_of_lt (List.getElem?_eq_some_iff.mp h).1
    rw [downloads, getElem?_append_singleton, if_neg hne, h]
  | go x image here new hx next downloads _ =>
    rw [downloads, getElem?_set_of_eq_some hx]
    by_cases hd : d = x
    · subst hd
      rw [h] at hx
      obtain ⟨rfl, rfl⟩ := Download.mk.inj (Option.some.inj hx)
      exact ⟨new, if_pos rfl, Or.inr next⟩
    · exact ⟨old, by rw [if_neg hd, h], Or.inl rfl⟩

/-- A download that is there after a step was there before it, or has begun with it for an image without a marker. -/
theorem Turn.download_came (t : Turn s e s') {d : Nat} {url : String} {new : Phase}
    (h : s'.downloads[d]? = some ⟨url, new⟩) :
    (∃ old, s.downloads[d]? = some ⟨url, old⟩ ∧ (new = old ∧ e.download? ≠ some d ∨ Phase.Next d e old new)) ∨
      d = s.downloads.length ∧ new = .spawned ∧ s.marker? url = none := by
  cases t with
  | idle downloads _ stands => exact Or.inl ⟨new, by rw [← downloads, h], Or.inl ⟨rfl, stands ▸ nofun⟩⟩
  | begin c purpose image _ unmarked downloads _ =>
    rw [downloads, getElem?_append_singleton] at h
    split at h
    · rename_i hd
      obtain ⟨rfl, rfl⟩ := Download.mk.inj (Option.some.inj h)
      exact Or.inr ⟨hd, rfl, unmarked⟩
    · exact Or.inl ⟨new, h, Or.inl ⟨rfl, nofun⟩⟩
  | go x image old phase here next downloads _ =>
    rw [downloads, getElem?_set_of_eq_some here] at h
    split at h
    · rename_i hd
      obtain ⟨rfl, rfl⟩ := Download.mk.inj (Option.some.inj h)
      exact Or.inl ⟨old, hd ▸ here, Or.inr (hd ▸ next)⟩
    · rename_i hd
      exact Or.inl ⟨new, h, Or.inl ⟨rfl, fun hx => hd (Option.some.inj (next.download?.symm.trans hx)).symm⟩⟩

theorem State.phase?_congr (h : s'.downloads = s.downloads) (d : Nat) : s'.phase? d = s.phase? d := by
  rw [phase?, h, phase?]

theorem State.phase?_of_append {url : String} {phase : Phase} (h : s'.downloads = s.downloads ++ [⟨url, phase⟩]) (d : Nat) :
    s'.phase? d = if d = s.downloads.length then some phase else s.phase? d := by
  rw [phase?, h, getElem?_append_singleton]
  split <;> rfl

theorem State.phase?_of_set {x : Nat} {url : String} {old new : Phase} (here : s.downloads[x]? = some ⟨url, old⟩)
    (h : s'.downloads = s.downloads.set x ⟨url, new⟩) (d : Nat) : s'.phase? d = if d = x then some new else s.phase? d := by
  rw [phase?, h, getElem?_set_of_eq_some here]
  split <;> rfl

/-- Downloads only become more. -/
theorem Turn.downloads_length_le (t : Turn s e s') : s.downloads.length ≤ s'.downloads.length := by
  cases t with
  | idle downloads _ => exact Nat.le_of_eq (congrArg List.length downloads.symm)
  | begin c purpose url _ _ downloads _ =>
    rw [downloads, List.length_append]
    exact Nat.le_add_right _ _
  | go d url old new _ _ downloads _ => simp only [downloads, List.length_set, Nat.le_refl]

theorem Turn.download_eq_none (t : Turn s e s') {d : Nat} (hd : s'.downloads[d]? = none) : s.downloads[d]? = none := by
  rw [List.getElem?_eq_none_iff] at hd ⊢
  exact Nat.le_trans t.downloads_length_le hd

/-! ## What a step does to calls -/

/-- The stage of a call that is answered by its first look. -/
def Stage.settled (purpose : Purpose) (ref : ImageRef) : Stage :=
  match purpose with
  | .resolve => .answered ref
  | .preload => .finished

/-- The reference that the first look of a call gives, if no second one is needed. -/
def State.firstRef? (p : Policy) (s : State) (url : String) : Option ImageRef :=
  if url.isEmpty then some .missing
  else if s.look p (Link.secure url) = .fresh then some (.fresh (p.localRef (Link.secure url)))
  else none

/-- The stage of a call after its first look. -/
def State.firstStage (p : Policy) (s : State) (purpose : Purpose) (url : String) : Stage :=
  match s.firstRef? p url with
  | some ref => .settled purpose ref
  | none => .looked

/-- A call begins at the stage that its first look gives. -/
theorem State.beginCall_eq (p : Policy) (s : State) (purpose : Purpose) (url : String) :
    s.beginCall p purpose url =
      { s with calls := s.calls ++ [⟨purpose, Link.secure url, s.firstStage p purpose url⟩] } := by
  unfold State.beginCall State.firstStage State.firstRef?
  by_cases hu : url.isEmpty = true
  · simp only [hu, if_true]
    rfl
  · by_cases hl : s.look p (Link.secure url) = .fresh
    · simp only [hu, hl, if_true]
      rfl
    · simp only [hu, hl, if_false]
      rfl

/-- The first look leaves a call to register only if there is an image to look for. -/
theorem State.ne_empty_of_firstStage {purpose : Purpose} {url : String} (h : s.firstStage p purpose url = .looked) :
    url ≠ "" := by
  rintro rfl
  cases purpose <;> nomatch h

/-- The first look of a call leaves it to register exactly if there is an image and no fresh file for it. -/
theorem State.firstStage_eq_looked_iff {purpose : Purpose} {url : String} :
    s.firstStage p purpose url = .looked ↔ url ≠ "" ∧ s.look p (Link.secure url) ≠ .fresh := by
  unfold firstStage firstRef?
  by_cases hu : url = ""
  · subst hu
    cases purpose <;> simp [Stage.settled]
  · by_cases hl : s.look p (Link.secure url) = .fresh
    · cases purpose <;> simp [Stage.settled, hu, hl]
    · simp [hu, hl]

/-- A call goes on from one stage to the next by an event of its own. -/
inductive Stage.Next (p : Policy) (s : State) (c : Nat) (purpose : Purpose) (url : String) : Event → Stage → Stage → Prop
  | join (d : Nat) (resolves : purpose = .resolve) (marked : s.marker? url = some d) :
      Next p s c purpose url (.register c) .looked (.waiting d)
  | begin (resolves : purpose = .resolve) (unmarked : s.marker? url = none) :
      Next p s c purpose url (.register c) .looked .ready
  | finish (preloads : purpose = .preload) : Next p s c purpose url (.register c) .looked .finished
  | proceed (d : Nat) (ended : s.phase? d = some .ended) : Next p s c purpose url (.proceed c) (.waiting d) .ready
  | answer : Next p s c purpose url (.lookAgain c) .ready (.answered (p.refer url (s.look p url)))

/-- What a step does to the calls: nothing, a call begins, or a call goes on. -/
inductive CallTurn (p : Policy) (s : State) : Event → State → Prop
  | idle {e : Event} {s' : State} (calls : s'.calls = s.calls) : CallTurn p s e s'
  | call {s' : State} (purpose : Purpose) (url : String)
      (calls : s'.calls = s.calls ++ [⟨purpose, Link.secure url, s.firstStage p purpose url⟩]) :
      CallTurn p s (.call purpose url) s'
  | go {e : Event} {s' : State} (c : Nat) (purpose : Purpose) (url : String) (old new : Stage)
      (here : s.calls[c]? = some ⟨purpose, url, old⟩) (next : Stage.Next p s c purpose url e old new)
      (calls : s'.calls = s.calls.set c ⟨purpose, url, new⟩) : CallTurn p s e s'

theorem CallTurn.of_setStage {c : Nat} {purpose : Purpose} {url : String} {old new : Stage}
    (here : s.calls[c]? = some ⟨purpose, url, old⟩) (next : Stage.Next p s c purpose url e old new)
    (calls : s'.calls = (s.setStage c new).calls) : CallTurn p s e s' :=
  .go c purpose url old new here next (calls.trans (State.calls_setStage here new))

/-- A call stays in its place with its purpose and its URL, and its stage changes only by an event of its own. -/
theorem CallTurn.call_stays (t : CallTurn p s e s') {c : Nat} {purpose : Purpose} {url : String} {old : Stage}
    (h : s.calls[c]? = some ⟨purpose, url, old⟩) :
    ∃ new, s'.calls[c]? = some ⟨purpose, url, new⟩ ∧ (new = old ∨ Stage.Next p s c purpose url e old new) := by
  cases t with
  | idle calls => exact ⟨old, by rw [calls, h], Or.inl rfl⟩
  | call purpose' url' calls =>
    refine ⟨old, ?_, Or.inl rfl⟩
    have hne : c ≠ s.calls.length := Nat.ne_of_lt (List.getElem?_eq_some_iff.mp h).1
    rw [calls, getElem?_append_singleton, if_neg hne, h]
  | go x purpose' url' here new hx next calls =>
    rw [calls, getElem?_set_of_eq_some hx]
    by_cases hc : c = x
    · subst hc
      rw [h] at hx
      obtain ⟨rfl, rfl, rfl⟩ := Call.mk.inj (Option.some.inj hx)
      exact ⟨new, if_pos rfl, Or.inr next⟩
    · exact ⟨old, by rw [if_neg hc, h], Or.inl rfl⟩

/-- Calls only become more. -/
theorem CallTurn.length_le (t : CallTurn p s e s') : s.calls.length ≤ s'.calls.length := by
  cases t with
  | idle calls => exact Nat.le_of_eq (congrArg List.length calls.symm)
  | call purpose url calls =>
    rw [calls, List.length_append]
    exact Nat.le_add_right _ _
  | go c purpose url old new _ _ calls => simp only [calls, List.length_set, Nat.le_refl]

/-! ## What a step does to everything else -/

/-- The event is one that may change the directory, or that delivers an image. -/
def Event.touchesFiles : Event → Bool
  | .create _ | .write _ _ | .deliver _ | .rename _ | .clean _ | .remove _ => true
  | _ => false

/-- The event is a step of a sweep. -/
def Event.sweeps : Event → Bool
  | .sweep | .takeTime _ | .inspect _ | .remove _ => true
  | _ => false

/-- How far an event moves the clock, in nanoseconds. -/
def Event.nanos : Event → Nat
  | .tick nanos => nanos
  | _ => 0

/-- What a step asks of the source. -/
def State.asks (s : State) : Event → List String
  | .ask d => ((s.downloads[d]?).map (·.url)).toList
  | _ => []

/-- The event closes the pool. -/
def Event.closes : Event → Bool
  | .close => true
  | _ => false

/-- How many permits an event takes from the pool. -/
def Event.taken : Event → Nat
  | .acquire _ => 1
  | _ => 0

/-- How many permits an event gives back to the pool. -/
def Event.returned : Event → Nat
  | .release _ => 1
  | _ => 0

/-- What an event makes of the line for a permit. -/
def Event.lineAfter (line : List Nat) : Event → List Nat
  | .queue d => line ++ [d]
  | .abandon d => line.filter (· ≠ d)
  | .acquire _ => line.tail
  | _ => line

theorem Event.lineAfter_of_download? (h : e.download? = none) (line : List Nat) : e.lineAfter line = line := by
  cases e with
  | queue | abandon | acquire => nomatch h
  | _ => rfl

/-- What a step does to each part of the state. A part that nothing is said about is as it was: only a download changes the downloads
and only a call the calls, a few events touch the files, the steps of a sweep change the sweeps, time moves the clock, a question is
recorded, and the pool is closed, gives a permit or gets one back, and keeps its line. -/
structure State.Effect (p : Policy) (s : State) (e : Event) (s' : State) : Prop where
  turn : Turn s e s' := by exact .idle rfl rfl rfl
  callTurn : CallTurn p s e s' := by exact .idle rfl
  files : e.touchesFiles = false → s'.directory = s.directory ∧ s'.freshFile = s.freshFile ∧ s'.delivered = s.delivered := by
    exact fun _ => ⟨rfl, rfl, rfl⟩
  sweeps : e.sweeps = false → s'.sweeps = s.sweeps := by exact fun _ => rfl
  clock : s'.clock = s.clock + e.nanos := by exact (Int.add_zero _).symm
  asked : s'.asked = s.asked ++ s.asks e := by exact (List.append_nil _).symm
  closed : s'.closed = (e.closes || s.closed) := by rfl
  free : s'.free + e.taken = s.free + e.returned := by rfl
  line : s'.line = e.lineAfter s.line := by rfl

/-- Every step has its effect. -/
theorem effect_of_step? (h : s.step? p e = some s') : s.Effect p e s' := by
  cases e with
  | tick nanos =>
    obtain rfl := Option.some.inj h
    exact { clock := rfl }
  | close =>
    obtain rfl := Option.some.inj h
    exact { }
  | call purpose url =>
    obtain rfl := Option.some.inj h
    exact { callTurn := .call purpose url (by rw [State.beginCall_eq]) }
  | register c =>
    obtain ⟨purpose, url, hc, ⟨d, hm, rfl⟩ | ⟨hm, rfl⟩⟩ := State.register?_eq_some_iff.mp h
    · cases purpose with
      | resolve => exact { callTurn := .of_setStage hc (.join d rfl hm) rfl }
      | preload => exact { callTurn := .of_setStage hc (.finish rfl) rfl }
    · cases purpose with
      | resolve => exact { turn := .begin c _ url hc hm rfl rfl, callTurn := .of_setStage hc (.begin rfl hm) rfl }
      | preload => exact { turn := .begin c _ url hc hm rfl rfl, callTurn := .of_setStage hc (.finish rfl) rfl }
  | proceed c =>
    obtain ⟨purpose, url, d, hc, hd, rfl⟩ := State.proceed?_eq_some_iff.mp h
    exact { callTurn := .of_setStage hc (.proceed d hd) rfl }
  | lookAgain c =>
    obtain ⟨purpose, url, hc, rfl⟩ := State.lookAgain?_eq_some_iff.mp h
    exact { callTurn := .of_setStage hc .answer rfl }
  | queue d =>
    obtain ⟨hd, rfl⟩ := State.queue?_eq_some_iff.mp h
    obtain ⟨url, hd⟩ := State.phase?_eq_some_iff.mp hd
    exact { turn := .of_setPhase hd .queue rfl rfl }
  | abandon d =>
    obtain ⟨hd, -, rfl⟩ := State.abandon?_eq_some_iff.mp h
    obtain ⟨url, hd⟩ := State.phase?_eq_some_iff.mp hd
    exact { turn := .of_setPhase hd .abandon rfl rfl }
  | acquire d =>
    obtain ⟨hd, -, line, free, hline, hfree, rfl⟩ := State.acquire?_eq_some_iff.mp h
    obtain ⟨url, hd⟩ := State.phase?_eq_some_iff.mp hd
    exact { turn := .of_setPhase hd .acquire rfl rfl, free := hfree.symm, line := by rw [hline]; rfl }
  | create d =>
    obtain ⟨url, hd, ⟨directory, file, -, rfl⟩ | ⟨-, rfl⟩⟩ := State.create?_eq_some_iff.mp h
    · exact { turn := .of_setPhase hd (.create file) rfl rfl, files := nofun }
    · exact { turn := .of_setPhase hd .refuse rfl rfl }
  | ask d =>
    obtain ⟨url, file, hd, rfl⟩ := State.ask?_eq_some_iff.mp h
    exact {
      turn := .of_setPhase hd (.ask file) rfl rfl
      asked := by simp only [State.asks, hd, Option.map_some, Option.toList_some] }
  | write d bytes =>
    obtain ⟨url, file, body, hd, rfl⟩ := State.write?_eq_some_iff.mp h
    exact { turn := .of_setPhase hd (.write file body bytes) rfl rfl, files := nofun }
  | deliver d =>
    obtain ⟨url, file, body, hd, rfl⟩ := State.deliver?_eq_some_iff.mp h
    exact { turn := .of_setPhase hd (.deliver file body) rfl rfl, files := nofun }
  | fail d =>
    obtain ⟨url, file, body, hd, rfl⟩ := State.fail?_eq_some_iff.mp h
    exact { turn := .of_setPhase hd (.fail file body) rfl rfl }
  | crash d =>
    obtain ⟨url, file, body, hd, rfl⟩ := State.crash?_eq_some_iff.mp h
    exact { turn := .of_setPhase hd (.crash file body) rfl rfl }
  | rename d =>
    obtain ⟨url, body, hd, ⟨directory, -, rfl⟩ | ⟨-, rfl⟩⟩ := State.rename?_eq_some_iff.mp h
    · exact { turn := .of_setPhase hd (.rename body) rfl rfl, files := nofun }
    · exact { turn := .of_setPhase hd (.keep body) rfl rfl }
  | clean d =>
    obtain ⟨url, hd, rfl⟩ := State.clean?_eq_some_iff.mp h
    exact { turn := .of_setPhase hd .clean rfl rfl, files := nofun }
  | release d =>
    obtain ⟨hd, rfl⟩ := State.release?_eq_some_iff.mp h
    obtain ⟨url, hd⟩ := State.phase?_eq_some_iff.mp hd
    exact { turn := .of_setPhase hd .release rfl rfl }
  | unmark d =>
    obtain ⟨url, hd, rfl⟩ := State.unmark?_eq_some_iff.mp h
    exact { turn := .of_setPhase hd .unmark rfl rfl }
  | signal d =>
    obtain ⟨hd, rfl⟩ := State.signal?_eq_some_iff.mp h
    obtain ⟨url, hd⟩ := State.phase?_eq_some_iff.mp hd
    exact { turn := .of_setPhase hd .signal rfl rfl }
  | sweep =>
    obtain rfl := Option.some.inj h
    exact { sweeps := nofun }
  | takeTime i =>
    obtain ⟨sweep, rfl⟩ := State.takeTime?_eq_setSweep h
    exact { sweeps := nofun }
  | inspect i =>
    obtain ⟨sweep, rfl⟩ := State.inspect?_eq_setSweep h
    exact { sweeps := nofun }
  | remove i =>
    obtain ⟨_, _, _, _, _, -, ⟨_, -, rfl⟩ | ⟨-, rfl⟩⟩ := State.remove?_eq_some_iff.mp h
    · exact { files := nofun, sweeps := nofun }
    · exact { files := nofun, sweeps := nofun }

theorem turn_of_step? (h : s.step? p e = some s') : Turn s e s' :=
  (effect_of_step? h).turn

theorem callTurn_of_step? (h : s.step? p e = some s') : CallTurn p s e s' :=
  (effect_of_step? h).callTurn

/-- Only the events that touch files change the directory and the record of deliveries. -/
theorem files_of_step? (h : s.step? p e = some s') (he : e.touchesFiles = false) :
    s'.directory = s.directory ∧ s'.freshFile = s.freshFile ∧ s'.delivered = s.delivered :=
  (effect_of_step? h).files he

theorem clock_le_of_step? (h : s.step? p e = some s') : s.clock ≤ s'.clock := by
  rw [(effect_of_step? h).clock]
  omega

theorem open_of_step? (h : s.step? p e = some s') (hopen : s'.closed = false) : s.closed = false := by
  rw [(effect_of_step? h).closed, Bool.or_eq_false_iff] at hopen
  exact hopen.2

/-- A step of a download is a step of one that is there. -/
theorem exists_download_of_step? {d : Nat} (h : s.step? p e = some s') (he : e.download? = some d) :
    ∃ x, s.downloads[d]? = some x := by
  cases turn_of_step? h with
  | idle _ _ stands => nomatch stands.symm.trans he
  | begin => nomatch he
  | go x url old new here next =>
    obtain rfl := Option.some.inj (next.download?.symm.trans he)
    exact ⟨_, here⟩

/-- A step is none of a download that is not there. -/
theorem download?_ne_of_none {d : Nat} (h : s.step? p e = some s') (hd : s.downloads[d]? = none) : e.download? ≠ some d := by
  intro he
  obtain ⟨x, hx⟩ := exists_download_of_step? h he
  nomatch hd.symm.trans hx

end ChannelWatch.Cache
