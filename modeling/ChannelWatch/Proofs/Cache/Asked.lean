import Mathlib.Data.List.Basic
import ChannelWatch.Proofs.Cache.Once

/-!
# What is asked of the source

A download asks the source for its image once, or is turned away before: the pool is closed, or its temporary file cannot be opened
(`State.TurnedAway`). In a run from a cache with nothing in flight, the questions are those of the downloads that have begun in the
run, with one for each of them that was not turned away (`State.Asks`).
-/

namespace ChannelWatch.Cache

variable {p : Policy} {s m m' : State} {e : Event} {events : List Event} {d : Nat}

/-! ## One step -/

/-- The temporary file of a download cannot be opened. -/
def State.CannotOpen (s : State) (d : Nat) : Prop :=
  ∃ x, s.downloads[d]? = some x ∧ s.directory.create? s.freshFile s.clock (tempName (fileName x.url)) = none

/-- With the event, a download gives up before it asks the source for anything. -/
def Event.TurnsAway (m : State) (d : Nat) (e : Event) : Prop :=
  e = .abandon d ∨ e = .create d ∧ m.CannotOpen d

/-- In the course of a run, a download has given up before it asked the source for anything. -/
def State.TurnedAway (p : Policy) (s : State) (events : List Event) (d : Nat) : Prop :=
  ∃ m e, s.Happens p events m e ∧ e.TurnsAway m d

/-- The download that asks the source with an event. -/
def Event.asking? : Event → Option Nat
  | .ask d => some d
  | _ => none

/-- In a run with one more event, a download was turned away before or is turned away by this event. -/
theorem State.turnedAway_snoc_iff (hm : s.steps? p events = some m) :
    s.TurnedAway p (events ++ [e]) d ↔ s.TurnedAway p events d ∨ e.TurnsAway m d := by
  constructor
  · rintro ⟨x, f, hf, haway⟩
    rcases happens_snoc hf with hf | ⟨rfl, hx⟩
    · exact Or.inl ⟨x, f, hf, haway⟩
    · obtain rfl := Option.some.inj (hm.symm.trans hx)
      exact Or.inr haway
  · rintro (⟨x, f, hf, haway⟩ | haway)
    · exact ⟨x, f, hf.append [e], haway⟩
    · exact ⟨m, e, happens_last hm, haway⟩

/-- A step with which a download gives up is a step of this download. -/
theorem Event.TurnsAway.download? (h : e.TurnsAway m d) : e.download? = some d := by
  rcases h with rfl | ⟨rfl, -⟩ <;> rfl

/-- A download that goes on asks the source, or gives up, or does neither: these are three parts of its way. -/
theorem Phase.Next.ways {old new : Phase} (h : Phase.Next d e old new) :
    e = .ask d ∧ old.toGo = 7 ∧ new.toGo = 6 ∨
      (e = .abandon d ∨ e = .create d ∧ new = .leaving) ∧ 8 ≤ old.toGo ∧ new.toGo ≤ 3 ∨
      (e ≠ .ask d ∧ e ≠ .abandon d ∧ (e = .create d → new ≠ .leaving)) ∧ new.toGo ≤ old.toGo ∧
        (new.toGo ≤ 6 → old.toGo ≤ 6) := by
  cases h <;> simp [Phase.toGo]

/-- A download leaves on trying to create its temporary file exactly if the file cannot be opened. -/
theorem cannotOpen_iff_of_step? (he : m.step? p (.create d) = some m') {x : Download} (hd : m'.downloads[d]? = some x) :
    m.CannotOpen d ↔ x.phase = .leaving := by
  have hphase := State.phase?_eq_some_iff.mpr ⟨x.url, hd⟩
  obtain ⟨url, hu, ⟨directory, file, hsome, rfl⟩ | ⟨hnone, rfl⟩⟩ := State.create?_eq_some_iff.mp he
  · have hopened : x.phase = .opened file :=
      Option.some.inj (hphase.symm.trans (State.phase?_setPhase_self (State.phase?_eq_some_iff.mpr ⟨url, hu⟩) _))
    have hnot : ¬m.CannotOpen d := by
      rintro ⟨y, hy, hnone⟩
      obtain rfl := Option.some.inj (hy.symm.trans hu)
      simp [hnone] at hsome
    simp [hnot, hopened]
  · have hleaving : x.phase = .leaving :=
      Option.some.inj (hphase.symm.trans (State.phase?_setPhase_self (State.phase?_eq_some_iff.mpr ⟨url, hu⟩) _))
    exact iff_of_true ⟨_, hu, hnone⟩ hleaving

/-- With a step, a download asks the source, or gives up, or does neither and comes no further from its end. -/
theorem ways_of_step? (he : m.step? p e = some m') {x x' : Download} (hd : m.downloads[d]? = some x)
    (hd' : m'.downloads[d]? = some x') : x'.url = x.url ∧
      (e = .ask d ∧ x.phase.toGo = 7 ∧ x'.phase.toGo = 6 ∨
        e.TurnsAway m d ∧ 8 ≤ x.phase.toGo ∧ x'.phase.toGo ≤ 3 ∨
        (e ≠ .ask d ∧ ¬e.TurnsAway m d) ∧ x'.phase.toGo ≤ x.phase.toGo ∧ (x'.phase.toGo ≤ 6 → x.phase.toGo ≤ 6)) := by
  obtain ⟨url, old⟩ := x
  obtain ⟨url', new⟩ := x'
  rcases (turn_of_step? he).download_came hd' with ⟨old', hold, hcases⟩ | ⟨hlast, -, -⟩
  · obtain ⟨rfl, rfl⟩ := Download.mk.inj (Option.some.inj (hd.symm.trans hold))
    refine ⟨rfl, ?_⟩
    rcases hcases with ⟨rfl, hother⟩ | next
    · exact Or.inr (Or.inr ⟨⟨fun h => hother (h ▸ rfl), fun h => hother h.download?⟩, Nat.le_refl _, id⟩)
    · rcases next.ways with hask | ⟨haway, hphases⟩ | ⟨⟨hask, habandon, hcreate⟩, hphases⟩
      · exact Or.inl hask
      · refine Or.inr (Or.inl ⟨haway.imp id ?_, hphases⟩)
        rintro ⟨rfl, hleaving⟩
        exact ⟨rfl, (cannotOpen_iff_of_step? he hd').mpr hleaving⟩
      · refine Or.inr (Or.inr ⟨⟨hask, ?_⟩, hphases⟩)
        rintro (h | ⟨rfl, hopen⟩)
        · exact habandon h
        · exact hcreate rfl ((cannotOpen_iff_of_step? he hd').mp hopen)
  · rw [hlast, List.getElem?_eq_none (Nat.le_refl _)] at hd
    nomatch hd

/-- The download that asks has opened its file. -/
theorem toGo_of_ask (he : m.step? p (.ask d) = some m') : ∃ x, m.downloads[d]? = some x ∧ x.phase.toGo = 7 := by
  obtain ⟨url, file, hd, -⟩ := State.ask?_eq_some_iff.mp he
  exact ⟨_, hd, rfl⟩

/-- A download that gives up has not asked. -/
theorem Event.TurnsAway.ne_ask (h : e.TurnsAway m d) : e ≠ .ask d := by
  rcases h with rfl | ⟨rfl, -⟩ <;> nofun

theorem Turn.exists_after (t : Turn m e m') {x : Download} (hd : m.downloads[d]? = some x) : ∃ x', m'.downloads[d]? = some x' := by
  obtain ⟨new, hd', -⟩ := t.download_stays (show m.downloads[d]? = some ⟨x.url, x.phase⟩ from hd)
  exact ⟨_, hd'⟩

/-- A download that is there after a step was there before it, or has only been registered. -/
theorem Turn.exists_before (t : Turn m e m') {x' : Download} (hd' : m'.downloads[d]? = some x') :
    (∃ x, m.downloads[d]? = some x) ∨ d = m.downloads.length ∧ x'.phase = .spawned := by
  rcases t.download_came (show m'.downloads[d]? = some ⟨x'.url, x'.phase⟩ from hd') with ⟨old, hd, -⟩ | ⟨hlast, hspawned, -⟩
  · exact Or.inl ⟨_, hd⟩
  · exact Or.inr ⟨hlast, hspawned⟩

/-! ## The questions of a run -/

/-- The downloads that have asked the source in the course of some events, in order. -/
def askers (events : List Event) : List Nat :=
  events.filterMap Event.asking?

theorem Event.asking?_eq_some_iff : e.asking? = some d ↔ e = .ask d := by
  cases e <;> simp [asking?]

theorem askers_snoc (events : List Event) (e : Event) : askers (events ++ [e]) = askers events ++ e.asking?.toList :=
  filterMap_concat _ events e

theorem mem_askers_snoc_iff : d ∈ askers (events ++ [e]) ↔ d ∈ askers events ∨ e = .ask d := by
  rw [askers_snoc, List.mem_append, Option.mem_toList, Event.asking?_eq_some_iff]

/-- What was asked of the source in a run from the state `s`, in which all downloads are over, to the state `m`. -/
structure State.Asks (s : State) (p : Policy) (events : List Event) (m : State) : Prop where
  /-- Each question is that of a download for its image. -/
  asked : m.asked = s.asked ++ (askers events).filterMap fun d => (m.downloads[d]?).map (·.url)
  /-- No download asks twice. -/
  nodup : (askers events).Nodup
  /-- A download that has asked has begun in the run and is past its question. -/
  past : ∀ d ∈ askers events, s.downloads.length ≤ d ∧ ∃ x, m.downloads[d]? = some x ∧ x.phase.toGo ≤ 6
  /-- A download that was turned away has not asked and will not. -/
  away : ∀ d, s.TurnedAway p events d → d ∉ askers events ∧ ∃ x, m.downloads[d]? = some x ∧ x.phase.toGo ≤ 3
  /-- A download that has begun in the run and is past its question has asked or was turned away. -/
  done : ∀ d x, s.downloads.length ≤ d → m.downloads[d]? = some x → x.phase.toGo ≤ 6 → d ∈ askers events ∨ s.TurnedAway p events d
  /-- The downloads from before are over. -/
  rest : ∀ d x, d < s.downloads.length → m.downloads[d]? = some x → x.phase.toGo ≤ 1

namespace State.Asks

/-- Nothing has been asked yet. -/
theorem start (h : ∀ x ∈ s.downloads, x.phase.toGo ≤ 1) : s.Asks p [] s where
  asked := by simp [askers]
  nodup := List.nodup_nil
  past := nofun
  away := fun d ⟨m, e, ⟨before, after, heq, _⟩, _⟩ => by simp at heq
  done := fun d x hle hd => by
    have := (List.getElem?_eq_some_iff.mp hd).1
    omega
  rest := fun d x _ hd => h x (List.mem_of_getElem? hd)

/-- A step adds the question that it asks, if it asks one. -/
theorem asked_step (h : s.Asks p events m) (he : m.step? p e = some m') :
    m'.asked = s.asked ++ (askers (events ++ [e])).filterMap fun d => (m'.downloads[d]?).map (·.url) := by
  have hold : (askers events).filterMap (fun d => (m'.downloads[d]?).map (·.url)) =
      (askers events).filterMap fun d => (m.downloads[d]?).map (·.url) := by
    refine List.filterMap_congr fun d hd => ?_
    obtain ⟨-, x, hx, -⟩ := h.past d hd
    obtain ⟨x', hx'⟩ := (turn_of_step? he).exists_after hx
    rw [hx, hx', Option.map_some, Option.map_some, (ways_of_step? he hx hx').1]
  have hnew : e.asking?.toList.filterMap (fun d => (m'.downloads[d]?).map (·.url)) = m.asks e := by
    cases e with
    | ask d =>
      obtain ⟨x, hx, -⟩ := toGo_of_ask he
      obtain ⟨x', hx'⟩ := (turn_of_step? he).exists_after hx
      simp [Event.asking?, State.asks, hx, hx', (ways_of_step? he hx hx').1]
    | _ => rfl
  rw [(effect_of_step? he).asked, h.asked, askers_snoc, List.filterMap_append, hold, hnew, List.append_assoc]

/-- A download that asks has not asked before: it was not past its question. -/
theorem not_mem_of_ask (h : s.Asks p events m) (he : m.step? p (.ask d) = some m') : d ∉ askers events := by
  intro hmem
  obtain ⟨x, hx, h7⟩ := toGo_of_ask he
  obtain ⟨-, y, hy, h6⟩ := h.past d hmem
  obtain rfl := Option.some.inj (hx.symm.trans hy)
  omega

theorem nodup_step (h : s.Asks p events m) (he : m.step? p e = some m') : (askers (events ++ [e])).Nodup := by
  rw [askers_snoc]
  refine List.nodup_append.mpr ⟨h.nodup, by cases e.asking? <;> simp, fun a ha b hb heq => ?_⟩
  obtain rfl := Event.asking?_eq_some_iff.mp (Option.mem_toList.mp hb)
  exact h.not_mem_of_ask he (heq ▸ ha)

theorem past_step (h : s.Asks p events m) (he : m.step? p e = some m') (hd : d ∈ askers (events ++ [e])) :
    s.downloads.length ≤ d ∧ ∃ x, m'.downloads[d]? = some x ∧ x.phase.toGo ≤ 6 := by
  rcases mem_askers_snoc_iff.mp hd with hd | rfl
  · obtain ⟨hle, x, hx, h6⟩ := h.past d hd
    obtain ⟨x', hx'⟩ := (turn_of_step? he).exists_after hx
    refine ⟨hle, x', hx', ?_⟩
    rcases (ways_of_step? he hx hx').2 with ⟨-, -, h6'⟩ | ⟨-, -, h3⟩ | ⟨-, hle', -⟩ <;> omega
  · obtain ⟨x, hx, h7⟩ := toGo_of_ask he
    obtain ⟨x', hx'⟩ := (turn_of_step? he).exists_after hx
    have hle : s.downloads.length ≤ d := Nat.le_of_not_lt fun hlt => by
      have := h.rest d x hlt hx
      omega
    refine ⟨hle, x', hx', ?_⟩
    rcases (ways_of_step? he hx hx').2 with ⟨-, -, h6⟩ | ⟨-, -, h3⟩ | ⟨⟨hne, -⟩, -⟩
    · exact Nat.le_of_eq h6
    · omega
    · exact absurd rfl hne

theorem away_step (h : s.Asks p events m) (hm : s.steps? p events = some m) (he : m.step? p e = some m')
    (haway : s.TurnedAway p (events ++ [e]) d) :
    d ∉ askers (events ++ [e]) ∧ ∃ x, m'.downloads[d]? = some x ∧ x.phase.toGo ≤ 3 := by
  rcases (turnedAway_snoc_iff hm).mp haway with haway | haway
  · obtain ⟨hnot, x, hx, h3⟩ := h.away d haway
    obtain ⟨x', hx'⟩ := (turn_of_step? he).exists_after hx
    have hways := (ways_of_step? he hx hx').2
    refine ⟨fun hmem => ?_, x', hx', by omega⟩
    rcases mem_askers_snoc_iff.mp hmem with hmem | rfl
    · exact hnot hmem
    · obtain ⟨y, hy, h7⟩ := toGo_of_ask he
      obtain rfl := Option.some.inj (hx.symm.trans hy)
      omega
  · obtain ⟨x, hx⟩ := exists_download_of_step? he haway.download?
    obtain ⟨x', hx'⟩ := (turn_of_step? he).exists_after hx
    rcases (ways_of_step? he hx hx').2 with ⟨heq, -⟩ | ⟨-, h8, h3⟩ | ⟨⟨-, hne⟩, -⟩
    · exact absurd heq haway.ne_ask
    · refine ⟨fun hmem => ?_, x', hx', h3⟩
      obtain ⟨-, y, hy, h6⟩ := h.past d ((mem_askers_snoc_iff.mp hmem).resolve_right haway.ne_ask)
      obtain rfl := Option.some.inj (hx.symm.trans hy)
      omega
    · exact absurd haway hne

theorem done_step (h : s.Asks p events m) (hm : s.steps? p events = some m) (he : m.step? p e = some m') {x' : Download}
    (hle : s.downloads.length ≤ d) (hd' : m'.downloads[d]? = some x') (hpast : x'.phase.toGo ≤ 6) :
    d ∈ askers (events ++ [e]) ∨ s.TurnedAway p (events ++ [e]) d := by
  rw [mem_askers_snoc_iff, turnedAway_snoc_iff hm]
  rcases (turn_of_step? he).exists_before hd' with ⟨x, hx⟩ | ⟨-, hspawned⟩
  · rcases (ways_of_step? he hx hd').2 with ⟨heq, -⟩ | ⟨haway, -⟩ | ⟨-, -, hpast'⟩
    · exact Or.inl (Or.inr heq)
    · exact Or.inr (Or.inr haway)
    · exact (h.done d x hle hx (hpast' hpast)).imp Or.inl Or.inl
  · rw [hspawned, Phase.toGo] at hpast
    omega

theorem rest_step (h : s.Asks p events m) (hm : s.steps? p events = some m) (he : m.step? p e = some m') {x' : Download}
    (hlt : d < s.downloads.length) (hd' : m'.downloads[d]? = some x') : x'.phase.toGo ≤ 1 := by
  have hlength : s.downloads.length ≤ m.downloads.length :=
    steps?_induction (motive := fun _ x => s.downloads.length ≤ x.downloads.length) (Nat.le_refl _)
      (fun _ _ _ _ _ hle hs => Nat.le_trans hle (turn_of_step? hs).downloads_length_le) hm
  rcases (turn_of_step? he).exists_before hd' with ⟨x, hx⟩ | ⟨hlast, -⟩
  · have h1 := h.rest d x hlt hx
    rcases (ways_of_step? he hx hd').2 with ⟨-, h7, -⟩ | ⟨-, h8, -⟩ | ⟨-, hle, -⟩ <;> omega
  · omega

/-- Every step of a run goes on with the record of its questions. -/
theorem step (h : s.Asks p events m) (hm : s.steps? p events = some m) (he : m.step? p e = some m') :
    s.Asks p (events ++ [e]) m' where
  asked := h.asked_step he
  nodup := h.nodup_step he
  past := fun _ hd => h.past_step he hd
  away := fun _ haway => h.away_step hm he haway
  done := fun _ _ hle hd' hpast => h.done_step hm he hle hd' hpast
  rest := fun _ _ hlt hd' => h.rest_step hm he hlt hd'

end State.Asks

/-- In a run from a state in which all downloads are over, each download asks once at most, and once it is past its question exactly
if it was not turned away. -/
theorem State.asks_of_steps? (hover : ∀ x ∈ s.downloads, x.phase.toGo ≤ 1) (h : s.steps? p events = some m) : s.Asks p events m :=
  steps?_induction (motive := fun es x => s.Asks p es x) (.start hover) (fun _ _ _ _ hes ih he => ih.step hes he) h

/-- In a run from a state in which all downloads are over, with which downloads were begun for some images, the source was asked for
nothing but these images and for none twice, and if the download of one has ended it was asked for it exactly if the download was not
turned away. -/
theorem State.Asks.images {images : List String} (h : s.Asks p events m)
    (begun : m.downloads.map (·.url) = s.downloads.map (·.url) ++ images) (hn : images.Nodup) :
    ∃ asked, m.asked = s.asked ++ asked ∧ asked.Nodup ∧ asked ⊆ images ∧
      ∀ d image, s.downloads.length ≤ d → m.downloads[d]? = some ⟨image, .ended⟩ →
        (image ∈ asked ↔ ¬s.TurnedAway p events d) := by
  have himage : ∀ d, s.downloads.length ≤ d → (m.downloads[d]?).map (·.url) = images[d - s.downloads.length]? := fun d hle => by
    rw [← List.getElem?_map, begun, List.getElem?_append_right (by simpa using hle), List.length_map]
  -- two downloads of the run for one image are one
  have hsame : ∀ {d d' : Nat} {image : String}, s.downloads.length ≤ d → s.downloads.length ≤ d' →
      (m.downloads[d]?).map (·.url) = some image → (m.downloads[d']?).map (·.url) = some image → d = d' :=
    fun {d d' image} hle hle' hd hd' => by
      rw [himage d hle] at hd
      rw [himage d' hle'] at hd'
      have := (List.getElem?_inj (List.getElem?_eq_some_iff.mp hd).1 hn).mp (hd.trans hd'.symm)
      omega
  refine ⟨_, h.asked, ?_, fun image hmem => ?_, fun d image hle hd => ?_⟩
  · refine List.pairwise_filterMap.mpr (h.nodup.imp_of_mem fun {d d'} hd hd' hne image himage image' himage' heq => ?_)
    subst heq
    exact hne (hsame (h.past d hd).1 (h.past d' hd').1 himage himage')
  · obtain ⟨d, hd, hurl⟩ := List.mem_filterMap.mp hmem
    rw [himage d (h.past d hd).1] at hurl
    exact List.mem_of_getElem? hurl
  · have hurl : (m.downloads[d]?).map (·.url) = some image := by rw [hd, Option.map_some]
    rw [List.mem_filterMap]
    constructor
    · rintro ⟨d', hd', hurl'⟩ haway
      obtain rfl := hsame hle (h.past d' hd').1 hurl hurl'
      exact (h.away d haway).1 hd'
    · intro haway
      exact ⟨d, (h.done d _ hle hd (Nat.zero_le _)).resolve_right haway, hurl⟩

end ChannelWatch.Cache
