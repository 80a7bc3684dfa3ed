import ChannelWatch.Proofs.Cache.Answered
import ChannelWatch.Proofs.Cache.Onward

/-!
# Calls for many images

Calls for references to some images are made at once, and no download is over before all of them have looked at the cache and
registered (`State.Gathers`). They may do so in any order: of those for one image without a fresh entry, the one that registers first
(`IsFirst`) begins a download and is answered, and the others wait for this download (`State.Gathered`). If they register in the order
of their places, the first to register is the one in the first place. The invariant (`State.Gathering`) says of each call how far it
has come and ties the markers to the calls that have registered.
-/

namespace ChannelWatch.Cache

variable {p : Policy} {s m m' t : State} {e : Event} {urls made more : List String} {order extra : List Nat} {i j : Nat}
  {url image : String}

/-! ## Gathering -/

/-- The URL of the call that an event is. -/
def Event.called? : Event → Option String
  | .call _ url => some url
  | _ => none

theorem Event.called?_eq_none (h : ∀ purpose url, e ≠ .call purpose url) : e.called? = none := by
  cases e with
  | call purpose url => exact absurd rfl (h purpose url)
  | _ => rfl

/-- The call that registers with an event. -/
def Event.registered? : Event → Option Nat
  | .register c => some c
  | _ => none

theorem Event.registered?_eq_none (h : ∀ c, e ≠ .register c) : e.registered? = none := by
  cases e with
  | register c => exact absurd rfl (h c)
  | _ => rfl

/-- The calls that have registered in the course of some events, in the order in which they have. They are counted from those that
are there in the state `s`. -/
def State.registrations (s : State) (events : List Event) : List Nat :=
  (events.filterMap Event.registered?).map (· - s.calls.length)

/-- From the state `s`, calls for references to the images behind some URLs are made, and in the end each of them waits or is
answered. -/
structure State.Gathers (p : Policy) (s : State) (urls : List String) (events : List Event) (t : State) : Prop where
  run : s.steps? p events = some t
  /-- There is one call for each URL, in their order, and all are for references. -/
  made : events.filterMap Event.called? = urls
  resolves : ∀ url, Event.call .preload url ∉ events
  /-- No other call registers. -/
  own : ∀ c, Event.register c ∈ events → s.calls.length ≤ c
  /-- What a look at the images finds stays the same, and no download is over. -/
  steady : ∀ m e, s.Happens p events m e → ∀ url ∈ urls, m.look p (Link.secure url) = s.look p (Link.secure url)
  unfinished : ∀ d, Event.unmark d ∉ events
  /-- In the end, no call has a step to take that it could take by itself. -/
  done : ∀ c x, s.calls.length ≤ c → t.calls[c]? = some x → x.stage ≠ .looked ∧ x.stage ≠ .ready

/-! ## The first for an image -/

/-- Of the places in some order, this is the first whose URL has a given secure form. -/
def IsFirst (urls : List String) (order : List Nat) (i : Nat) (image : String) : Prop :=
  order.find? (fun j => (urls[j]?).map Link.secure = some image) = some i

namespace IsFirst

theorem mem (h : IsFirst urls order i image) : i ∈ order :=
  List.mem_of_find?_eq_some h

theorem secure_eq (h : IsFirst urls order i image) : (urls[i]?).map Link.secure = some image := by
  simpa using List.find?_some h

theorem unique (h : IsFirst urls order i image) (h' : IsFirst urls order j image) : i = j :=
  Option.some.inj (h.symm.trans h')

theorem mono (hrange : ∀ j ∈ order, j < made.length) (h : IsFirst made order i image) :
    IsFirst (made ++ more) (order ++ extra) i image := by
  obtain ⟨himage, before, after, rfl, hbefore⟩ := List.find?_eq_some_iff_append.mp h
  have hold : ∀ j ∈ before ++ i :: after, (made ++ more)[j]? = made[j]? := fun j hj => List.getElem?_append_left (hrange j hj)
  refine List.find?_eq_some_iff_append.mpr ⟨by rw [hold i (by simp)]; exact himage, before, after ++ extra, by simp, fun j hj => ?_⟩
  rw [hold j (List.mem_append_left _ hj)]
  exact hbefore j hj

/-- Among places in order, none for the image comes before the first one. -/
theorem le (h : IsFirst urls order i image) (hsorted : order.Pairwise (· < ·)) (hj : j ∈ order)
    (himage : (urls[j]?).map Link.secure = some image) : i ≤ j := by
  obtain ⟨-, before, after, rfl, hbefore⟩ := List.find?_eq_some_iff_append.mp h
  rcases List.mem_append.mp hj with hj | hj
  · simpa [himage] using hbefore j hj
  · rcases List.mem_cons.mp hj with rfl | hj
    · exact Nat.le_refl _
    · exact Nat.le_of_lt ((List.pairwise_cons.mp (List.pairwise_append.mp hsorted).2.1).1 j hj)

end IsFirst

theorem exists_isFirst (hj : j ∈ order) (himage : (urls[j]?).map Link.secure = some image) : ∃ i, IsFirst urls order i image :=
  Option.isSome_iff_exists.mp (List.find?_isSome.mpr ⟨j, hj, decide_eq_true himage⟩)

/-- Among places in order that hold all those for an image, the first one is that before which no other URL is of the image. -/
theorem isFirst_iff_of_pairwise (hsorted : order.Pairwise (· < ·)) (hi : (urls[i]?).map Link.secure = some image)
    (hall : ∀ j, (urls[j]?).map Link.secure = some image → j ∈ order) :
    IsFirst urls order i image ↔ ∀ j < i, (urls[j]?).map Link.secure ≠ some image := by
  constructor
  · intro h j hlt hj
    exact Nat.not_le_of_lt hlt (h.le hsorted (hall j hj) hj)
  · intro hnone
    obtain ⟨k, hk⟩ := exists_isFirst (hall i hi) hi
    have hge : i ≤ k := Nat.le_of_not_lt fun hlt => hnone k hlt hk.secure_eq
    exact Nat.le_antisymm (hk.le hsorted (hall i hi) hi) hge ▸ hk

theorem isFirst_append_self (hnone : ∀ j ∈ order, (urls[j]?).map Link.secure ≠ some image)
    (himage : (urls[i]?).map Link.secure = some image) : IsFirst urls (order ++ [i]) i image :=
  List.find?_eq_some_iff_append.mpr ⟨decide_eq_true himage, order, [], rfl, fun j hj => by simpa using hnone j hj⟩

/-! ## The invariant -/

/-- How far the call for the URL at a place has come, when calls were made for some URLs, those at some places have registered in
their order, and some markers are there. -/
inductive Stage.Fits (p : Policy) (s : State) (made : List String) (order : List Nat) (markers : List (String × Nat)) (i : Nat)
    (url : String) : Stage → Prop
  | missing (none : url = "") (unregistered : i ∉ order) : Fits p s made order markers i url (.answered .missing)
  | fresh (image : url ≠ "") (young : s.HasFresh p (Link.secure url)) (unregistered : i ∉ order) :
      Fits p s made order markers i url (.answered (.fresh (p.urlStart ++ nameFor url)))
  | looked (image : url ≠ "") (cold : ¬s.HasFresh p (Link.secure url)) (unregistered : i ∉ order) :
      Fits p s made order markers i url .looked
  | began (image : url ≠ "") (cold : ¬s.HasFresh p (Link.secure url)) (first : IsFirst made order i (Link.secure url)) :
      Fits p s made order markers i url .ready
  | told (image : url ≠ "") (cold : ¬s.HasFresh p (Link.secure url)) (first : IsFirst made order i (Link.secure url)) :
      Fits p s made order markers i url (.answered (s.reference p (Link.secure url)))
  | joined (d first : Nat) (image : url ≠ "") (cold : ¬s.HasFresh p (Link.secure url)) (registered : i ∈ order)
      (other : IsFirst made order first (Link.secure url)) (later : first ≠ i) (marked : (Link.secure url, d) ∈ markers) :
      Fits p s made order markers i url (.waiting d)

/-- A call is where it was when more calls are made, others register, and more markers come. -/
theorem Stage.Fits.mono {markers markers' : List (String × Nat)} {stage : Stage} (h : stage.Fits p s made order markers i url)
    (hrange : ∀ j ∈ order, j < made.length) (hi : i ∉ extra) (hmarkers : markers ⊆ markers') :
    stage.Fits p s (made ++ more) (order ++ extra) markers' i url := by
  have hout : i ∉ order → i ∉ order ++ extra := fun h => by simp [h, hi]
  cases h with
  | missing none unregistered => exact .missing none (hout unregistered)
  | fresh image young unregistered => exact .fresh image young (hout unregistered)
  | looked image cold unregistered => exact .looked image cold (hout unregistered)
  | began image cold first => exact .began image cold (first.mono hrange)
  | told image cold first => exact .told image cold (first.mono hrange)
  | joined d first image cold registered other later marked =>
    exact .joined d first image cold (List.mem_append_left _ registered) (other.mono hrange) later (hmarkers marked)

/-- A call that has registered is for an image that has no fresh entry, and has looked before. -/
theorem Stage.Fits.of_mem {markers : List (String × Nat)} {stage : Stage} (h : stage.Fits p s made order markers i url)
    (hi : i ∈ order) : url ≠ "" ∧ ¬s.HasFresh p (Link.secure url) ∧ stage ≠ .looked := by
  cases h with
  | missing _ unregistered | fresh _ _ unregistered | looked _ _ unregistered => exact absurd hi unregistered
  | began image cold | told image cold | joined _ _ image cold => exact ⟨image, cold, nofun⟩

/-- A call for an image without a fresh entry that has no step of its own to take has registered. -/
theorem Stage.Fits.mem {markers : List (String × Nat)} {stage : Stage} (h : stage.Fits p s made order markers i url)
    (himage : url ≠ "") (hcold : ¬s.HasFresh p (Link.secure url)) (hlooked : stage ≠ .looked) : i ∈ order := by
  cases h with
  | missing none => exact absurd none himage
  | fresh _ young => exact absurd young hcold
  | looked => exact absurd rfl hlooked
  | began _ _ first | told _ _ first => exact first.mem
  | joined _ _ _ _ registered => exact registered

section Fits

variable {markers : List (String × Nat)} {stage : Stage}

theorem Stage.Fits.eq_missing (h : stage.Fits p s made order markers i url) (hnone : url = "") : stage = .answered .missing := by
  cases h with
  | missing => rfl
  | fresh image | looked image | began image | told image | joined _ _ image => exact absurd hnone image

theorem Stage.Fits.eq_fresh (h : stage.Fits p s made order markers i url) (himage : url ≠ "") (hfresh : s.HasFresh p (Link.secure url)) :
    stage = .answered (.fresh (p.urlStart ++ nameFor url)) := by
  cases h with
  | missing none => exact absurd none himage
  | fresh => rfl
  | looked _ cold | began _ cold | told _ cold | joined _ _ _ cold => exact absurd hfresh cold

/-- The first call for an image without a fresh entry is answered with what there was, when it has no step of its own to take. -/
theorem Stage.Fits.eq_told (h : stage.Fits p s made order markers i url) (hcold : ¬s.HasFresh p (Link.secure url))
    (hfirst : IsFirst made order i (Link.secure url)) (hready : stage ≠ .ready) :
    stage = .answered (s.reference p (Link.secure url)) := by
  cases h with
  | missing _ unregistered | looked _ _ unregistered => exact absurd hfirst.mem unregistered
  | fresh _ young => exact absurd young hcold
  | began => exact absurd rfl hready
  | told => rfl
  | joined _ _ _ _ _ other later => exact absurd (other.unique hfirst) later

/-- Another call for the image waits for a download with a marker, when it has registered. -/
theorem Stage.Fits.exists_marked (h : stage.Fits p s made order markers i url) (himage : url ≠ "")
    (hcold : ¬s.HasFresh p (Link.secure url)) (hlater : ¬IsFirst made order i (Link.secure url)) (hlooked : stage ≠ .looked) :
    ∃ d, stage = .waiting d ∧ (Link.secure url, d) ∈ markers := by
  cases h with
  | missing none => exact absurd none himage
  | fresh _ young => exact absurd young hcold
  | looked => exact absurd rfl hlooked
  | began _ _ first | told _ _ first => exact absurd first hlater
  | joined d _ _ _ _ _ _ marked => exact ⟨d, rfl, marked⟩

end Fits

/-- From the state `s`, calls for some URLs were made and those at some places have registered, and it has come to `m`. -/
structure State.Gathering (p : Policy) (s : State) (made : List String) (order : List Nat) (m : State) : Prop where
  length : m.calls.length = s.calls.length + made.length
  range : ∀ j ∈ order, j < made.length
  stages : ∀ i url, made[i]? = some url → ∃ stage, m.calls[s.calls.length + i]? = some ⟨.resolve, Link.secure url, stage⟩ ∧
    stage.Fits p s made order m.markers i url
  images : m.downloads.map (·.url) = s.downloads.map (·.url) ++ (m.markers.map (·.1)).reverse
  since : ∀ x ∈ m.markers, s.downloads.length ≤ x.2
  begun : ∀ image, m.marker? image ≠ none ↔ ∃ j ∈ order, (made[j]?).map Link.secure = some image

namespace State.Gathering

/-- Nothing has been gathered yet. -/
theorem start (hidle : s.markers = []) : Gathering p s [] [] s where
  length := rfl
  range := nofun
  stages := nofun
  images := by simp [hidle]
  since := by simp [hidle]
  begun := fun image => by simp [marker?, hidle]

/-- What leaves the calls since the beginning, the markers and the URLs of the downloads alone changes nothing. -/
theorem quiet (h : Gathering p s made order m) (length : m'.calls.length = m.calls.length)
    (calls : ∀ i, m'.calls[s.calls.length + i]? = m.calls[s.calls.length + i]?) (markers : m'.markers = m.markers)
    (urls : m'.downloads.map (·.url) = m.downloads.map (·.url)) : Gathering p s made order m' where
  length := length.trans h.length
  range := h.range
  stages := fun i url hi => by rw [calls, markers]; exact h.stages i url hi
  images := by rw [urls, markers]; exact h.images
  since := markers ▸ h.since
  begun := fun image => by rw [marker?, markers]; exact h.begun image

/-- One more call is made and has a first look. -/
theorem call (h : Gathering p s made order m) (hlook : m.look p (Link.secure url) = s.look p (Link.secure url))
    (calls : m'.calls = m.calls ++ [⟨.resolve, Link.secure url, m.firstStage p .resolve url⟩]) (markers : m'.markers = m.markers)
    (urls : m'.downloads.map (·.url) = m.downloads.map (·.url)) : Gathering p s (made ++ [url]) order m' := by
  have hstage : m.firstStage p .resolve url = s.firstStage p .resolve url := by
    simp only [firstStage, firstRef?, hlook]
  have hcall : ∀ i, m'.calls[s.calls.length + i]? =
      if i = made.length then some ⟨.resolve, Link.secure url, s.firstStage p .resolve url⟩
      else m.calls[s.calls.length + i]? := fun i => by
    simp only [calls, hstage, getElem?_append_singleton, h.length, Nat.add_left_cancel_iff]
  have hnew : made.length ∉ order := fun hmem => Nat.lt_irrefl _ (h.range _ hmem)
  refine {
    length := by rw [calls, List.length_append, List.length_append, h.length]; rfl
    range := fun j hj => by have := h.range j hj; simp only [List.length_append]; omega
    stages := fun i url' hi => ?_
    images := by rw [urls, markers]; exact h.images
    since := markers ▸ h.since
    begun := fun image => ?_ }
  · rw [hcall, markers]
    rw [getElem?_append_singleton] at hi
    split at hi
    · rename_i hlast
      subst hlast
      obtain rfl := Option.some.inj hi
      rw [if_pos rfl]
      refine ⟨_, rfl, ?_⟩
      by_cases himage : url = ""
      · subst himage
        exact .missing rfl hnew
      · by_cases hfresh : s.HasFresh p (Link.secure url)
        · rw [firstStage_of_hasFresh himage hfresh]
          exact .fresh himage hfresh hnew
        · rw [firstStage_of_not_hasFresh himage hfresh]
          exact .looked himage hfresh hnew
    · rename_i hlast
      rw [if_neg hlast]
      obtain ⟨stage, hc, hfits⟩ := h.stages i url' hi
      have hmono : stage.Fits p s (made ++ [url]) (order ++ []) m.markers i url' :=
        hfits.mono h.range List.not_mem_nil (List.Subset.refl _)
      exact ⟨stage, hc, by rwa [List.append_nil] at hmono⟩
  · rw [marker?, markers]
    refine (h.begun image).trans (exists_congr fun j => and_congr_right fun hj => ?_)
    rw [List.getElem?_append_left (h.range j hj)]

/-- A call that has found no fresh entry goes on to a stage after its registration, with which its image is marked. -/
theorem advance (h : Gathering p s made order m) {old new : Stage} (hmade : made[i]? = some url)
    (here : m.calls[s.calls.length + i]? = some ⟨.resolve, Link.secure url, old⟩)
    (calls : m'.calls = m.calls.set (s.calls.length + i) ⟨.resolve, Link.secure url, new⟩) (hextra : ∀ j ∈ extra, j = i)
    (fits : new.Fits p s made (order ++ extra) m'.markers i url) (markers : m.markers ⊆ m'.markers)
    (images : m'.downloads.map (·.url) = s.downloads.map (·.url) ++ (m'.markers.map (·.1)).reverse)
    (since : ∀ x ∈ m'.markers, s.downloads.length ≤ x.2)
    (begun : ∀ image, m'.marker? image ≠ none ↔ ∃ j ∈ order ++ extra, (made[j]?).map Link.secure = some image) :
    Gathering p s made (order ++ extra) m' where
  length := by rw [calls, List.length_set]; exact h.length
  range := fun j hj => by
    rcases List.mem_append.mp hj with hj | hj
    · exact h.range j hj
    · exact hextra j hj ▸ (List.getElem?_eq_some_iff.mp hmade).1
  stages := fun j url' hj => by
    rw [calls, getElem?_set_of_eq_some here]
    by_cases hji : j = i
    · subst hji
      obtain rfl := Option.some.inj (hmade.symm.trans hj)
      exact ⟨new, if_pos rfl, fits⟩
    · rw [if_neg (by omega)]
      obtain ⟨stage, hc, hfits⟩ := h.stages j url' hj
      have hmono : stage.Fits p s (made ++ []) (order ++ extra) m'.markers j url' :=
        hfits.mono h.range (fun hmem => hji (hextra j hmem)) markers
      exact ⟨stage, hc, by rwa [List.append_nil] at hmono⟩
  images := images
  since := since
  begun := begun

/-- A step of a call that was there before changes nothing. -/
theorem earlier (h : Gathering p s made order m) {c : Nat} {purpose : Purpose} {old new : Stage}
    (hc : m.calls[c]? = some ⟨purpose, url, old⟩) (hlt : c < s.calls.length) : Gathering p s made order (m.setStage c new) := by
  refine h.quiet ?_ (fun i => ?_) rfl rfl
  · rw [calls_setStage hc, List.length_set]
  · rw [calls_setStage hc, getElem?_set_of_eq_some hc, if_neg (by omega)]

/-- A call that is there since the beginning is the one for the URL at some place. -/
theorem exists_made (h : Gathering p s made order m) {x : Call} (hc : m.calls[s.calls.length + i]? = some x) :
    ∃ url stage, made[i]? = some url ∧ x = ⟨.resolve, Link.secure url, stage⟩ ∧ stage.Fits p s made order m.markers i url := by
  have hlt := (List.getElem?_eq_some_iff.mp hc).1
  rw [h.length] at hlt
  have hmade := List.getElem?_eq_getElem (l := made) (i := i) (by omega)
  obtain ⟨stage, hstage, hfits⟩ := h.stages i _ hmade
  exact ⟨_, stage, hmade, Option.some.inj (hc.symm.trans hstage), hfits⟩

/-- A call that registers for an image without a marker begins a download as the first for its image. -/
theorem begin (h : Gathering p s made order m) (hmade : made[i]? = some url)
    (here : m.calls[s.calls.length + i]? = some ⟨.resolve, Link.secure url, .looked⟩) (himage : url ≠ "")
    (hcold : ¬s.HasFresh p (Link.secure url)) (hm : m.marker? (Link.secure url) = none) :
    Gathering p s made (order ++ [i]) ((m.spawn (Link.secure url)).setStage (s.calls.length + i) .ready) := by
  have hsecure : (made[i]?).map Link.secure = some (Link.secure url) := by rw [hmade, Option.map_some]
  have hfirst : IsFirst made (order ++ [i]) i (Link.secure url) :=
    isFirst_append_self (fun j hj himage => (h.begun _).mpr ⟨j, hj, himage⟩ hm) hsecure
  have hlength : m.downloads.length = (m.downloads.map (·.url)).length := (List.length_map _).symm
  refine h.advance hmade here (calls_setStage (s := m.spawn (Link.secure url)) here _) (fun j hj => List.mem_singleton.mp hj)
    (.began himage hcold hfirst) (List.subset_cons_self _ _) ?_ ?_ (fun image => ?_)
  · simp [setStage, spawn, h.images]
  · intro x hx
    rcases List.mem_cons.mp hx with rfl | hx
    · rw [h.images, List.length_append, List.length_map] at hlength
      exact hlength ▸ Nat.le_add_right _ _
    · exact h.since x hx
  · have hmarker : ((m.spawn (Link.secure url)).setStage (s.calls.length + i) .ready).marker? image =
        if Link.secure url = image then some m.downloads.length else m.marker? image := by
      simp only [marker?, setStage, spawn, List.find?_cons]
      split <;> simp_all
    have hsplit : (∃ j ∈ order ++ [i], (made[j]?).map Link.secure = some image) ↔
        (∃ j ∈ order, (made[j]?).map Link.secure = some image) ∨ Link.secure url = image := by
      simp only [List.mem_append, List.mem_singleton, or_and_right, exists_or, exists_eq_left, hsecure, Option.some.injEq]
    rw [hmarker, hsplit, ← h.begun]
    by_cases heq : Link.secure url = image <;> simp [heq]

/-- A call that registers for an image with a marker joins the download that another call has begun. -/
theorem join (h : Gathering p s made order m) (hmade : made[i]? = some url)
    (here : m.calls[s.calls.length + i]? = some ⟨.resolve, Link.secure url, .looked⟩) (himage : url ≠ "")
    (hcold : ¬s.HasFresh p (Link.secure url)) (hi : i ∉ order) {d : Nat} (hm : m.marker? (Link.secure url) = some d) :
    Gathering p s made (order ++ [i]) (m.setStage (s.calls.length + i) (.waiting d)) := by
  have hmarked : m.marker? (Link.secure url) ≠ none := hm ▸ nofun
  obtain ⟨j, hj, hjimage⟩ := (h.begun _).mp hmarked
  obtain ⟨first, hfirst⟩ := exists_isFirst hj hjimage
  have hfirst' : IsFirst (made ++ []) (order ++ [i]) first (Link.secure url) := hfirst.mono h.range
  rw [List.append_nil] at hfirst'
  have hlater : first ≠ i := by
    rintro rfl
    exact hi hfirst.mem
  refine h.advance hmade here (calls_setStage here _) (fun j hj => List.mem_singleton.mp hj)
    (.joined d first himage hcold (by simp) hfirst' hlater (mem_markers_of_marker? hm)) (List.Subset.refl _) h.images h.since
    (fun image => (h.begun image).trans ?_)
  constructor
  · rintro ⟨k, hk, hkimage⟩
    exact ⟨k, List.mem_append_left _ hk, hkimage⟩
  · rintro ⟨k, hk, hkimage⟩
    rcases List.mem_append.mp hk with hk | hk
    · exact ⟨k, hk, hkimage⟩
    · obtain rfl := List.mem_singleton.mp hk
      rw [hmade, Option.map_some] at hkimage
      exact ⟨j, hj, hjimage.trans hkimage⟩

/-- A call that looks again is the first for its image, and is answered with what there was in the beginning. -/
theorem answer (h : Gathering p s made order m) (hmade : made[i]? = some url)
    (here : m.calls[s.calls.length + i]? = some ⟨.resolve, Link.secure url, .ready⟩) (himage : url ≠ "")
    (hcold : ¬s.HasFresh p (Link.secure url)) (hfirst : IsFirst made order i (Link.secure url)) :
    Gathering p s made order (m.setStage (s.calls.length + i) (.answered (s.reference p (Link.secure url)))) := by
  have hgoes : Gathering p s made (order ++ []) (m.setStage (s.calls.length + i) (.answered (s.reference p (Link.secure url)))) := by
    refine h.advance hmade here (calls_setStage here _) nofun (.told himage hcold ?_) (List.Subset.refl _) h.images h.since ?_
    · rwa [List.append_nil]
    · rw [List.append_nil]
      exact h.begun
  rwa [List.append_nil] at hgoes

end State.Gathering

/-- Markers come with registrations and go when they are taken down. -/
theorem Turn.markers_eq {s' : State} (t : Turn s e s') (hr : ∀ c, e ≠ .register c) (hu : ∀ d, e ≠ .unmark d) :
    s'.markers = s.markers := by
  cases t with
  | idle _ markers => exact markers
  | begin c => exact absurd rfl (hr c)
  | go d url old new _ next _ markers =>
    rw [markers, if_neg]
    rintro rfl
    exact hu d next.eq_unmark.1

/-- Every step of a gathering run goes on with it. -/
theorem State.Gathering.step (h : Gathering p s made order m) (hb : m.Bookkept) (he : m.step? p e = some m')
    (hresolves : ∀ url, e ≠ .call .preload url) (hown : ∀ c, e = .register c → s.calls.length ≤ c)
    (hsteady : ∀ url ∈ made ++ e.called?.toList, m.look p (Link.secure url) = s.look p (Link.secure url))
    (hunfinished : ∀ d, e ≠ .unmark d) :
    Gathering p s (made ++ e.called?.toList) (order ++ e.registered?.toList.map (· - s.calls.length)) m' := by
  have hmade : (∀ purpose url, e ≠ .call purpose url) → made ++ e.called?.toList = made := fun h => by
    rw [Event.called?_eq_none h, Option.toList_none, List.append_nil]
  have horder : (∀ c, e ≠ .register c) → order ++ e.registered?.toList.map (· - s.calls.length) = order := fun h => by
    rw [Event.registered?_eq_none h, Option.toList_none, List.map_nil, List.append_nil]
  cases e with
  | call purpose url =>
    obtain rfl := Option.some.inj he
    rw [horder nofun]
    cases purpose with
    | preload => exact absurd rfl (hresolves url)
    | resolve => exact h.call (hsteady url (by simp [Event.called?])) (by rw [beginCall_eq]) rfl rfl
  | register c =>
    obtain ⟨i, rfl⟩ := Nat.exists_eq_add_of_le (hown c rfl)
    obtain ⟨purpose, url', hc, hcases⟩ := register?_eq_some_iff.mp he
    obtain ⟨url, stage, hi, heq, hfits⟩ := h.exists_made hc
    obtain ⟨rfl, rfl, rfl⟩ := Call.mk.inj heq
    have hplace : (Event.register (s.calls.length + i)).registered?.toList.map (· - s.calls.length) = [i] := by
      simp [Event.registered?]
    rw [hmade nofun, hplace]
    cases hfits with
    | looked himage hcold hout =>
      rcases hcases with ⟨d, hm, rfl⟩ | ⟨hm, rfl⟩
      · exact h.join hi hc himage hcold hout hm
      · exact h.begin hi hc himage hcold hm
  | proceed c =>
    obtain ⟨purpose, url', d, hc, hd, rfl⟩ := proceed?_eq_some_iff.mp he
    rw [hmade nofun, horder nofun]
    rcases Nat.lt_or_ge c s.calls.length with hlt | hle
    · exact h.earlier hc hlt
    · -- a call of the run waits for a download whose marker is in place
      obtain ⟨i, rfl⟩ := Nat.exists_eq_add_of_le hle
      obtain ⟨url, stage, hi, heq, hfits⟩ := h.exists_made hc
      obtain ⟨rfl, rfl, rfl⟩ := Call.mk.inj heq
      cases hfits with
      | joined _ _ _ _ _ _ _ hmarked =>
        obtain ⟨phase, hphase, hin⟩ := (hb.marker_iff _ d).mp hmarked
        rw [phase?_eq_some_iff.mpr ⟨_, hphase⟩] at hd
        obtain rfl := Option.some.inj hd
        nomatch hin
  | lookAgain c =>
    obtain ⟨purpose, url', hc, rfl⟩ := lookAgain?_eq_some_iff.mp he
    rw [hmade nofun, horder nofun]
    rcases Nat.lt_or_ge c s.calls.length with hlt | hle
    · exact h.earlier hc hlt
    · obtain ⟨i, rfl⟩ := Nat.exists_eq_add_of_le hle
      obtain ⟨url, stage, hi, heq, hfits⟩ := h.exists_made hc
      obtain ⟨rfl, rfl, rfl⟩ := Call.mk.inj heq
      cases hfits with
      | began himage hcold hfirst =>
        rw [hsteady url (List.mem_append_left _ (List.mem_of_getElem? hi)), refer_look]
        exact h.answer hi hc himage hcold hfirst
  | unmark d => exact absurd rfl (hunfinished d)
  | _ =>
    rw [hmade nofun, horder nofun]
    have hcalls : m'.calls = m.calls := by
      cases callTurn_of_step? he with
      | idle calls => exact calls
      | go _ _ _ _ _ _ next => nomatch next
    refine h.quiet (by rw [hcalls]) (fun i => by rw [hcalls]) ((turn_of_step? he).markers_eq nofun nofun) ?_
    rcases (turn_of_step? he).urls with hurls | ⟨c, _, heq, -⟩
    · exact hurls
    · nomatch heq

/-- A run that gathers calls keeps the invariant. -/
theorem State.Gathers.gathering {events : List Event} (h : s.Gathers p urls events t) (hr : Reachable p s) (hidle : s.markers = []) :
    Gathering p s urls (s.registrations events) t := by
  suffices hall : events <+: events → Gathering p s (events.filterMap Event.called?) (s.registrations events) t from
    h.made ▸ hall (List.prefix_refl _)
  refine steps?_induction (motive := fun es m => es <+: events →
    Gathering p s (es.filterMap Event.called?) (s.registrations es) m) (fun _ => .start hidle) (fun es m e m' hes ih he hprefix => ?_) h.run
  obtain ⟨rest, hrest⟩ := hprefix
  have hsplit : events = es ++ e :: rest := by rw [← hrest, List.append_assoc]; rfl
  have hhappens : s.Happens p events m e := ⟨es, rest, hsplit, hes⟩
  have hmem : e ∈ events := hsplit ▸ List.mem_append_right _ List.mem_cons_self
  rw [filterMap_concat, registrations, filterMap_concat, List.map_append]
  refine (ih ⟨e :: rest, hsplit.symm⟩).step (hr.steps? hes).bookkept he (fun url heq => h.resolves url (heq ▸ hmem))
    (fun c heq => h.own c (heq ▸ hmem)) (fun url hurl => h.steady m e hhappens url ?_) (fun d heq => h.unfinished d (heq ▸ hmem))
  rw [← h.made, ← hrest, List.filterMap_append, filterMap_concat]
  exact List.mem_append_left _ hurl

/-! ## What is gathered -/

/-- What the calls for the images behind some URLs, made at once in the state `s`, have come to in the state `t`, when those that have
to have registered in some order. The images are those that downloads were begun for. -/
structure State.Gathered (p : Policy) (s : State) (urls : List String) (order : List Nat) (images : List String) (t : State) : Prop where
  /-- There is a call for each URL, in the place of the URL. -/
  length : t.calls.length = s.calls.length + urls.length
  /-- Without a URL, there is no image. -/
  missing : ∀ i, urls[i]? = some "" → t.answer? (s.calls.length + i) = some .missing
  /-- A fresh entry is the answer. -/
  fresh : ∀ i url, urls[i]? = some url → url ≠ "" → s.HasFresh p (Link.secure url) →
    t.answer? (s.calls.length + i) = some (.fresh (p.urlStart ++ nameFor url))
  /-- Without one, one of the calls for an image has registered first. -/
  led : ∀ url ∈ urls, url ≠ "" → ¬s.HasFresh p (Link.secure url) → ∃ i, IsFirst urls order i (Link.secure url)
  /-- This call is answered with what there was before. -/
  first : ∀ i url, urls[i]? = some url → url ≠ "" → ¬s.HasFresh p (Link.secure url) → IsFirst urls order i (Link.secure url) →
    t.answer? (s.calls.length + i) = some (match s.directory.find? (nameFor url) with
      | some _ => .stale (p.urlStart ++ nameFor url)
      | none => .remote (Link.secure url))
  /-- All others wait for the download that was begun for the image. -/
  later : ∀ i url, urls[i]? = some url → url ≠ "" → ¬s.HasFresh p (Link.secure url) → ¬IsFirst urls order i (Link.secure url) →
    ∃ d, s.downloads.length ≤ d ∧ t.WaitsFor p (s.calls.length + i) (Link.secure url) d
  /-- If the calls have registered in the order of their places, the first for an image is the one in the first of its places. -/
  inPlace : order.Pairwise (· < ·) → ∀ i url, urls[i]? = some url → url ≠ "" → ¬s.HasFresh p (Link.secure url) →
    (IsFirst urls order i (Link.secure url) ↔ ∀ j < i, ∀ url', urls[j]? = some url' → Link.secure url' ≠ Link.secure url)
  /-- For each image without a fresh entry one download was begun, and none for anything else. -/
  begun : t.downloads.map (·.url) = s.downloads.map (·.url) ++ images
  nodup : images.Nodup
  mem_iff : ∀ image, image ∈ images ↔ ∃ url ∈ urls, url ≠ "" ∧ Link.secure url = image ∧ ¬s.HasFresh p image

/-- A download with a marker has not told that it is over. -/
theorem State.Bookkept.isTold_of_marked (h : s.Bookkept) {d : Nat} (hm : (image, d) ∈ s.markers) : s.isTold d = false := by
  obtain ⟨phase, hd, hin⟩ := (h.marker_iff image d).mp hm
  refine Bool.eq_false_iff.mpr fun htold => ?_
  have hended : phase = .ended := Option.some.inj ((phase?_eq_some_iff.mpr ⟨image, hd⟩).symm.trans (isTold_iff.mp htold))
  nomatch hended ▸ hin

/-- Calls that have been gathered in a cache with nothing in flight share one download for each image without a fresh entry. -/
theorem State.Gathers.gathered {events : List Event} (h : s.Gathers p urls events t) (hr : Reachable p s) (hidle : s.markers = []) :
    s.Gathered p urls (s.registrations events) (t.markers.map (·.1)).reverse t := by
  have g := h.gathering hr hidle
  have ht := hr.steps? h.run
  have hcall : ∀ {i : Nat} {url : String}, urls[i]? = some url → ∃ stage,
      t.calls[s.calls.length + i]? = some ⟨.resolve, Link.secure url, stage⟩ ∧
      stage.Fits p s urls (s.registrations events) t.markers i url ∧ stage ≠ .looked ∧ stage ≠ .ready := fun hi => by
    obtain ⟨stage, hc, hfits⟩ := g.stages _ _ hi
    exact ⟨stage, hc, hfits, h.done _ _ (Nat.le_add_right _ _) hc⟩
  have hanswer : ∀ {c : Nat} {url : String} {ref : ImageRef}, t.calls[c]? = some ⟨.resolve, url, .answered ref⟩ →
      t.answer? c = some ref := fun hc => answer?_eq_some_iff.mpr ⟨_, _, hc⟩
  have himages : ∀ {i : Nat} {url : String}, urls[i]? = some url → (urls[i]?).map Link.secure = some (Link.secure url) :=
    fun hi => by rw [hi, Option.map_some]
  have hmem : ∀ {i : Nat} {url : String}, urls[i]? = some url → url ≠ "" → ¬s.HasFresh p (Link.secure url) →
      i ∈ s.registrations events := fun hi himage hcold => by
    obtain ⟨stage, -, hfits, hlooked, -⟩ := hcall hi
    exact hfits.mem himage hcold hlooked
  refine {
    length := g.length
    missing := fun i hi => ?_
    fresh := fun i url hi himage hfresh => ?_
    led := fun url hurl himage hcold => ?_
    first := fun i url hi himage hcold hfirst => ?_
    later := fun i url hi himage hcold hlater => ?_
    inPlace := fun hsorted i url hi himage hcold => ?_
    begun := g.images
    nodup := (List.reverse_perm _).nodup_iff.mpr ht.bookkept.keys_nodup
    mem_iff := fun image => ?_ }
  · obtain ⟨stage, hc, hfits, -⟩ := hcall hi
    exact hanswer (hfits.eq_missing rfl ▸ hc)
  · obtain ⟨stage, hc, hfits, -⟩ := hcall hi
    exact hanswer (hfits.eq_fresh himage hfresh ▸ hc)
  · obtain ⟨i, hi⟩ := List.mem_iff_getElem?.mp hurl
    exact exists_isFirst (hmem hi himage hcold) (himages hi)
  · obtain ⟨stage, hc, hfits, -, hready⟩ := hcall hi
    rw [hanswer (hfits.eq_told hcold hfirst hready ▸ hc), reference_of_not_hasFresh hcold]
    rfl
  · obtain ⟨stage, hc, hfits, hlooked, -⟩ := hcall hi
    obtain ⟨d, rfl, hmarked⟩ := hfits.exists_marked himage hcold hlater hlooked
    exact ⟨d, g.since _ hmarked, ht.waitsFor hc (ht.bookkept.isTold_of_marked hmarked)⟩
  · -- every place for the image is one that has registered
    refine (isFirst_iff_of_pairwise hsorted (himages hi) fun j hj => ?_).trans (forall₂_congr fun j _ => ?_)
    · obtain ⟨url', hj', heq⟩ := Option.map_eq_some_iff.mp hj
      have himage' : url' ≠ "" := fun hempty =>
        himage (Link.secure_eq_empty_iff.mp (heq.symm.trans (Link.secure_eq_empty_iff.mpr hempty)))
      exact hmem hj' himage' (heq ▸ hcold)
    · simp
  · rw [List.mem_reverse, ← Decidable.not_not (p := image ∈ _), ← marker?_eq_none_iff, ← ne_eq, g.begun]
    constructor
    · rintro ⟨i, hi, himage⟩
      obtain ⟨url, hurl, rfl⟩ := Option.map_eq_some_iff.mp himage
      obtain ⟨stage, -, hfits, -⟩ := hcall hurl
      obtain ⟨hne, hcold, -⟩ := hfits.of_mem hi
      exact ⟨url, List.mem_of_getElem? hurl, hne, rfl, hcold⟩
    · rintro ⟨url, hurl, himage, rfl, hcold⟩
      obtain ⟨i, hi⟩ := List.mem_iff_getElem?.mp hurl
      exact ⟨i, hmem hi himage hcold, himages hi⟩

end ChannelWatch.Cache
