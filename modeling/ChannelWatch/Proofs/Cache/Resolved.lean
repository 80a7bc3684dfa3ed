import ChannelWatch.Cache.Rest
import ChannelWatch.Proofs.Cache.Files

/-!
# Calls made alone

What a call is answered with when nothing else happens from its beginning to its answer: what a look at the cache finds, unless
the image is in flight and the call has to wait for a download (`State.resolved?_eq`).
-/

namespace ChannelWatch.Cache

variable {p : Policy} {s : State} {url : String}

/-- The answer to a call for an image that is made now and alone, if the call need not wait. -/
def State.resolved? (p : Policy) (s : State) (url : String) : Option ImageRef :=
  (s.callAll p .resolve [url]).2.answer? s.calls.length

/-- A call that is made alone looks, registers and looks again. -/
theorem State.resolved?_eq_answer? (p : Policy) (s : State) (url : String) : s.resolved? p url =
    ((s.beginCall p .resolve url).attempt p [.register s.calls.length, .lookAgain s.calls.length]).answer?
      s.calls.length := rfl

theorem State.calls_beginCall (p : Policy) (s : State) (purpose : Purpose) (url : String) :
    (s.beginCall p purpose url).calls[s.calls.length]? = some ⟨purpose, Link.secure url, s.firstStage p purpose url⟩ := by
  rw [beginCall_eq, getElem?_append_singleton, if_pos rfl]

/-- A call that its first look has answered keeps its answer. -/
theorem State.resolved?_of_answered {ref : ImageRef} (h : s.firstStage p .resolve url = .answered ref) :
    s.resolved? p url = some ref := by
  have hcall := h ▸ calls_beginCall p s .resolve url
  have hregister : (s.beginCall p .resolve url).step? p (.register s.calls.length) = none := by
    simp [step?, register?, hcall]
  have hagain : (s.beginCall p .resolve url).step? p (.lookAgain s.calls.length) = none := by
    simp [step?, lookAgain?, hcall]
  rw [resolved?_eq_answer?, attempt, hregister, Option.getD_none, attempt, hagain, Option.getD_none, attempt, answer?, hcall]

/-- A call that has found no fresh file waits if its image is in flight. -/
theorem State.resolved?_of_marked {d : Nat} (h : s.firstStage p .resolve url = .looked)
    (hm : s.marker? (Link.secure url) = some d) : s.resolved? p url = none := by
  have hcall := h ▸ calls_beginCall p s .resolve url
  have hregister : (s.beginCall p .resolve url).step? p (.register s.calls.length) = some _ :=
    register?_eq_some_iff.mpr ⟨_, _, hcall, Or.inl ⟨d, hm, rfl⟩⟩
  have hwaiting := getElem?_setStage_self hcall (.waiting d)
  have hagain : ((s.beginCall p .resolve url).setStage s.calls.length (.waiting d)).step? p (.lookAgain s.calls.length) =
      none := by
    simp [step?, lookAgain?, hwaiting]
  rw [resolved?_eq_answer?, attempt, hregister, Option.getD_some, attempt, hagain, Option.getD_none, attempt, answer?, hwaiting]

/-- A call that has found no fresh file for an image that is not in flight begins a download, and looks again before the download
does anything. -/
theorem State.resolved?_of_unmarked (h : s.firstStage p .resolve url = .looked)
    (hm : s.marker? (Link.secure url) = none) :
    s.resolved? p url = some (p.refer (Link.secure url) (s.look p (Link.secure url))) := by
  have hcall := h ▸ calls_beginCall p s .resolve url
  have hregister : (s.beginCall p .resolve url).step? p (.register s.calls.length) = some _ :=
    register?_eq_some_iff.mpr ⟨_, _, hcall, Or.inr ⟨hm, rfl⟩⟩
  have hready := getElem?_setStage_self (s := (s.beginCall p .resolve url).spawn (Link.secure url)) hcall .ready
  have hagain : (((s.beginCall p .resolve url).spawn (Link.secure url)).setStage s.calls.length .ready).step? p
      (.lookAgain s.calls.length) = some _ := lookAgain?_eq_some_iff.mpr ⟨_, _, hready, rfl⟩
  rw [resolved?_eq_answer?, attempt, hregister, Option.getD_some, attempt, hagain, Option.getD_some, attempt, answer?,
    getElem?_setStage_self hready]
  rfl

/-- A call that is made alone is answered at once if there is no image, or if the image is fresh. Otherwise it waits if the image
is in flight, and is answered with what it has found if it is not. -/
theorem State.resolved?_eq (p : Policy) (s : State) (url : String) : s.resolved? p url =
    if url = "" then some .missing
    else if s.look p (Link.secure url) = .fresh then some (.fresh (p.localRef (Link.secure url)))
    else if s.marker? (Link.secure url) = none then some (p.refer (Link.secure url) (s.look p (Link.secure url)))
    else none := by
  by_cases hu : url = ""
  · rw [if_pos hu]
    exact resolved?_of_answered (by simp [firstStage, firstRef?, hu, Stage.settled])
  · by_cases hfresh : s.look p (Link.secure url) = .fresh
    · rw [if_neg hu, if_pos hfresh]
      exact resolved?_of_answered (by simp [firstStage, firstRef?, hu, hfresh, Stage.settled])
    · have hlooked : s.firstStage p .resolve url = .looked := by simp [firstStage, firstRef?, hu, hfresh]
      rw [if_neg hu, if_neg hfresh]
      cases hm : s.marker? (Link.secure url) with
      | none => rw [if_pos rfl, resolved?_of_unmarked hlooked hm]
      | some d => rw [if_neg (Option.some_ne_none d), resolved?_of_marked hlooked hm]

/-- A call that is made alone is answered with a fresh file exactly if a look finds one. -/
theorem State.resolved?_eq_fresh_iff {href : String} : s.resolved? p url = some (.fresh href) ↔
    url ≠ "" ∧ s.look p (Link.secure url) = .fresh ∧ p.localRef (Link.secure url) = href := by
  rw [resolved?_eq]
  by_cases hu : url = "" <;> by_cases hm : s.marker? (Link.secure url) = none <;>
    cases hl : s.look p (Link.secure url) <;> simp [hu, hm, Policy.refer]

/-- A call that is made alone is answered with a stale file exactly if a look finds one and the image is not in flight. -/
theorem State.resolved?_eq_stale_iff {href : String} : s.resolved? p url = some (.stale href) ↔
    url ≠ "" ∧ s.marker? (Link.secure url) = none ∧ s.look p (Link.secure url) = .stale ∧
      p.localRef (Link.secure url) = href := by
  rw [resolved?_eq]
  by_cases hu : url = "" <;> by_cases hm : s.marker? (Link.secure url) = none <;>
    cases hl : s.look p (Link.secure url) <;> simp [hu, hm, Policy.refer]

/-- A call that is made alone is answered with the remote URL exactly if a look finds nothing and the image is not in flight. -/
theorem State.resolved?_eq_remote_iff {href : String} : s.resolved? p url = some (.remote href) ↔
    url ≠ "" ∧ s.marker? (Link.secure url) = none ∧ s.look p (Link.secure url) = .absent ∧ Link.secure url = href := by
  rw [resolved?_eq]
  by_cases hu : url = "" <;> by_cases hm : s.marker? (Link.secure url) = none <;>
    cases hl : s.look p (Link.secure url) <;> simp [hu, hm, Policy.refer]

end ChannelWatch.Cache
