import ChannelWatch.Proofs.Cache.Runs

/-!
# What the source has delivered

The record of deliveries in the state is the one that the events of a run give: a body is recorded when the source ends its
work on a download with success, and it is all that the source has written for that download.
-/

namespace ChannelWatch.Cache

variable {p : Policy} {s s' : State} {e : Event}

/-- The bytes that the source writes for a download with an event. -/
def Event.written (d : Nat) : Event → List UInt8
  | .write d' bytes => if d' = d then bytes else []
  | _ => []

/-- The step of another download writes nothing for this one. -/
theorem Event.written_of_ne {d : Nat} (h : e.download? ≠ some d) : e.written d = [] := by
  cases e with
  | write x bytes => exact if_neg fun hx => h (congrArg some hx)
  | _ => rfl

/-- What the source has written so far for a download that it can still write for. -/
def Phase.soFar? : Phase → Option (List UInt8)
  | .spawned | .queued | .admitted | .opened _ => some []
  | .fetching _ body => some body
  | .fetched _ | .cleaning | .leaving | .released | .unmarked | .ended => none

/-- A download goes on with what has been written for it before and what is written now. -/
theorem Phase.Next.soFar {d : Nat} {old new : Phase} {body : List UInt8} (h : Phase.Next d e old new)
    (hnew : new.soFar? = some body) : ∃ before, old.soFar? = some before ∧ body = before ++ e.written d := by
  cases h with
  | queue | acquire | create | ask =>
    obtain rfl := Option.some.inj hnew
    exact ⟨[], rfl, rfl⟩
  | write file before bytes =>
    obtain rfl := Option.some.inj hnew
    exact ⟨before, rfl, by simp [Event.written]⟩
  | _ => nomatch hnew

theorem Phase.Next.soFar_eq_none {d : Nat} {old new : Phase} (h : Phase.Next d e old new) (hold : old.soFar? = none) :
    new.soFar? = none := by
  cases h with
  | fail | crash | deliver | abandon => rfl
  | rename | keep | clean | release | unmark | signal => rfl
  | _ => nomatch hold

/-- A step writes only for a download that the source can write for. -/
theorem written_eq_nil {d : Nat} (h : s.step? p e = some s')
    (hd : ∀ url phase, s.downloads[d]? = some ⟨url, phase⟩ → phase.soFar? = none) : e.written d = [] := by
  cases e with
  | write x bytes =>
    by_cases hx : x = d
    · subst hx
      obtain ⟨url, file, body, hf, -⟩ := State.write?_eq_some_iff.mp h
      nomatch hd url _ hf
    · exact if_neg hx
  | _ => rfl

/-- A step delivers nothing, or the whole of what has been written for a download. -/
theorem delivered_of_step? (h : s.step? p e = some s') : s'.delivered = s.delivered ∨
    ∃ d url file body, e = .deliver d ∧ s.downloads[d]? = some ⟨url, .fetching file body⟩ ∧
      s'.downloads[d]? = some ⟨url, .fetched body⟩ ∧ s'.delivered = s.delivered ++ [(url, body)] := by
  cases e with
  | deliver d =>
    obtain ⟨url, file, body, hd, rfl⟩ := State.deliver?_eq_some_iff.mp h
    refine Or.inr ⟨d, url, file, body, rfl, hd, ?_, rfl⟩
    rw [State.downloads_setPhase hd, getElem?_set_of_eq_some hd, if_pos rfl]
  | create d =>
    obtain ⟨_, -, ⟨_, _, -, rfl⟩ | ⟨-, rfl⟩⟩ := State.create?_eq_some_iff.mp h
    · exact Or.inl rfl
    · exact Or.inl rfl
  | write d bytes =>
    obtain ⟨_, _, _, -, rfl⟩ := State.write?_eq_some_iff.mp h
    exact Or.inl rfl
  | rename d =>
    obtain ⟨_, _, -, ⟨_, -, rfl⟩ | ⟨-, rfl⟩⟩ := State.rename?_eq_some_iff.mp h
    · exact Or.inl rfl
    · exact Or.inl rfl
  | clean d =>
    obtain ⟨_, -, rfl⟩ := State.clean?_eq_some_iff.mp h
    exact Or.inl rfl
  | remove i =>
    obtain ⟨_, _, _, _, _, -, ⟨_, -, rfl⟩ | ⟨-, rfl⟩⟩ := State.remove?_eq_some_iff.mp h
    · exact Or.inl rfl
    · exact Or.inl rfl
  | _ => exact Or.inl (files_of_step? h rfl).2.2

/-- Nothing has been written or delivered for a download that has not begun. -/
theorem State.unbegun_of_steps? {events : List Event} (h : s.steps? p events = some s') {d : Nat}
    (hd : s'.downloads[d]? = none) : events.flatMap (·.written d) = [] ∧ Event.deliver d ∉ events := by
  refine steps?_induction (motive := fun es m => m.downloads[d]? = none → es.flatMap (·.written d) = [] ∧ Event.deliver d ∉ es)
    (fun _ => ⟨rfl, nofun⟩) (fun es m e m' _ ih he hd' => ?_) h hd
  have hnone := (turn_of_step? he).download_eq_none hd'
  have hother := download?_ne_of_none he hnone
  obtain ⟨hwritten, hdelivered⟩ := ih hnone
  constructor
  · rw [List.flatMap_append, List.flatMap_singleton, hwritten, Event.written_of_ne hother, List.nil_append]
  · rw [List.mem_append, List.mem_singleton]
    rintro (hmem | rfl)
    · exact hdelivered hmem
    · exact hother rfl

/-- What the events of a run say about the bodies: those written so far, and those delivered whole, after which nothing more
is written for the download. -/
structure State.Recorded (events : List Event) (s : State) : Prop where
  bodies : ∀ (d : Nat) (url : String) (phase : Phase) (body : List UInt8), s.downloads[d]? = some ⟨url, phase⟩ →
    phase.soFar? = some body → events.flatMap (·.written d) = body
  later : ∀ d, s.downloads[d]? = none → events.flatMap (·.written d) = []
  delivered : ∀ url body, (url, body) ∈ s.delivered → ∃ d phase, s.downloads[d]? = some ⟨url, phase⟩ ∧
    phase.soFar? = none ∧ Event.deliver d ∈ events ∧ events.flatMap (·.written d) = body

namespace State.Recorded

variable {events : List Event}

/-- A step keeps the bodies written so far. -/
theorem bodies_step (h : s.Recorded events) (hs : s.step? p e = some s') {d : Nat} {url : String} {phase : Phase}
    {body : List UInt8} (hd' : s'.downloads[d]? = some ⟨url, phase⟩) (hbody : phase.soFar? = some body) :
    (events ++ [e]).flatMap (·.written d) = body := by
  rw [List.flatMap_append, List.flatMap_singleton]
  rcases (turn_of_step? hs).download_came hd' with ⟨old, hd, ⟨rfl, he⟩ | next⟩ | ⟨hlast, rfl, -⟩
  · rw [h.bodies d url phase body hd hbody, Event.written_of_ne he, List.append_nil]
  · obtain ⟨before, hbefore, rfl⟩ := next.soFar hbody
    rw [h.bodies d url old before hd hbefore]
  · have hnone : s.downloads[d]? = none := List.getElem?_eq_none (Nat.le_of_eq hlast.symm)
    rw [h.later d hnone, Event.written_of_ne (download?_ne_of_none hs hnone)]
    exact Option.some.inj hbody

/-- A step writes nothing for a download that is not there after it. -/
theorem later_step (h : s.Recorded events) (hs : s.step? p e = some s') {d : Nat} (hd' : s'.downloads[d]? = none) :
    (events ++ [e]).flatMap (·.written d) = [] := by
  have hd := (turn_of_step? hs).download_eq_none hd'
  rw [List.flatMap_append, List.flatMap_singleton, h.later d hd, Event.written_of_ne (download?_ne_of_none hs hd)]
  rfl

/-- A step keeps the deliveries, and the one that it may add is of all that was written. -/
theorem delivered_step (h : s.Recorded events) (hs : s.step? p e = some s') {url : String} {body : List UInt8}
    (hmem : (url, body) ∈ s'.delivered) : ∃ d phase, s'.downloads[d]? = some ⟨url, phase⟩ ∧ phase.soFar? = none ∧
      Event.deliver d ∈ events ++ [e] ∧ (events ++ [e]).flatMap (·.written d) = body := by
  have kept : (url, body) ∈ s.delivered → ∃ d phase, s'.downloads[d]? = some ⟨url, phase⟩ ∧ phase.soFar? = none ∧
      Event.deliver d ∈ events ++ [e] ∧ (events ++ [e]).flatMap (·.written d) = body := by
    intro hold
    obtain ⟨d, phase, hd, hnone, hev, hbody⟩ := h.delivered url body hold
    obtain ⟨new, hnew, hcases⟩ := (turn_of_step? hs).download_stays hd
    refine ⟨d, new, hnew, ?_, List.mem_append_left _ hev, ?_⟩
    · rcases hcases with rfl | next
      · exact hnone
      · exact next.soFar_eq_none hnone
    · have hw : e.written d = [] := by
        refine written_eq_nil hs fun url' phase' hx => ?_
        rw [hd] at hx
        obtain ⟨-, rfl⟩ := Download.mk.inj (Option.some.inj hx)
        exact hnone
      rw [List.flatMap_append, List.flatMap_singleton, hw, List.append_nil, hbody]
  rcases delivered_of_step? hs with heq | ⟨d, url', file, body', rfl, hd, hd', heq⟩
  · exact kept (heq ▸ hmem)
  · rw [heq, List.mem_append, List.mem_singleton] at hmem
    rcases hmem with hold | hnew
    · exact kept hold
    · obtain ⟨rfl, rfl⟩ := Prod.mk.inj hnew
      refine ⟨d, .fetched body, hd', rfl, List.mem_append_right _ (List.mem_singleton_self _), ?_⟩
      rw [List.flatMap_append, List.flatMap_singleton, h.bodies d url _ body hd rfl]
      exact List.append_nil body

theorem begun (p : Policy) (directory : Directory) (clock : Int) : (State.begun p directory clock).Recorded [] where
  bodies := fun _ _ _ _ hd => nomatch hd
  later := fun _ _ => rfl
  delivered := fun _ _ hmem => nomatch hmem

theorem step (h : s.Recorded events) (hs : s.step? p e = some s') : s'.Recorded (events ++ [e]) where
  bodies := fun _ _ _ _ hd hb => h.bodies_step hs hd hb
  later := fun _ hd => h.later_step hs hd
  delivered := fun _ _ hmem => h.delivered_step hs hmem

end State.Recorded

/-- In a run from the beginning, the record of deliveries is that of the events. -/
theorem State.recorded {directory : Directory} {clock : Int} {events : List Event}
    (h : (State.begun p directory clock).steps? p events = some s) : s.Recorded events := by
  exact steps?_induction (motive := fun es m => m.Recorded es) (Recorded.begun p directory clock)
    (fun _ _ _ _ _ hm he => hm.step he) h

end ChannelWatch.Cache
