import Mathlib.Data.List.Perm.Basic
import ChannelWatch.Proofs.Cache.Runs

/-!
# Permits of the pool

A download holds one permit from its admission until it leaves, and no permit is lost: in every state that the cache can come to,
those that are not free are held by downloads (`Reachable.permits`). The downloads that have asked for a permit and not got it yet are
those that stand in the line for one (`Reachable.lined`).
-/

namespace ChannelWatch.Cache

variable {p : Policy} {s s' : State} {e : Event}

/-- The elements of a list that satisfy a condition are those at the other places, and the one at this place if it does. -/
theorem countP_eraseIdx_add {α : Type} {f : α → Bool} {l : List α} {i : Nat} {x : α} (h : l[i]? = some x) :
    (l.eraseIdx i).countP f + (f x).toNat = l.countP f := by
  obtain ⟨hlt, rfl⟩ := List.getElem?_eq_some_iff.mp h
  rw [← (List.getElem_cons_eraseIdx_perm hlt).countP_eq, List.countP_cons]
  cases f l[i] <;> rfl

/-- Setting one place of a list changes how many elements satisfy a condition by what was there and what is there now. -/
theorem countP_set_add {α : Type} {f : α → Bool} {l : List α} {i : Nat} {old : α} (h : l[i]? = some old) (new : α) :
    (l.set i new).countP f + (f old).toNat = l.countP f + (f new).toNat := by
  have hlt : i < l.length := (List.getElem?_eq_some_iff.mp h).1
  have hset : (l.set i new).countP f = (l.eraseIdx i).countP f + (f new).toNat := by
    rw [(List.set_perm_cons_eraseIdx hlt new).countP_eq, List.countP_cons]
    cases f new <;> rfl
  have hold := countP_eraseIdx_add (f := f) h
  omega

theorem Phase.Next.holdsPermit {d : Nat} {old new : Phase} (h : Phase.Next d e old new) :
    new.holdsPermit.toNat + e.returned = old.holdsPermit.toNat + e.taken := by
  cases h <;> rfl

theorem Event.permits_of_download? (h : e.download? = none) : e.taken = 0 ∧ e.returned = 0 := by
  cases e with
  | acquire | release => nomatch h
  | _ => exact ⟨rfl, rfl⟩

/-- How many downloads hold a permit. -/
def State.holding (s : State) : Nat :=
  s.downloads.countP (·.phase.holdsPermit)

/-- A step takes as many permits as it lets downloads hold, and gives back as many as it takes away from them. -/
theorem Turn.holding (t : Turn s e s') : s'.holding + e.returned = s.holding + e.taken := by
  cases t with
  | idle downloads _ stands =>
    obtain ⟨htaken, hreturned⟩ := Event.permits_of_download? stands
    rw [State.holding, State.holding, downloads, htaken, hreturned]
  | begin c purpose url _ _ downloads _ =>
    rw [State.holding, downloads, List.countP_append]
    rfl
  | go d url old new here next downloads _ =>
    have hcount := countP_set_add (f := fun x => x.phase.holdsPermit) here ⟨url, new⟩
    have hpermit := next.holdsPermit
    simp only [State.holding, downloads] at hcount ⊢
    omega

/-- No permit is lost: those that are not free are held by downloads. -/
theorem Reachable.permits (h : Reachable p s) : s.free + s.holding = p.permits := by
  induction h with
  | begun directory clock => rfl
  | @step s s' e _ he ih =>
    have hfree := (effect_of_step? he).free
    have hholding := (turn_of_step? he).holding
    omega
  | disturbed directory freshFile _ ih => exact ih

/-- Where a download holds no permit, those that are not free are held by the others. -/
theorem Reachable.permits_of_others (h : Reachable p s) {d : Nat} {x : Download} (hd : s.downloads[d]? = some x)
    (hx : x.phase.holdsPermit = false) :
    s.free + (s.downloads.eraseIdx d).countP (·.phase.holdsPermit) = p.permits := by
  have hothers := countP_eraseIdx_add (f := fun x => x.phase.holdsPermit) hd
  have hpermits := h.permits
  simp only [hx, Bool.toNat_false, State.holding] at hothers hpermits
  omega

/-! ## The line for a permit -/

/-- The downloads in the line are those that are queued, and each has one place in it. -/
structure State.Lined (s : State) : Prop where
  nodup : s.line.Nodup
  mem_iff : ∀ d, d ∈ s.line ↔ s.phase? d = some .queued

namespace State.Lined

/-- A step keeps the downloads in the line those that are queued. -/
theorem step (h : s.Lined) (hs : s.step? p e = some s') : s'.Lined := by
  have hline := (effect_of_step? hs).line
  cases turn_of_step? hs with
  | idle downloads _ stands =>
    rw [Event.lineAfter_of_download? stands] at hline
    exact ⟨hline ▸ h.nodup, fun d => by rw [hline, phase?_congr downloads, h.mem_iff]⟩
  | begin c purpose url _ _ downloads _ =>
    refine ⟨hline ▸ h.nodup, fun d => ?_⟩
    rw [hline, phase?_of_append downloads]
    show d ∈ s.line ↔ _
    rw [h.mem_iff]
    split
    · rename_i hd
      rw [hd, phase?, List.getElem?_eq_none (Nat.le_refl _)]
      simp
    · rfl
  | go x url old new here next downloads _ =>
    have hphase := phase?_of_set here downloads
    have hx := phase?_eq_some_iff.mpr ⟨url, here⟩
    cases next with
    | queue =>
      have hnot : x ∉ s.line := fun hmem => by cases ((h.mem_iff x).mp hmem).symm.trans hx
      refine ⟨?_, fun d => ?_⟩
      · rw [hline]
        exact (List.perm_append_singleton x s.line).nodup_iff.mpr (List.nodup_cons.mpr ⟨hnot, h.nodup⟩)
      · rw [hline, hphase, Event.lineAfter, List.mem_append, List.mem_singleton, h.mem_iff]
        by_cases hd : d = x <;> simp [hd]
    | abandon =>
      refine ⟨hline ▸ h.nodup.filter _, fun d => ?_⟩
      rw [hline, hphase, Event.lineAfter, List.mem_filter, h.mem_iff]
      by_cases hd : d = x <;> simp [hd]
    | acquire =>
      obtain ⟨-, -, rest, -, hfirst, -, -⟩ := acquire?_eq_some_iff.mp hs
      have hnodup := h.nodup
      rw [hfirst, Event.lineAfter, List.tail_cons] at hline
      rw [hfirst, List.nodup_cons] at hnodup
      refine ⟨hline ▸ hnodup.2, fun d => ?_⟩
      have hmem := h.mem_iff d
      rw [hfirst, List.mem_cons] at hmem
      rw [hline, hphase]
      by_cases hd : d = x
      · subst hd
        simp [hnodup.1]
      · simpa [hd] using hmem
    | _ =>
      refine ⟨hline ▸ h.nodup, fun d => ?_⟩
      rw [hline, hphase]
      show d ∈ s.line ↔ _
      rw [h.mem_iff]
      by_cases hd : d = x
      · subst hd
        simp [hx]
      · simp [hd]

/-- While the pool is open, the first of the line is admitted if a permit is free. -/
theorem exists_acquire (h : s.Lined) (hopen : s.closed = false) {free : Nat} (hfree : s.free = free + 1) {d : Nat}
    (hd : s.phase? d = some .queued) : ∃ first s', s.step? p (.acquire first) = some s' := by
  cases hline : s.line with
  | nil =>
    have hmem := (h.mem_iff d).mpr hd
    rw [hline] at hmem
    nomatch hmem
  | cons first rest =>
    have hfirst := (h.mem_iff first).mp (hline ▸ List.mem_cons_self)
    exact ⟨first, _, acquire?_eq_some_iff.mpr ⟨hfirst, hopen, rest, free, hline, hfree, rfl⟩⟩

end State.Lined

/-- In every state that a cache can come to, the downloads in the line are those that are queued. -/
theorem Reachable.lined (h : Reachable p s) : s.Lined := by
  induction h with
  | begun directory clock => exact ⟨List.nodup_nil, fun d => by simp [State.begun, State.initial, State.phase?]⟩
  | step _ he ih => exact ih.step he
  | disturbed directory freshFile _ ih => exact ⟨ih.nodup, ih.mem_iff⟩

end ChannelWatch.Cache
