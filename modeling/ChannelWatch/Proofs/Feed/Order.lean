import ChannelWatch.Feed.Merge

/-!
# Newest first

What it means for items to be put in order (`IsNewestFirst`): the newest come first, and those of one instant stay as they
were. There is one such order for every list of items, and `newestFirst` finds it.
-/

namespace ChannelWatch

namespace Instant

theorem le_trans {a b c : Instant} (hab : a.le b = true) (hbc : b.le c = true) : a.le c = true := by
  simp only [le, Bool.or_eq_true, Bool.and_eq_true, decide_eq_true_eq, beq_iff_eq] at *
  omega

/-- Of two instants, one is not later than the other. -/
theorem le_total (a b : Instant) : (a.le b || b.le a) = true := by
  simp only [le, Bool.or_eq_true, Bool.and_eq_true, decide_eq_true_eq, beq_iff_eq]
  omega

/-- Two instants of which none is later are the same. -/
theorem le_antisymm {a b : Instant} (hab : a.le b = true) (hba : b.le a = true) : a = b := by
  obtain ⟨s, n⟩ := a
  obtain ⟨s', n'⟩ := b
  simp only [le, Bool.or_eq_true, Bool.and_eq_true, decide_eq_true_eq, beq_iff_eq] at *
  rw [Instant.mk.injEq]
  omega

theorem le_refl (a : Instant) : a.le a = true := by
  simp [le]

end Instant

namespace Feed

/-- The second list has the items of the first, newest first, with those of the same instant in the same order. -/
structure IsNewestFirst (items sorted : List VideoItem) : Prop where
  perm : sorted.Perm items
  ordered : sorted.Pairwise fun a b => b.published.le a.published = true
  stable : ∀ t, sorted.filter (·.published = t) = items.filter (·.published = t)

/-- Sorting puts the newest first and keeps the order of items of the same instant. -/
theorem isNewestFirst_newestFirst (items : List VideoItem) : IsNewestFirst items (newestFirst items) := by
  have perm : (newestFirst items).Perm items := List.mergeSort_perm _ _
  have trans : ∀ a b c : VideoItem, b.published.le a.published = true → c.published.le b.published = true →
      c.published.le a.published = true := fun a b c hab hbc => Instant.le_trans hbc hab
  have total : ∀ a b : VideoItem, (b.published.le a.published || a.published.le b.published) = true :=
    fun a b => Instant.le_total _ _
  refine ⟨perm, List.pairwise_mergeSort trans total items, fun t => ?_⟩
  -- the items of one instant are in order as they are, so they stay a sublist
  have hsorted : (items.filter (·.published = t)).Pairwise fun a b => b.published.le a.published = true := by
    refine List.pairwise_of_forall_mem_list fun a ha b hb => ?_
    rw [of_decide_eq_true (List.mem_filter.mp ha).2, of_decide_eq_true (List.mem_filter.mp hb).2]
    exact Instant.le_refl t
  have hsub := (List.sublist_mergeSort trans total hsorted List.filter_sublist).filter (·.published = t)
  simp only [List.filter_filter, Bool.and_self] at hsub
  exact (hsub.eq_of_length_le (Nat.le_of_eq (perm.filter _).length_eq)).symm

/-- Lists with the newest first that agree on the items of every instant are the same. -/
theorem eq_of_ordered {l l' : List VideoItem} (h : l.Pairwise fun a b => b.published.le a.published = true)
    (h' : l'.Pairwise fun a b => b.published.le a.published = true)
    (hf : ∀ t, l.filter (·.published = t) = l'.filter (·.published = t)) : l = l' := by
  have mem_iff : ∀ {l l' : List VideoItem}, (∀ t, l.filter (·.published = t) = l'.filter (·.published = t)) →
      ∀ x, x ∈ l → x ∈ l' := by
    intro l l' hf x hx
    have hmem : x ∈ l.filter (·.published = x.published) := List.mem_filter.mpr ⟨hx, decide_eq_true rfl⟩
    rw [hf] at hmem
    exact (List.mem_filter.mp hmem).1
  induction l generalizing l' with
  | nil =>
    cases l' with
    | nil => rfl
    | cons b l' => exact absurd (mem_iff (fun t => (hf t).symm) b List.mem_cons_self) List.not_mem_nil
  | cons a l ih =>
    cases l' with
    | nil => exact absurd (mem_iff hf a List.mem_cons_self) List.not_mem_nil
    | cons b l' =>
      obtain ⟨ha, hl⟩ := List.pairwise_cons.mp h
      obtain ⟨hb, hl'⟩ := List.pairwise_cons.mp h'
      -- both heads are newest, so they are of the same instant, and first among its items
      have hab : a.published = b.published := by
        refine Instant.le_antisymm ?_ ?_
        · rcases List.mem_cons.mp (mem_iff hf a List.mem_cons_self) with rfl | hmem
          · exact Instant.le_refl _
          · exact hb a hmem
        · rcases List.mem_cons.mp (mem_iff (fun t => (hf t).symm) b List.mem_cons_self) with rfl | hmem
          · exact Instant.le_refl _
          · exact ha b hmem
      have hhead : a = b := by
        have hfa := hf a.published
        simp only [List.filter_cons, hab, decide_true, if_true] at hfa
        exact (List.cons.inj hfa).1
      subst hhead
      rw [ih hl hl' fun t => ?_]
      have hft := hf t
      by_cases ht : a.published = t
      · simp only [List.filter_cons, ht, decide_true, if_true] at hft
        exact (List.cons.inj hft).2
      · simpa only [List.filter_cons, ht, decide_false, Bool.false_eq_true, if_false] using hft

theorem IsNewestFirst.unique {items sorted sorted' : List VideoItem} (h : IsNewestFirst items sorted)
    (h' : IsNewestFirst items sorted') : sorted = sorted' :=
  eq_of_ordered h.ordered h'.ordered fun t => (h.stable t).trans (h'.stable t).symm

end Feed

end ChannelWatch
