import Mathlib.Algebra.GroupWithZero.Nat

/-!
# Places in a list

What stands at a place of a list after one place was set, after one more element was put at its end, and when the elements
with one key are taken out. Downloads, calls, updates and tasks are all known by their places. A list of results that may be
missing is read as a whole when none is.
-/

namespace ChannelWatch

/-- What stands in a list after one place that was there has been set. -/
theorem getElem?_set_of_eq_some {α : Type} {l : List α} {d : Nat} {old : α} (h : l[d]? = some old) (new : α) (j : Nat) :
    (l.set d new)[j]? = if j = d then some new else l[j]? := by
  have hlt : d < l.length := (List.getElem?_eq_some_iff.mp h).1
  rw [List.getElem?_set]
  by_cases hj : d = j
  · subst hj
    simp [hlt]
  · simp [hj, Ne.symm hj]

/-- What stands in a list after one more element has been put at its end. -/
theorem getElem?_append_singleton {α : Type} (l : List α) (new : α) (j : Nat) :
    (l ++ [new])[j]? = if j = l.length then some new else l[j]? := by
  by_cases hj : j = l.length
  · subst hj
    simp
  · rcases Nat.lt_or_gt_of_ne hj with hlt | hgt
    · rw [List.getElem?_append_left hlt, if_neg hj]
    · rw [if_neg hj, List.getElem?_eq_none (by simp; omega), List.getElem?_eq_none (by omega)]

theorem modify_append_singleton {α : Type} (l : List α) (last : α) (f : α → α) :
    (l ++ [last]).modify l.length f = l ++ [f last] := by
  induction l with
  | nil => rfl
  | cons x l ih => exact congrArg (x :: ·) ih

theorem filterMap_concat {α β : Type} (f : α → Option β) (l : List α) (last : α) :
    (l ++ [last]).filterMap f = l.filterMap f ++ (f last).toList := by
  rw [List.filterMap_append, List.filterMap_cons]
  cases f last <;> rfl

/-- An element of a list with one more at its end is an element of the list, or the last one. -/
theorem append_singleton_eq_append_cons {α : Type} {l before after : List α} {last x : α}
    (h : l ++ [last] = before ++ x :: after) :
    (∃ rest, l = before ++ x :: rest) ∨ x = last ∧ l = before := by
  rcases List.eq_nil_or_concat after with rfl | ⟨rest, y, rfl⟩
  · obtain ⟨rfl, hlast⟩ := List.append_inj' h rfl
    exact Or.inr ⟨(List.cons.inj hlast).1.symm, rfl⟩
  · rw [List.concat_eq_append, ← List.cons_append, ← List.append_assoc] at h
    exact Or.inl ⟨rest, (List.append_inj' h rfl).1⟩

/-- With keys that differ, an element can be put before all that have another key. -/
theorem perm_cons_filter {α : Type} {l : List (Nat × α)} (hn : (l.map (·.1)).Nodup) {x : Nat × α} (hx : x ∈ l) :
    l.Perm (x :: l.filter (·.1 ≠ x.1)) := by
  induction l with
  | nil => nomatch hx
  | cons y l ih =>
    obtain ⟨hy, hl⟩ := List.nodup_cons.mp hn
    rcases List.mem_cons.mp hx with rfl | hx
    · have hall : l.filter (·.1 ≠ x.1) = l :=
        List.filter_eq_self.mpr fun z hz => decide_eq_true fun hzx => hy (List.mem_map.mpr ⟨z, hz, hzx⟩)
      rw [List.filter_cons, if_neg (by simp), hall]
    · have hne : y.1 ≠ x.1 := fun hyx => hy (List.mem_map.mpr ⟨x, hx, hyx.symm⟩)
      rw [List.filter_cons, if_pos (decide_eq_true hne)]
      exact ((ih hl hx).cons y).trans (List.Perm.swap x y _)

/-- A sum does not grow when no summand does, and shrinks when one does. -/
theorem sum_map_le {α : Type} {f g : α → Nat} {l : List α} (h : ∀ x ∈ l, f x ≤ g x) :
    (l.map f).sum ≤ (l.map g).sum ∧ ((∃ x ∈ l, f x < g x) → (l.map f).sum < (l.map g).sum) := by
  induction l with
  | nil => exact ⟨Nat.le_refl _, fun ⟨x, hx, _⟩ => nomatch hx⟩
  | cons a l ih =>
    obtain ⟨hle, hlt⟩ := ih fun x hx => h x (List.mem_cons_of_mem a hx)
    have ha := h a List.mem_cons_self
    simp only [List.map_cons, List.sum_cons]
    refine ⟨by omega, fun ⟨x, hx, hxlt⟩ => ?_⟩
    rcases List.mem_cons.mp hx with rfl | hx
    · omega
    · have := hlt ⟨x, hx, hxlt⟩
      omega

/-- A sum shrinks when one place of the list gets an element with a smaller summand. -/
theorem sum_map_set_lt {α : Type} {f : α → Nat} {l : List α} {i : Nat} {old new : α} (h : l[i]? = some old)
    (hlt : f new < f old) : ((l.set i new).map f).sum < (l.map f).sum := by
  induction l generalizing i with
  | nil => nomatch h
  | cons a l ih =>
    cases i with
    | zero =>
      obtain rfl := Option.some.inj h
      simp only [List.set_cons_zero, List.map_cons, List.sum_cons]
      omega
    | succ i =>
      have := ih h
      simp only [List.set_cons_succ, List.map_cons, List.sum_cons]
      omega

/-- Reading every element of a list gives a list exactly if it is that of what the elements give. -/
theorem mapM_eq_some_iff {α β : Type} {f : α → Option β} {l : List α} {bs : List β} :
    l.mapM f = some bs ↔ l.map f = bs.map some := by
  induction l generalizing bs with
  | nil => cases bs <;> simp
  | cons a l ih =>
    rw [List.mapM_cons, List.map_cons]
    constructor
    · intro h
      obtain ⟨b, hb, h⟩ := Option.bind_eq_some_iff.mp h
      obtain ⟨rest, hrest, h⟩ := Option.bind_eq_some_iff.mp h
      obtain rfl := Option.some.inj h
      rw [hb, ih.mp hrest, List.map_cons]
    · intro h
      cases bs with
      | nil => nomatch h
      | cons b bs =>
        obtain ⟨hb, hrest⟩ := List.cons.inj h
        rw [hb, ih.mpr hrest]
        rfl

/-- A list can be read as a whole if each of its elements can. -/
theorem exists_mapM_eq_some {α β : Type} {f : α → Option β} {l : List α} (h : ∀ x ∈ l, f x ≠ none) :
    ∃ bs, l.mapM f = some bs := by
  simp only [mapM_eq_some_iff]
  induction l with
  | nil => exact ⟨[], rfl⟩
  | cons a l ih =>
    obtain ⟨b, hb⟩ := Option.ne_none_iff_exists'.mp (h a List.mem_cons_self)
    obtain ⟨bs, hbs⟩ := ih fun x hx => h x (List.mem_cons_of_mem a hx)
    exact ⟨b :: bs, by rw [List.map_cons, List.map_cons, hb, hbs]⟩

end ChannelWatch
