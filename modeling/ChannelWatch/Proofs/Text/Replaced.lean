import ChannelWatch.Proofs.Text.Search

/-!
# Replacing in text

What it means that every occurrence of a pattern is replaced (`Text.Replaced`): occurrences are taken from left to right and do not
overlap, and what is put in is not searched. A text and a pattern that is not empty leave one result, and `Text.replaceAll` finds it
(`Text.replaced_iff`).
-/

namespace ChannelWatch.Text

/-- A text with every occurrence of a pattern replaced, from left to right: `before` is what stands before the first occurrence, and
the search goes on after it. -/
inductive Replaced (pattern new : List Char) : List Char → List Char → Prop
  | done {text : List Char} (none_left : ¬pattern <:+: text) : Replaced pattern new text text
  | next {before after result : List Char} (first : ¬pattern <:+: (before ++ pattern).dropLast)
      (rest : Replaced pattern new after result) : Replaced pattern new (before ++ pattern ++ after) (before ++ new ++ result)

variable {pattern new : List Char}

/-! ## What is replaced step by step -/

/-- Characters to be skipped are dropped. -/
theorem replaceFrom_eq (skip : Nat) (text : List Char) :
    replaceFrom pattern new skip text = replaceAll pattern new (text.drop skip) := by
  induction text generalizing skip with
  | nil => simp [replaceFrom, replaceAll]
  | cons c cs ih =>
    cases skip with
    | zero => rfl
    | succ skip => rw [replaceFrom, ih, List.drop_succ_cons]

theorem replaceAll_cons {c : Char} {cs : List Char} (h : ¬pattern <+: c :: cs) :
    replaceAll pattern new (c :: cs) = c :: replaceAll pattern new cs := by
  rw [replaceAll, replaceFrom, if_neg (mt startsWith_iff.mp h)]
  rfl

theorem replaceAll_append (hne : pattern ≠ []) (after : List Char) :
    replaceAll pattern new (pattern ++ after) = new ++ replaceAll pattern new after := by
  obtain ⟨c, cs, rfl⟩ := List.exists_cons_of_ne_nil hne
  have hstart : startsWith (c :: cs) (c :: (cs ++ after)) = true := startsWith_iff.mpr (List.prefix_append (c :: cs) after)
  rw [replaceAll, List.cons_append, replaceFrom, if_pos hstart, replaceFrom_eq, List.length_cons, Nat.add_sub_cancel, List.drop_left]

/-- A text without the pattern stays. -/
theorem replaceAll_eq_self {text : List Char} (h : ¬pattern <:+: text) : replaceAll pattern new text = text := by
  induction text with
  | nil => rfl
  | cons c cs ih =>
    rw [List.infix_cons_iff, not_or] at h
    rw [replaceAll_cons h.1, ih h.2]

/-- What stands before the first occurrence of the pattern stays. -/
theorem replaceAll_first (hne : pattern ≠ []) {before : List Char} (h : ¬pattern <:+: (before ++ pattern).dropLast)
    (after : List Char) : replaceAll pattern new (before ++ pattern ++ after) = before ++ new ++ replaceAll pattern new after := by
  induction before with
  | nil => exact replaceAll_append hne after
  | cons c before ih =>
    have hrest : before ++ pattern ≠ [] := List.append_ne_nil_of_right_ne_nil _ hne
    rw [List.cons_append, List.dropLast_cons_of_ne_nil hrest, List.infix_cons_iff, not_or] at h
    have hnot : ¬pattern <+: c :: (before ++ pattern ++ after) := by
      intro hstart
      -- a pattern that begins here ends before the one that follows does
      refine h.1 (List.prefix_of_prefix_length_le hstart ?_ ?_)
      · exact List.cons_prefix_cons.mpr ⟨rfl, (List.dropLast_prefix _).trans (List.prefix_append _ after)⟩
      · simp only [List.length_cons, List.length_dropLast, List.length_append]
        omega
    rw [List.cons_append, List.cons_append, replaceAll_cons hnot, ih h.2]
    rfl

/-! ## What is replaced as a whole -/

/-- A character that does not begin the pattern is one more in front of the first occurrence. -/
theorem Replaced.cons {c : Char} {cs result : List Char} (hne : pattern ≠ []) (h : ¬pattern <+: c :: cs)
    (hreplaced : Replaced pattern new cs result) : Replaced pattern new (c :: cs) (c :: result) := by
  cases hreplaced with
  | done hnone => exact .done fun hinfix => (List.infix_cons_iff.mp hinfix).elim h hnone
  | @next before after result first rest =>
    have hsome : before ++ pattern ≠ [] := List.append_ne_nil_of_right_ne_nil _ hne
    have hfirst : ¬pattern <:+: (c :: before ++ pattern).dropLast := by
      intro hinfix
      rw [List.cons_append, List.dropLast_cons_of_ne_nil hsome, List.infix_cons_iff] at hinfix
      refine hinfix.elim (fun hstart => h (hstart.trans ?_)) first
      exact List.cons_prefix_cons.mpr ⟨rfl, (List.dropLast_prefix _).trans (List.prefix_append _ after)⟩
    exact .next hfirst rest

/-- The pattern at the beginning of a text is its first occurrence. -/
theorem Replaced.start {after result : List Char} (hne : pattern ≠ []) (h : Replaced pattern new after result) :
    Replaced pattern new (pattern ++ after) (new ++ result) := by
  have hfirst : ¬pattern <:+: ([] ++ pattern).dropLast := by
    intro hinfix
    have hpos := List.length_pos_iff.mpr hne
    have hle := hinfix.length_le
    rw [List.nil_append, List.length_dropLast] at hle
    omega
  exact .next hfirst h

/-- Every occurrence of the pattern is replaced. -/
theorem replaced_replaceAll (hne : pattern ≠ []) (text : List Char) :
    Replaced pattern new text (replaceAll pattern new text) := by
  suffices hfrom : ∀ skip text, Replaced pattern new (text.drop skip) (replaceFrom pattern new skip text) from hfrom 0 text
  intro skip text
  fun_induction replaceFrom pattern new skip text with
  | case1 skip =>
    rw [List.drop_nil]
    exact .done fun hinfix => hne (List.infix_nil.mp hinfix)
  | case2 skip c cs ih => exact ih
  | case3 c cs hstart ih =>
    obtain ⟨rest, hrest⟩ := startsWith_iff.mp hstart
    have hafter : cs.drop (pattern.length - 1) = rest := by
      obtain ⟨p, ps, rfl⟩ := List.exists_cons_of_ne_nil hne
      obtain ⟨-, rfl⟩ := List.cons.inj hrest
      exact List.drop_left
    rw [hafter] at ih
    rw [List.drop_zero, ← hrest]
    exact ih.start hne
  | case4 c cs hstart ih => exact ih.cons hne (mt startsWith_iff.mpr hstart)

/-- A text with every occurrence of the pattern replaced is the one that is found. -/
theorem replaced_iff {text result : List Char} (hne : pattern ≠ []) :
    Replaced pattern new text result ↔ result = replaceAll pattern new text := by
  constructor
  · intro h
    induction h with
    | done hnone => rw [replaceAll_eq_self hnone]
    | next first _ ih => rw [replaceAll_first hne first, ih]
  · rintro rfl
    exact replaced_replaceAll hne text

end ChannelWatch.Text
