import ChannelWatch.Text.Search

/-!
# Searching in text

Stripping a beginning and looking for a pattern are held to the prefixes and infixes of lists, and a text without separators is
its only part.
-/

namespace ChannelWatch.Text

/-- A text whose beginning was stripped is that beginning followed by the rest. -/
theorem eq_append_of_stripStart? {pattern text rest : List Char} (h : stripStart? pattern text = some rest) :
    text = pattern ++ rest := by
  induction pattern generalizing text with
  | nil =>
    simp only [stripStart?, Option.some.injEq] at h
    simp [h]
  | cons p ps ih =>
    cases text with
    | nil => nomatch h
    | cons c cs =>
      simp only [stripStart?] at h
      split at h
      · rename_i hc
        rw [hc, ih h, List.cons_append]
      · nomatch h

theorem stripStart?_append (pattern rest : List Char) : stripStart? pattern (pattern ++ rest) = some rest := by
  induction pattern with
  | nil => rfl
  | cons p ps ih => simp [stripStart?, ih]

/-- Nothing can be stripped exactly where the pattern is no prefix. -/
theorem stripStart?_eq_none_iff {pattern text : List Char} : stripStart? pattern text = none ↔ ¬pattern <+: text := by
  constructor
  · rintro h ⟨rest, rfl⟩
    rw [stripStart?_append] at h
    nomatch h
  · intro h
    cases hs : stripStart? pattern text with
    | none => rfl
    | some rest => exact absurd ⟨rest, (eq_append_of_stripStart? hs).symm⟩ h

theorem startsWith_iff {pattern text : List Char} : startsWith pattern text = true ↔ pattern <+: text := by
  rw [startsWith, Option.isSome_iff_ne_none, ne_eq, stripStart?_eq_none_iff, Classical.not_not]

/-- A pattern is found exactly where it occurs. -/
theorem contains_iff {pattern text : List Char} : contains pattern text = true ↔ pattern <:+: text := by
  induction text with
  | nil => simp only [contains, startsWith_iff, List.infix_nil, List.prefix_nil]
  | cons c cs ih => simp only [contains, Bool.or_eq_true, startsWith_iff, ih, List.infix_cons_iff]

/-- A pattern whose first character does not occur in a beginning is looked for after it. -/
theorem infix_append_iff_of_not_mem {c : Char} {pattern start rest : List Char} (h : c ∉ start) :
    c :: pattern <:+: start ++ rest ↔ c :: pattern <:+: rest := by
  induction start with
  | nil => rfl
  | cons d start ih =>
    obtain ⟨hne, hstart⟩ := List.ne_and_not_mem_of_not_mem_cons h
    rw [List.cons_append, List.infix_cons_iff, List.cons_prefix_cons, ih hstart]
    exact or_iff_right fun hd => hne hd.1

/-- A text without separators is its only part. -/
theorem splitOn_eq_singleton {p : Char → Bool} {text : List Char} (h : ∀ c ∈ text, p c = false) : splitOn p text = [text] := by
  suffices hinto : ∀ current, splitInto p current [] text = [current.reverse ++ text] from hinto []
  induction text with
  | nil => exact fun current => by simp [splitInto]
  | cons c cs ih =>
    intro current
    rw [splitInto, h c List.mem_cons_self]
    simpa using ih (fun x hx => h x (List.mem_cons_of_mem c hx)) (c :: current)

end ChannelWatch.Text
