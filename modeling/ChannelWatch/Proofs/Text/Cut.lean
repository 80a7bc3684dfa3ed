import ChannelWatch.Text.Search
import Mathlib.Data.List.DropRight
import Mathlib.Data.List.TakeDrop

/-!
# Cutting texts

What a text is cut into when its parts are known: at a character that the part before it does not have, between separators that
no part has, and at an end whose characters are those to be taken off.
-/

namespace ChannelWatch.Text

variable {p : Char → Bool} {sep : Char}

/-! ## At one character -/

theorem span_append_cons {start rest : List Char} {c : Char} (hstart : ∀ x ∈ start, p x = true) (hc : p c = false) :
    (start ++ c :: rest).span p = (start, c :: rest) := by
  have hstops : ¬p c = true := by simp [hc]
  rw [List.span_eq_takeWhile_dropWhile, List.takeWhile_append_of_pos hstart, List.dropWhile_append_of_pos hstart,
    List.takeWhile_cons_of_neg hstops, List.dropWhile_cons_of_neg hstops, List.append_nil]

theorem span_eq_self {text : List Char} (h : ∀ x ∈ text, p x = true) : text.span p = (text, []) := by
  rw [List.span_eq_takeWhile_dropWhile, List.takeWhile_eq_self_iff.mpr h, List.dropWhile_eq_nil_iff.mpr h]

theorem cutAt_append_cons {before after : List Char} (h : sep ∉ before) :
    cutAt sep (before ++ sep :: after) = (before, some after) := by
  rw [cutAt, span_append_cons (fun x hx => decide_eq_true (ne_of_mem_of_not_mem hx h)) (by simp)]

theorem cutAt_of_not_mem {text : List Char} (h : sep ∉ text) : cutAt sep text = (text, none) := by
  rw [cutAt, span_eq_self fun x hx => decide_eq_true (ne_of_mem_of_not_mem hx h)]

/-- A text has no last occurrence of a character that does not occur. -/
theorem cutAtLast_of_not_mem {text : List Char} (h : sep ∉ text) : cutAtLast sep text = (none, text) := by
  rw [cutAtLast, span_eq_self fun x hx => decide_eq_true (ne_of_mem_of_not_mem (List.mem_reverse.mp hx) h)]
  exact congrArg (Prod.mk none) (List.reverse_reverse text)

/-! ## Between separators -/

/-- The parts of a text are those of the library's own splitting. -/
theorem splitOn_eq_splitOnP (text : List Char) : splitOn p text = text.splitOnP p := by
  suffices hinto : ∀ current done, splitInto p current done text = done.reverse ++ text.splitOnPPrepend p current from
    hinto [] []
  induction text with
  | nil => exact fun current done => by simp [splitInto]
  | cons c cs ih =>
    intro current done
    rw [splitInto, List.splitOnPPrepend_cons_eq_if]
    split
    · rw [ih, List.splitOnP_eq_splitOnPPrepend, List.reverse_cons, List.append_assoc, List.singleton_append]
    · exact ih (c :: current) done

/-- Parts without separators are what the text splits into that has a separator between them. -/
theorem splitOn_intercalate {parts : List (List Char)} (hne : parts ≠ []) (hsep : p sep = true)
    (h : ∀ part ∈ parts, ∀ c ∈ part, p c = false) : splitOn p ([sep].intercalate parts) = parts := by
  rw [splitOn_eq_splitOnP]
  induction parts with
  | nil => exact absurd rfl hne
  | cons part parts ih =>
    obtain ⟨hpart, hparts⟩ := List.forall_mem_cons.mp h
    cases parts with
    | nil => rw [List.intercalate_singleton, List.splitOnP_eq_singleton hpart]
    | cons next parts =>
      rw [List.intercalate_cons_cons, List.append_assoc, List.singleton_append, List.splitOnP_append_cons _ _ hsep,
        List.splitOnP_eq_singleton hpart, ih (List.cons_ne_nil next parts) hparts, List.singleton_append]

/-! ## At the ends -/

/-- What is taken off the end of a text stops at a part that has none of it. -/
theorem dropEndWhile_append {word : List Char} (hne : word ≠ []) (hword : ∀ c ∈ word, p c = false) (start rest : List Char) :
    dropEndWhile p (start ++ word ++ rest) = start ++ word ++ dropEndWhile p rest := by
  obtain ⟨first, last, rfl⟩ := (List.eq_nil_or_concat word).resolve_left hne
  have hlast : p last = false := hword last (by simp)
  induction rest using List.reverseRecOn with
  | nil => simp [dropEndWhile, hlast]
  | append_singleton rest c ih =>
    have hsnoc : ∀ text, dropEndWhile p (text ++ [c]) = if p c = true then dropEndWhile p text else text ++ [c] :=
      fun text => List.rdropWhile_concat p text c
    rw [← List.append_assoc, hsnoc, hsnoc, ih]
    split
    · rfl
    · rw [List.append_assoc]

/-- Trimming stops at a part that has none of what is trimmed. -/
theorem trimWhile_append {word : List Char} (hne : word ≠ []) (hword : ∀ c ∈ word, p c = false) (start rest : List Char) :
    trimWhile p (start ++ word ++ rest) = start.dropWhile p ++ word ++ dropEndWhile p rest := by
  obtain ⟨first, others, rfl⟩ := List.exists_cons_of_ne_nil hne
  have hfirst : ¬p first = true := by simp [hword first List.mem_cons_self]
  have hstart : ((start ++ first :: others) ++ rest).dropWhile p = start.dropWhile p ++ (first :: others) ++ rest := by
    induction start with
    | nil => exact List.dropWhile_cons_of_neg hfirst
    | cons c start ih =>
      by_cases hc : p c = true
      · simpa [hc] using ih
      · simp [hc]
  rw [trimWhile, hstart, dropEndWhile_append hne hword]

end ChannelWatch.Text
