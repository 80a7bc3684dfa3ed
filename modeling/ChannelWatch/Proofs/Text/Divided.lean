import ChannelWatch.Proofs.Text.Utf8

/-!
# Dividing a text at one of its bytes

A text can be divided behind any number of its bytes unless it has fewer or the place is inside a character (`Utf8.splitAt?`). It is
divided exactly into a beginning with as many bytes and the rest (`splitAt?_eq_some_iff`), and never inside a character
(`splitAt?_eq_none_of_inside`).
-/

namespace ChannelWatch.Utf8

/-- The text that has a number of bytes and the text behind it; there are none if the text has fewer bytes or the place is inside a
character. -/
def splitAt? : Nat → List Char → Option (List Char × List Char)
  | 0, text => some ([], text)
  | _ + 1, [] => none
  | n + 1, c :: cs =>
    let size := (String.utf8EncodeChar c).length
    if size ≤ n + 1 then (splitAt? (n + 1 - size) cs).map fun parts => (c :: parts.1, parts.2) else none

/-- A character has a byte. -/
theorem length_encodeChar_pos (c : Char) : 0 < (String.utf8EncodeChar c).length := by
  unfold String.utf8EncodeChar
  dsimp only
  split_ifs <;> exact Nat.succ_pos _

variable {n : Nat} {before after : List Char}

/-- A text is divided before its first byte. -/
theorem splitAt?_zero {text : List Char} :
    splitAt? 0 text = some (before, after) ↔ text = before ++ after ∧ (encode before).length = 0 := by
  rw [splitAt?, Option.some.injEq, Prod.mk.injEq]
  cases before with
  | nil => exact ⟨fun h => ⟨h.2, rfl⟩, fun h => ⟨rfl, h.1⟩⟩
  | cons c cs =>
    have hc := length_encodeChar_pos c
    rw [encode_cons, List.length_append]
    exact ⟨nofun, fun h => by omega⟩

/-- A text is divided behind its first character if it has no more bytes than are asked for, and the rest is divided. -/
theorem splitAt?_succ_cons {c : Char} {cs : List Char} :
    splitAt? (n + 1) (c :: cs) = some (before, after) ↔ (String.utf8EncodeChar c).length ≤ n + 1 ∧
      ∃ rest, before = c :: rest ∧ splitAt? (n + 1 - (String.utf8EncodeChar c).length) cs = some (rest, after) := by
  rw [splitAt?]
  split_ifs with hsize
  · rw [Option.map_eq_some_iff]
    constructor
    · rintro ⟨⟨rest, last⟩, hrest, hparts⟩
      obtain ⟨rfl, rfl⟩ := Prod.mk.inj hparts
      exact ⟨hsize, rest, rfl, hrest⟩
    · rintro ⟨-, rest, rfl, hrest⟩
      exact ⟨(rest, after), hrest, rfl⟩
  · exact ⟨nofun, fun h => absurd h.1 hsize⟩

/-- A text is divided exactly where as many bytes stand before the place as are asked for. -/
theorem splitAt?_eq_some_iff {text : List Char} :
    splitAt? n text = some (before, after) ↔ text = before ++ after ∧ (encode before).length = n := by
  induction text generalizing n before with
  | nil =>
    cases n with
    | zero => exact splitAt?_zero
    | succ n =>
      rw [splitAt?]
      refine ⟨nofun, ?_⟩
      rintro ⟨htext, hlength⟩
      rw [(List.append_eq_nil_iff.mp htext.symm).1] at hlength
      nomatch hlength
  | cons c cs ih =>
    cases n with
    | zero => exact splitAt?_zero
    | succ n =>
      rw [splitAt?_succ_cons]
      constructor
      · rintro ⟨hsize, rest, rfl, hrest⟩
        obtain ⟨rfl, hlength⟩ := ih.mp hrest
        rw [encode_cons, List.length_append]
        exact ⟨rfl, by omega⟩
      · rintro ⟨htext, hlength⟩
        cases before with
        | nil => nomatch hlength
        | cons d rest =>
          obtain ⟨rfl, rfl⟩ := List.cons.inj htext
          rw [encode_cons, List.length_append] at hlength
          exact ⟨by omega, rest, rfl, ih.mpr ⟨rfl, by omega⟩⟩

/-- A text is not divided inside a character. -/
theorem splitAt?_eq_none_of_inside {c : Char} (hbefore : (encode before).length < n)
    (hafter : n < (encode (before ++ [c])).length) : splitAt? n (before ++ c :: after) = none := by
  rw [Option.eq_none_iff_forall_ne_some]
  rintro ⟨first, rest⟩ hsplit
  obtain ⟨htext, hlength⟩ := splitAt?_eq_some_iff.mp hsplit
  rcases List.append_eq_append_iff.mp htext with ⟨more, rfl, hmore⟩ | ⟨more, rfl, -⟩
  · cases more with
    | nil =>
      rw [List.append_nil] at hlength
      omega
    | cons d more =>
      obtain ⟨rfl, -⟩ := List.cons.inj hmore
      rw [List.append_cons, encode_append, List.length_append] at hlength
      omega
  · rw [encode_append, List.length_append] at hbefore
    omega

end ChannelWatch.Utf8
