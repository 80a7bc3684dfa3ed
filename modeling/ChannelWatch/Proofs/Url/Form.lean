import ChannelWatch.Proofs.Text.Cut
import ChannelWatch.Proofs.Text.Digits
import ChannelWatch.Proofs.Url.Percent
import ChannelWatch.Url.Form

/-!
# Form encoding and back

What is read from an encoded key or value is the key or value itself (`Form.decode_encode`), and what is read from a list of pairs
is the list (`Form.decodePairs_encodePairs`), whatever texts they have: encoded text has neither `&` nor `=`, so that nothing in it
begins another pair, and no part of a URL ends in it (`Form.plain_of_mem_encodePairs`).
-/

namespace ChannelWatch.Form

/-! ## One key or value -/

/-- A character that encoded text may have. -/
def isWritten (c : Char) : Bool :=
  isPlain c || c = '+' || c = '%'

/-- An encoded byte is a plain character, or a percent sign and digits. -/
theorem isPlain_or_eq_percent {b : UInt8} {c : Char} (h : c ∈ Percent.encodeByte (fun c => !isPlain c) b) :
    isPlain c = true ∨ c = '%' := by
  have hdigit : ∀ n < 16, isPlain (Hex.upperDigit n) = true := by decide
  have hlt : b.toNat < 256 := b.toNat_lt
  by_cases hplain : (decide (b.toNat < 0x80) && !!isPlain (Char.ofNat b.toNat)) = true
  · simp only [Percent.encodeByte, if_pos hplain, List.mem_singleton] at h
    rw [Bool.not_not] at hplain
    rw [h]
    exact Or.inl (Bool.and_eq_true_iff.mp hplain).2
  · simp only [Percent.encodeByte, if_neg hplain, Hex.upperByte, List.mem_cons, List.not_mem_nil, or_false] at h
    rcases h with rfl | rfl | rfl
    · exact Or.inr rfl
    · exact Or.inl (hdigit _ (by omega))
    · exact Or.inl (hdigit _ (by omega))

/-- Encoded text has only few characters. -/
theorem isWritten_of_mem_encode {text : List Char} {c : Char} (h : c ∈ encode text) : isWritten c = true := by
  obtain ⟨b, -, hc⟩ := List.mem_flatMap.mp h
  unfold encodeByte at hc
  split at hc
  · rw [List.mem_singleton.mp hc]
    decide
  · rcases isPlain_or_eq_percent hc with hplain | rfl
    · simp [isWritten, hplain]
    · decide

/-- What a character stands for before percent signs are looked at. -/
def spaced (c : Char) : Char :=
  if c = '+' then ' ' else c

/-- An encoded byte is put back, whatever follows it. -/
theorem decodeBytes_encodeByte (b : UInt8) (rest : List Char) :
    Percent.decodeBytes (Utf8.encode ((encodeByte b ++ rest).map spaced)) =
      b :: Percent.decodeBytes (Utf8.encode (rest.map spaced)) := by
  by_cases hb : b = 0x20
  · subst hb
    rw [encodeByte, if_pos rfl, List.singleton_append, List.map_cons, spaced, if_pos rfl, Utf8.encode_cons_of_ascii (by decide)]
    exact Percent.decodeBytes_cons_of_ne (by decide) _
  · -- no plus sign comes from a byte that is no space
    have hsame : (Percent.encodeByte (fun c => !isPlain c) b).map spaced = Percent.encodeByte (fun c => !isPlain c) b := by
      refine (List.map_congr_left fun c hc => ?_).trans (List.map_id _)
      refine if_neg ?_
      rintro rfl
      rcases isPlain_or_eq_percent hc with hplain | heq
      · exact absurd hplain (by decide)
      · exact absurd heq (by decide)
    rw [encodeByte, if_neg hb, List.map_append, hsame]
    exact Percent.decodeBytes_encodeByte (by decide) b _

/-- A key or value is read from its encoding. -/
theorem decode_encode (text : List Char) : decode (encode text) = text := by
  have hbytes : ∀ bytes : List UInt8, Percent.decodeBytes (Utf8.encode ((bytes.flatMap encodeByte).map spaced)) = bytes := by
    intro bytes
    induction bytes with
    | nil => rfl
    | cons b bytes ih => rw [List.flatMap_cons, decodeBytes_encodeByte, ih]
  have hdecode : decode (encode text) = Utf8.decodeLossy (Utf8.encode text) := congrArg Utf8.decodeLossy (hbytes _)
  rw [hdecode, Utf8.decodeLossy, Utf8.units_encode, List.map_map]
  exact List.map_id text

/-! ## Pairs -/

/-- Encoded text does not have a character that is not among the few. -/
theorem not_mem_encode {c : Char} (hc : isWritten c = false) (text : List Char) : c ∉ encode text := by
  intro h
  rw [isWritten_of_mem_encode h] at hc
  nomatch hc

/-- A pair is read from its encoding. -/
theorem decodePair_encodePair (pair : String × String) : decodePair (encodePair pair) = (pair.1.toList, pair.2.toList) := by
  simp only [decodePair, encodePair, Text.cutAt_append_cons (not_mem_encode (by decide : isWritten '=' = false) pair.1.toList),
    Option.getD_some, decode_encode]

/-- An encoded pair is not empty and does not go beyond its end. -/
theorem encodePair_plain (pair : String × String) : encodePair pair ≠ [] ∧ ∀ c ∈ encodePair pair, c = '=' ∨ isWritten c = true := by
  refine ⟨List.append_ne_nil_of_right_ne_nil _ (List.cons_ne_nil _ _), fun c hc => ?_⟩
  rcases List.mem_append.mp hc with hc | hc
  · exact Or.inr (isWritten_of_mem_encode hc)
  · rcases List.mem_cons.mp hc with rfl | hc
    · exact Or.inl rfl
    · exact Or.inr (isWritten_of_mem_encode hc)

/-- A list of pairs is read from its encoding, in its order and with nothing added. -/
theorem decodePairs_encodePairs (pairs : List (String × String)) :
    decodePairs (encodePairs pairs) = pairs.map fun pair => (pair.1.toList, pair.2.toList) := by
  by_cases hpairs : pairs = []
  · subst hpairs
    rfl
  · have hparts : Text.splitOn (· = '&') (encodePairs pairs) = pairs.map encodePair := by
      refine Text.splitOn_intercalate (by simpa using hpairs) rfl fun part hpart c hc => ?_
      obtain ⟨pair, -, rfl⟩ := List.mem_map.mp hpart
      refine decide_eq_false ?_
      rintro rfl
      rcases (encodePair_plain pair).2 _ hc with heq | hwritten
      · exact absurd heq (by decide)
      · exact absurd hwritten (by decide)
    have hkept : (pairs.map encodePair).filter (!·.isEmpty) = pairs.map encodePair := by
      refine List.filter_eq_self.mpr fun part hpart => ?_
      obtain ⟨pair, -, rfl⟩ := List.mem_map.mp hpart
      simpa using (encodePair_plain pair).1
    rw [decodePairs, hparts, hkept, List.map_map]
    exact List.map_congr_left fun pair _ => decodePair_encodePair pair

/-! ## Encoded pairs in a URL -/

/-- A character of encoded pairs belongs to one of them or stands between two. -/
theorem of_mem_encodePairs {pairs : List (String × String)} {c : Char} (h : c ∈ encodePairs pairs) :
    c = '&' ∨ c = '=' ∨ isWritten c = true := by
  unfold encodePairs at h
  induction pairs with
  | nil => nomatch h
  | cons pair pairs ih =>
    have hpair := (encodePair_plain pair).2 c
    cases pairs with
    | nil =>
      rw [List.map_singleton, List.intercalate_singleton] at h
      exact Or.inr (hpair h)
    | cons next pairs =>
      rw [List.map_cons, List.map_cons, List.intercalate_cons_cons, List.append_assoc, List.mem_append] at h
      rcases h with h | h
      · exact Or.inr (hpair h)
      · rcases List.mem_cons.mp h with rfl | h
        · exact Or.inl rfl
        · exact ih h

/-- A character of encoded text is of ASCII. -/
theorem lt_of_isWritten {c : Char} (h : isWritten c = true) : c.toNat < 0x80 := by
  simp only [isWritten, isPlain, Bool.or_eq_true, decide_eq_true_eq, Text.isLetter_iff, Text.isDigit_iff] at h
  rcases h with ((((((hletter | hdigit) | rfl) | rfl) | rfl) | rfl) | rfl) | rfl
  · omega
  · omega
  all_goals decide

/-- The query of a URL holds encoded pairs as they are, and nothing in them is taken for a blank. -/
theorem plain_of_mem_encodePairs {pairs : List (String × String)} {c : Char} (h : c ∈ encodePairs pairs) :
    c.toNat < 0x80 ∧ 0x20 < c.toNat ∧ Percent.inSpecialQuery c = false := by
  have hplain : ∀ n < 0x80, isWritten (Char.ofNat n) = true →
      0x20 < (Char.ofNat n).toNat ∧ Percent.inSpecialQuery (Char.ofNat n) = false := by
    decide
  rcases of_mem_encodePairs h with rfl | rfl | hwritten
  · decide
  · decide
  · have hascii := lt_of_isWritten hwritten
    have hc := hplain c.toNat hascii
    rw [Char.ofNat_toNat] at hc
    exact ⟨hascii, hc hwritten⟩

end ChannelWatch.Form
