import ChannelWatch.Proofs.Text.Utf8
import ChannelWatch.Url.Percent

/-!
# Percent-encoding and back

Characters of ASCII that are not to be encoded stand for themselves (`Percent.encode_eq_self`). A byte that was encoded is put back
whatever follows it (`Percent.decodeBytes_encodeByte`), if percent signs are among what is encoded.
-/

namespace ChannelWatch

namespace Text

theorem isLetter_iff {c : Char} :
    isLetter c = true ↔ 0x61 ≤ c.toNat ∧ c.toNat ≤ 0x7A ∨ 0x41 ≤ c.toNat ∧ c.toNat ≤ 0x5A := by
  simp only [isLetter, Bool.or_eq_true, Bool.and_eq_true, decide_eq_true_eq, Char.le_def, UInt32.le_iff_toNat_le]
  rfl

end Text

namespace Utf8

/-- A character of ASCII is one byte. -/
theorem encode_cons_of_ascii {c : Char} (hc : c.toNat < 0x80) (text : List Char) :
    encode (c :: text) = UInt8.ofNat c.toNat :: encode text := by
  have hchar : String.utf8EncodeChar c = [UInt8.ofNat c.toNat] := by
    have hval : c.val.toNat ≤ 127 := Nat.le_of_lt_succ hc
    rw [String.utf8EncodeChar, if_pos hval]
    rfl
  rw [encode_cons, hchar, List.singleton_append]

end Utf8

namespace Percent

variable {encodes : Char → Bool}

/-- A character of ASCII that is not encoded stands for itself. -/
theorem encode_eq_self {text : List Char} (h : ∀ c ∈ text, c.toNat < 0x80 ∧ encodes c = false) : encode encodes text = text := by
  induction text with
  | nil => rfl
  | cons c text ih =>
    obtain ⟨⟨hascii, hplain⟩, htext⟩ := List.forall_mem_cons.mp h
    have hnat : (UInt8.ofNat c.toNat).toNat = c.toNat := UInt8.toNat_ofNat_of_lt (Nat.lt_trans hascii (by decide))
    have hchar : encodeByte encodes (UInt8.ofNat c.toNat) = [c] := by
      simp [encodeByte, hnat, Char.ofNat_toNat, hascii, hplain]
    rw [encode, Utf8.encode_cons_of_ascii hascii, List.flatMap_cons, hchar, List.singleton_append]
    exact congrArg (c :: ·) (ih htext)

/-- The digits of an encoded byte are of ASCII, and each is read as its value. -/
theorem digit?_upperDigit {n : Nat} (h : n < 16) :
    (Hex.upperDigit n).toNat < 0x80 ∧ digit? (UInt8.ofNat (Hex.upperDigit n).toNat) = some n := by
  have hall : ∀ n < 16, (Hex.upperDigit n).toNat < 0x80 ∧ digit? (UInt8.ofNat (Hex.upperDigit n).toNat) = some n := by decide
  exact hall n h

/-- A byte that is no percent sign stands for itself. -/
theorem decodeBytes_cons_of_ne {b : UInt8} (h : b ≠ 0x25) (rest : List UInt8) :
    decodeBytes (b :: rest) = b :: decodeBytes rest := by
  match rest with
  | [] => rfl
  | [_] => rfl
  | _ :: _ :: _ => rw [decodeBytes, if_neg h]

/-- An escaped byte is put back. -/
theorem decodeBytes_escaped (b : UInt8) (rest : List Char) :
    decodeBytes (Utf8.encode ('%' :: Hex.upperByte b ++ rest)) = b :: decodeBytes (Utf8.encode rest) := by
  have hlt : b.toNat < 256 := b.toNat_lt
  obtain ⟨hhigh, hhighValue⟩ := digit?_upperDigit (show b.toNat / 16 < 16 by omega)
  obtain ⟨hlow, hlowValue⟩ := digit?_upperDigit (show b.toNat % 16 < 16 by omega)
  have hvalue : UInt8.ofNat (b.toNat / 16 * 16 + b.toNat % 16) = b := by
    rw [show b.toNat / 16 * 16 + b.toNat % 16 = b.toNat by omega, UInt8.ofNat_toNat]
  simp only [Hex.upperByte, List.cons_append, List.nil_append]
  rw [Utf8.encode_cons_of_ascii (by decide), Utf8.encode_cons_of_ascii hhigh, Utf8.encode_cons_of_ascii hlow, decodeBytes,
    if_pos (by decide), hhighValue, hlowValue]
  exact congrArg (· :: _) hvalue

/-- An encoded byte is put back, whatever follows it. -/
theorem decodeBytes_encodeByte (hpercent : encodes '%' = true) (b : UInt8) (rest : List Char) :
    decodeBytes (Utf8.encode (encodeByte encodes b ++ rest)) = b :: decodeBytes (Utf8.encode rest) := by
  by_cases hplain : (decide (b.toNat < 0x80) && !encodes (Char.ofNat b.toNat)) = true
  · obtain ⟨hascii, hkept⟩ := Bool.and_eq_true_iff.mp hplain
    have hbyte : b.toNat < 0x80 := of_decide_eq_true hascii
    have hnat : (Char.ofNat b.toNat).toNat = b.toNat := Utf8.val_ofNat (Or.inl (by omega))
    have hne : b ≠ 0x25 := by
      rintro rfl
      rw [show Char.ofNat (0x25 : UInt8).toNat = '%' from rfl, hpercent] at hkept
      nomatch hkept
    simp only [encodeByte, if_pos hplain, List.singleton_append]
    rw [Utf8.encode_cons_of_ascii (by omega), hnat, UInt8.ofNat_toNat, decodeBytes_cons_of_ne hne]
  · simp only [encodeByte, if_neg hplain]
    exact decodeBytes_escaped b rest

end Percent

end ChannelWatch
