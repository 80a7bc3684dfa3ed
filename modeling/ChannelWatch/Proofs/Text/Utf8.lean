import ChannelWatch.Text.Utf8
import Mathlib.Data.List.Basic

/-!
# What is read from bytes

Reading bytes gives a text exactly if they are its encoding (`decode?_eq_some_iff`): no other bytes stand for it, so that
neither an overlong form nor a piece of a character is taken for one. The invariant of the reader (`Reader.Holds`) is that the
bytes behind it are those of the characters read and of one that has begun (`Begun`).
-/

namespace ChannelWatch.Utf8

/-- The first bytes of a character, and what it needs after them. -/
inductive Begun : List UInt8 → Pending → Prop
  | lead {b : UInt8} {p : Pending} (h : lead? b.toNat = some p) : Begun [b] p
  | more {bytes : List UInt8} {b : UInt8} {p : Pending} (h : Begun bytes p) (hlow : p.low ≤ b.toNat)
      (hhigh : b.toNat ≤ p.high) (hneeded : 2 ≤ p.needed) :
      Begun (bytes ++ [b]) ⟨p.needed - 1, 0x80, 0xBF, p.bits * 64 + (b.toNat - 0x80)⟩

/-- The first byte of a longer character tells its length, and the next byte's range leaves out overlong forms, surrogates
and what is past the last code point. -/
theorem lead?_eq_some {b : Nat} {p : Pending} (h : lead? b = some p) :
    (0xC2 ≤ b ∧ b ≤ 0xDF ∧ p = ⟨1, 0x80, 0xBF, b - 0xC0⟩) ∨
    (0xE0 ≤ b ∧ b ≤ 0xEF ∧ ∃ low high, p = ⟨2, low, high, b - 0xE0⟩ ∧ 0x80 ≤ low ∧ high ≤ 0xBF ∧
      (b = 0xE0 → low = 0xA0) ∧ (b = 0xED → high = 0x9F)) ∨
    (0xF0 ≤ b ∧ b ≤ 0xF4 ∧ ∃ low high, p = ⟨3, low, high, b - 0xF0⟩ ∧ 0x80 ≤ low ∧ high ≤ 0xBF ∧
      (b = 0xF0 → low = 0x90) ∧ (b = 0xF4 → high = 0x8F)) := by
  unfold lead? at h
  split at h
  · exact Or.inl ⟨by omega, by omega, (Option.some.inj h).symm⟩
  split at h
  · subst b
    exact Or.inr (Or.inl ⟨by omega, by omega, _, _, (Option.some.inj h).symm, by omega, by omega, by omega, by omega⟩)
  split at h
  · subst b
    exact Or.inr (Or.inl ⟨by omega, by omega, _, _, (Option.some.inj h).symm, by omega, by omega, by omega, by omega⟩)
  split at h
  · exact Or.inr (Or.inl ⟨by omega, by omega, _, _, (Option.some.inj h).symm, by omega, by omega, by omega, by omega⟩)
  split at h
  · subst b
    exact Or.inr (Or.inr ⟨by omega, by omega, _, _, (Option.some.inj h).symm, by omega, by omega, by omega, by omega⟩)
  split at h
  · exact Or.inr (Or.inr ⟨by omega, by omega, _, _, (Option.some.inj h).symm, by omega, by omega, by omega, by omega⟩)
  split at h
  · subst b
    exact Or.inr (Or.inr ⟨by omega, by omega, _, _, (Option.some.inj h).symm, by omega, by omega, by omega, by omega⟩)
  · nomatch h

theorem ofNat_eq {n : Nat} {b : UInt8} (h : n = b.toNat) : UInt8.ofNat n = b := by
  rw [h, UInt8.ofNat_toNat]

theorem val_ofNat {v : Nat} (h : v.isValidChar) : (Char.ofNat v).val.toNat = v := by
  rw [Char.ofNat, dif_pos h]
  rfl

/-- The bytes of a character of two bytes. -/
theorem encodeChar_two {a b : UInt8} (ha : 0xC2 ≤ a.toNat ∧ a.toNat ≤ 0xDF) (hb : 0x80 ≤ b.toNat ∧ b.toNat ≤ 0xBF) :
    String.utf8EncodeChar (Char.ofNat ((a.toNat - 0xC0) * 64 + (b.toNat - 0x80))) = [a, b] := by
  have hv : ((a.toNat - 0xC0) * 64 + (b.toNat - 0x80)).isValidChar := Or.inl (by omega)
  simp only [String.utf8EncodeChar, val_ofNat hv]
  rw [if_neg (by omega), if_pos (by omega), ofNat_eq (b := a) (by omega), ofNat_eq (b := b) (by omega)]

/-- The bytes of a character of three bytes. -/
theorem encodeChar_three {a b c : UInt8} (ha : 0xE0 ≤ a.toNat ∧ a.toNat ≤ 0xEF) (hb : 0x80 ≤ b.toNat ∧ b.toNat ≤ 0xBF)
    (hlow : a.toNat = 0xE0 → 0xA0 ≤ b.toNat) (hhigh : a.toNat = 0xED → b.toNat ≤ 0x9F)
    (hc : 0x80 ≤ c.toNat ∧ c.toNat ≤ 0xBF) :
    String.utf8EncodeChar (Char.ofNat (((a.toNat - 0xE0) * 64 + (b.toNat - 0x80)) * 64 + (c.toNat - 0x80))) = [a, b, c] := by
  have hv : (((a.toNat - 0xE0) * 64 + (b.toNat - 0x80)) * 64 + (c.toNat - 0x80)).isValidChar := by
    unfold Nat.isValidChar
    omega
  simp only [String.utf8EncodeChar, val_ofNat hv]
  rw [if_neg (by omega), if_neg (by omega), if_pos (by omega), ofNat_eq (b := a) (by omega), ofNat_eq (b := b) (by omega),
    ofNat_eq (b := c) (by omega)]

/-- The bytes of a character of four bytes. -/
theorem encodeChar_four {a b c d : UInt8} (ha : 0xF0 ≤ a.toNat ∧ a.toNat ≤ 0xF4) (hb : 0x80 ≤ b.toNat ∧ b.toNat ≤ 0xBF)
    (hlow : a.toNat = 0xF0 → 0x90 ≤ b.toNat) (hhigh : a.toNat = 0xF4 → b.toNat ≤ 0x8F)
    (hc : 0x80 ≤ c.toNat ∧ c.toNat ≤ 0xBF) (hd : 0x80 ≤ d.toNat ∧ d.toNat ≤ 0xBF) :
    String.utf8EncodeChar (Char.ofNat ((((a.toNat - 0xF0) * 64 + (b.toNat - 0x80)) * 64 + (c.toNat - 0x80)) * 64 +
      (d.toNat - 0x80))) = [a, b, c, d] := by
  have hv : ((((a.toNat - 0xF0) * 64 + (b.toNat - 0x80)) * 64 + (c.toNat - 0x80)) * 64 + (d.toNat - 0x80)).isValidChar := by
    unfold Nat.isValidChar
    omega
  simp only [String.utf8EncodeChar, val_ofNat hv]
  rw [if_neg (by omega), if_neg (by omega), if_neg (by omega), ofNat_eq (b := a) (by omega), ofNat_eq (b := b) (by omega),
    ofNat_eq (b := c) (by omega), ofNat_eq (b := d) (by omega)]

namespace Begun

variable {bytes : List UInt8} {p : Pending}

/-- A character that has begun has one, two or three of its bytes. -/
theorem shape (h : Begun bytes p) :
    (∃ a, bytes = [a] ∧ lead? a.toNat = some p) ∨
    (∃ a b q, bytes = [a, b] ∧ lead? a.toNat = some q ∧ q.low ≤ b.toNat ∧ b.toNat ≤ q.high ∧ 2 ≤ q.needed ∧
      p = ⟨q.needed - 1, 0x80, 0xBF, q.bits * 64 + (b.toNat - 0x80)⟩) ∨
    (∃ a b c q, bytes = [a, b, c] ∧ lead? a.toNat = some q ∧ q.low ≤ b.toNat ∧ b.toNat ≤ q.high ∧
      0x80 ≤ c.toNat ∧ c.toNat ≤ 0xBF ∧ 3 ≤ q.needed ∧
      p = ⟨q.needed - 1 - 1, 0x80, 0xBF, (q.bits * 64 + (b.toNat - 0x80)) * 64 + (c.toNat - 0x80)⟩) := by
  induction h with
  | lead h => exact Or.inl ⟨_, rfl, h⟩
  | more h hlow hhigh hneeded ih =>
    rcases ih with ⟨a, rfl, hlead⟩ | ⟨a, b, q, rfl, hlead, hqlow, hqhigh, hqneeded, rfl⟩ | ⟨a, b, c, q, rfl, hlead, -, -, -, -, -, rfl⟩
    · exact Or.inr (Or.inl ⟨a, _, _, rfl, hlead, hlow, hhigh, hneeded, rfl⟩)
    · exact Or.inr (Or.inr ⟨a, b, _, q, rfl, hlead, hqlow, hqhigh, hlow, hhigh, by dsimp only at hneeded; omega, rfl⟩)
    · -- no character has five bytes
      dsimp only at hneeded
      rcases lead?_eq_some hlead with ⟨-, -, rfl⟩ | ⟨-, -, _, _, rfl, -⟩ | ⟨-, -, _, _, rfl, -⟩ <;> dsimp only at hneeded <;> omega

/-- The last byte completes the character that has begun. -/
theorem complete (h : Begun bytes p) (hneeded : p.needed ≤ 1) {b : UInt8} (hlow : p.low ≤ b.toNat) (hhigh : b.toNat ≤ p.high) :
    String.utf8EncodeChar (Char.ofNat (p.bits * 64 + (b.toNat - 0x80))) = bytes ++ [b] := by
  rcases h.shape with ⟨a₁, rfl, hlead⟩ | ⟨a₁, a₂, q, rfl, hlead, hqlow, hqhigh, hqneeded, rfl⟩ |
    ⟨a₁, a₂, a₃, q, rfl, hlead, hqlow, hqhigh, hclow, hchigh, hqneeded, rfl⟩
  · rcases lead?_eq_some hlead with ⟨h1, h2, rfl⟩ | ⟨-, -, _, _, rfl, -⟩ | ⟨-, -, _, _, rfl, -⟩
    · exact encodeChar_two ⟨h1, h2⟩ ⟨hlow, hhigh⟩
    · dsimp only at hneeded
      omega
    · dsimp only at hneeded
      omega
  · rcases lead?_eq_some hlead with ⟨-, -, rfl⟩ | ⟨h1, h2, low, high, rfl, h3, h4, h5, h6⟩ | ⟨-, -, _, _, rfl, -⟩
    · dsimp only at hqneeded
      omega
    · dsimp only at hqlow hqhigh
      exact encodeChar_three ⟨h1, h2⟩ ⟨by omega, by omega⟩ (by omega) (by omega) ⟨hlow, hhigh⟩
    · dsimp only at hneeded
      omega
  · rcases lead?_eq_some hlead with ⟨-, -, rfl⟩ | ⟨-, -, _, _, rfl, -⟩ | ⟨h1, h2, low, high, rfl, h3, h4, h5, h6⟩
    · dsimp only at hqneeded
      omega
    · dsimp only at hqneeded
      omega
    · dsimp only at hqlow hqhigh
      exact encodeChar_four ⟨h1, h2⟩ ⟨by omega, by omega⟩ (by omega) (by omega) ⟨hclow, hchigh⟩ ⟨hlow, hhigh⟩

end Begun

/-- The bytes of the characters that have been read. -/
def Reader.encoded (r : Reader) : List UInt8 :=
  encode (r.read.reverse.filterMap id)

/-- As long as nothing was ill-formed, the bytes behind the reader are those of the characters that it has read and of the one
that has begun. -/
def Reader.Holds (r : Reader) (bytes : List UInt8) : Prop :=
  (∀ u ∈ r.read, u.isSome) →
    match r.pending with
    | none => bytes = r.encoded
    | some p => ∃ part, Begun part p ∧ bytes = r.encoded ++ part

theorem encoded_cons (read : List (Option Char)) (c : Char) (p p' : Option Pending) :
    Reader.encoded ⟨some c :: read, p⟩ = Reader.encoded ⟨read, p'⟩ ++ String.utf8EncodeChar c := by
  simp [Reader.encoded, encode]

namespace Reader.Holds

variable {r : Reader} {read : List (Option Char)} {bytes : List UInt8}

/-- After an ill-formed run nothing is claimed. -/
theorem of_none (p : Option Pending) : Reader.Holds ⟨none :: read, p⟩ bytes := by
  intro hall
  nomatch hall none List.mem_cons_self

/-- The reader keeps hold of the bytes when a character begins. -/
theorem start (h : Reader.Holds ⟨read, none⟩ bytes) (b : UInt8) :
    (Reader.start read b.toNat).Holds (bytes ++ [b]) := by
  unfold Reader.start
  split
  · rename_i hascii
    intro hall
    have hread := h fun u hu => hall u (List.mem_cons_of_mem _ hu)
    have hchar : String.utf8EncodeChar (Char.ofNat b.toNat) = [b] := by
      simp only [String.utf8EncodeChar, val_ofNat (Or.inl (by omega : b.toNat < 0xD800))]
      rw [if_pos (by omega), UInt8.ofNat_toNat]
    show bytes ++ [b] = _
    rw [encoded_cons read _ none none, hchar, ← hread]
  · split
    · rename_i p hlead
      exact fun hall => ⟨[b], .lead hlead, by rw [h hall]; rfl⟩
    · exact of_none none

/-- The reader keeps hold of the bytes with each one more. -/
theorem step (h : r.Holds bytes) (b : UInt8) : (r.step b).Holds (bytes ++ [b]) := by
  obtain ⟨read, pending⟩ := r
  unfold Reader.step
  split
  · rename_i hp
    obtain rfl : pending = none := hp
    exact start h b
  · rename_i p hp
    obtain rfl : pending = some p := hp
    dsimp only
    split
    · rename_i hrange
      split
      · rename_i hneeded
        intro hall
        obtain ⟨part, hpart, hbytes⟩ := h fun u hu => hall u (List.mem_cons_of_mem _ hu)
        show bytes ++ [b] = _
        rw [encoded_cons read _ none (some p), hpart.complete hneeded hrange.1 hrange.2, hbytes, List.append_assoc]
      · rename_i hneeded
        intro hall
        obtain ⟨part, hpart, hbytes⟩ := h hall
        exact ⟨part ++ [b], hpart.more hrange.1 hrange.2 (by omega), by rw [hbytes, List.append_assoc]; rfl⟩
    · exact start (of_none none) b

/-- The reader keeps hold of all bytes that it takes. -/
theorem foldl (h : r.Holds bytes) (more : List UInt8) : (more.foldl Reader.step r).Holds (bytes ++ more) := by
  induction more generalizing r bytes with
  | nil => rwa [List.append_nil]
  | cons b more ih =>
    rw [List.foldl_cons, List.append_cons]
    exact ih (h.step b)

end Reader.Holds

theorem lead?_two {b : Nat} (hlow : 0xC2 ≤ b) (hhigh : b ≤ 0xDF) : lead? b = some ⟨1, 0x80, 0xBF, b - 0xC0⟩ := by
  rw [lead?, if_pos ⟨hlow, hhigh⟩]

theorem lead?_three {b : Nat} (hlow : 0xE0 ≤ b) (hhigh : b ≤ 0xEF) :
    lead? b = some ⟨2, if b = 0xE0 then 0xA0 else 0x80, if b = 0xED then 0x9F else 0xBF, b - 0xE0⟩ := by
  unfold lead?
  grind

theorem lead?_four {b : Nat} (hlow : 0xF0 ≤ b) (hhigh : b ≤ 0xF4) :
    lead? b = some ⟨3, if b = 0xF0 then 0x90 else 0x80, if b = 0xF4 then 0x8F else 0xBF, b - 0xF0⟩ := by
  unfold lead?
  grind

/-- The reader takes the first byte of a longer character. -/
theorem step_lead (read : List (Option Char)) {b : UInt8} {p : Pending} (h : lead? b.toNat = some p) :
    Reader.step ⟨read, none⟩ b = ⟨read, some p⟩ := by
  have hb : ¬b.toNat < 0x80 := by
    rcases lead?_eq_some h with ⟨_, -⟩ | ⟨_, -⟩ | ⟨_, -⟩ <;> omega
  simp only [Reader.step, Reader.start, if_neg hb, h]

/-- The reader takes a byte that does not end the character. -/
theorem step_more (read : List (Option Char)) {b : UInt8} {p : Pending} (hlow : p.low ≤ b.toNat) (hhigh : b.toNat ≤ p.high)
    (hneeded : 2 ≤ p.needed) : Reader.step ⟨read, some p⟩ b =
      ⟨read, some ⟨p.needed - 1, 0x80, 0xBF, p.bits * 64 + (b.toNat - 0x80)⟩⟩ := by
  have hmore : ¬p.needed ≤ 1 := by omega
  simp only [Reader.step, if_pos (And.intro hlow hhigh), if_neg hmore]

theorem step_last (read : List (Option Char)) {b : UInt8} {p : Pending} (hlow : p.low ≤ b.toNat) (hhigh : b.toNat ≤ p.high)
    (hneeded : p.needed ≤ 1) : Reader.step ⟨read, some p⟩ b =
      ⟨some (Char.ofNat (p.bits * 64 + (b.toNat - 0x80))) :: read, none⟩ := by
  simp only [Reader.step, if_pos (And.intro hlow hhigh), if_pos hneeded]

/-- The reader takes the bytes of a character as this character. -/
theorem foldl_encodeChar (read : List (Option Char)) (c : Char) :
    (String.utf8EncodeChar c).foldl Reader.step ⟨read, none⟩ = ⟨some c :: read, none⟩ := by
  have hvalid : c.val.toNat < 0xD800 ∨ 0xDFFF < c.val.toNat ∧ c.val.toNat < 0x110000 := c.valid
  have hchar : ∀ v, v = c.val.toNat → Char.ofNat v = c := fun v hv => hv ▸ Char.ofNat_toNat c
  have hbyte : ∀ n < 256, (UInt8.ofNat n).toNat = n := fun n hn => UInt8.toNat_ofNat_of_lt' hn
  unfold String.utf8EncodeChar
  dsimp only
  split
  · have h1 := hbyte c.val.toNat (by omega)
    have hlt : c.val.toNat < 0x80 := by omega
    simp only [List.foldl_cons, List.foldl_nil, Reader.step, Reader.start, h1, if_pos hlt, hchar _ rfl]
  split
  · have h1 := hbyte (c.val.toNat / 64 % 32 + 192) (by omega)
    have h2 := hbyte (c.val.toNat % 64 + 128) (by omega)
    rw [List.foldl_cons, step_lead read (lead?_two (by omega) (by omega)), List.foldl_cons,
      step_last read (by dsimp only; omega) (by dsimp only; omega) (Nat.le_refl 1), hchar _ (by dsimp only; omega)]
    rfl
  split
  · have h1 := hbyte (c.val.toNat / 4096 % 16 + 224) (by omega)
    have h2 := hbyte (c.val.toNat / 64 % 64 + 128) (by omega)
    have h3 := hbyte (c.val.toNat % 64 + 128) (by omega)
    rw [List.foldl_cons, step_lead read (lead?_three (by omega) (by omega)), List.foldl_cons,
      step_more read (by dsimp only; split <;> omega) (by dsimp only; split <;> omega) (Nat.le_refl 2), List.foldl_cons,
      step_last read (by dsimp only; omega) (by dsimp only; omega) (Nat.le_refl 1), hchar _ (by dsimp only; omega)]
    rfl
  · have h1 := hbyte (c.val.toNat / 262144 % 8 + 240) (by omega)
    have h2 := hbyte (c.val.toNat / 4096 % 64 + 128) (by omega)
    have h3 := hbyte (c.val.toNat / 64 % 64 + 128) (by omega)
    have h4 := hbyte (c.val.toNat % 64 + 128) (by omega)
    rw [List.foldl_cons, step_lead read (lead?_four (by omega) (by omega)), List.foldl_cons,
      step_more read (by dsimp only; split <;> omega) (by dsimp only; split <;> omega) (Nat.le_succ 2), List.foldl_cons,
      step_more read (by dsimp only; omega) (by dsimp only; omega) (Nat.le_refl 2), List.foldl_cons,
      step_last read (by dsimp only; omega) (by dsimp only; omega) (Nat.le_refl 1), hchar _ (by dsimp only; omega)]
    rfl

theorem encode_cons (c : Char) (text : List Char) : encode (c :: text) = String.utf8EncodeChar c ++ encode text :=
  List.flatMap_cons

theorem encode_append (first second : List Char) : encode (first ++ second) = encode first ++ encode second :=
  List.flatMap_append

/-- The reader takes the bytes of a text as its characters. -/
theorem foldl_encode (read : List (Option Char)) (text : List Char) :
    (encode text).foldl Reader.step ⟨read, none⟩ = ⟨(text.map some).reverse ++ read, none⟩ := by
  induction text generalizing read with
  | nil => rfl
  | cons c text ih =>
    rw [encode_cons, List.foldl_append, foldl_encodeChar, ih]
    simp

/-- What is read from the bytes of a text is its characters. -/
theorem units_encode (text : List Char) : units (encode text) = text.map some := by
  rw [units, foldl_encode]
  simp [Reader.finish]

/-- Bytes are read as a text exactly if they are its bytes. -/
theorem decode?_eq_some_iff {bytes : List UInt8} {text : List Char} : decode? bytes = some text ↔ bytes = encode text := by
  constructor
  · intro h
    have hholds : (bytes.foldl Reader.step ⟨[], none⟩).Holds bytes :=
      Reader.Holds.foldl (r := ⟨[], none⟩) (fun _ => rfl) bytes
    rw [decode?, units] at h
    generalize bytes.foldl Reader.step ⟨[], none⟩ = r at h hholds
    obtain ⟨read, pending⟩ := r
    cases pending with
    | none =>
      obtain ⟨hall, htext⟩ := Option.ite_none_right_eq_some.mp h
      have hread : ∀ u ∈ read, u.isSome := fun u hu => List.all_eq_true.mp hall u (List.mem_reverse.mpr hu)
      rw [← Option.some.inj htext]
      exact hholds hread
    | some p =>
      -- a character that has only begun is ill-formed
      obtain ⟨hall, -⟩ := Option.ite_none_right_eq_some.mp h
      nomatch List.all_eq_true.mp hall none (by simp [Reader.finish])
  · rintro rfl
    rw [decode?, units_encode]
    simp

end ChannelWatch.Utf8
