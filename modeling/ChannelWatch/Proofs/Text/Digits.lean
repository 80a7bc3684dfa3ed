import ChannelWatch.Text.Search
import Mathlib.Algebra.GroupWithZero.Nat
import Mathlib.Data.List.Induction

/-!
# Decimal digits

The digits of a number are digits, do not begin with a zero unless the number is zero, and are read as the number, padded or not.
Digits of a fixed width are those of one number only.
-/

namespace ChannelWatch.Text

theorem isDigit_iff {c : Char} : isDigit c = true ↔ 0x30 ≤ c.toNat ∧ c.toNat ≤ 0x39 := by
  simp only [isDigit, Bool.and_eq_true, decide_eq_true_eq, Char.le_def, UInt32.le_iff_toNat_le]
  rfl

theorem ofNat_eq_toDigits (n : Nat) : ofNat n = Nat.toDigits 10 n := by
  rw [ofNat, Nat.repr_eq_ofList_toDigits, String.toList_ofList]

theorem ofNat_ne_nil (n : Nat) : ofNat n ≠ [] := by
  rw [ofNat_eq_toDigits]
  exact Nat.toDigits_ne_nil

theorem isDigit_of_mem_ofNat {n : Nat} {c : Char} (h : c ∈ ofNat n) : isDigit c = true := by
  rw [ofNat_eq_toDigits] at h
  have hc := Nat.isDigit_of_mem_toDigits (by decide) (by decide) h
  simp only [Char.isDigit, Bool.and_eq_true, decide_eq_true_eq, ge_iff_le, UInt32.le_iff_toNat_le] at hc
  exact isDigit_iff.mpr hc

theorem decimal_ofNat (n : Nat) : decimal (ofNat n) = n := by
  have h : decimal (ofNat n) = Nat.ofDigitChars 10 (ofNat n) 0 := by
    simp only [decimal, Nat.ofDigitChars_eq_foldl, Nat.mul_comm 10]
    rfl
  rw [h, ofNat_eq_toDigits, Nat.ofDigitChars_ten_toDigits]

/-- A number that is not zero begins with another digit. -/
theorem ofNat_of_ne_zero {n : Nat} (h : n ≠ 0) : ∃ d ds, ofNat n = d :: ds ∧ d ≠ '0' := by
  rw [ofNat_eq_toDigits]
  induction n using Nat.strongRecOn with
  | ind n ih =>
    rcases Nat.lt_or_ge n 10 with hlt | hge
    · have hdigit : ∀ n < 10, n ≠ 0 → n.digitChar ≠ '0' := by decide
      exact ⟨n.digitChar, [], Nat.toDigits_of_lt_base hlt, hdigit n hlt h⟩
    · obtain ⟨d, ds, hds, hd⟩ := ih (n / 10) (by omega) (by omega)
      exact ⟨d, ds ++ [(n % 10).digitChar], by rw [Nat.toDigits_of_base_le (by decide) hge, hds]; rfl, hd⟩

/-- A number with few digits is small. -/
theorem length_ofNat_le_iff {n width : Nat} (h : 0 < width) : (ofNat n).length ≤ width ↔ n < 10 ^ width := by
  rw [ofNat_eq_toDigits]
  exact Nat.length_toDigits_le_iff (by decide) h

/-- Padded digits are digits. -/
theorem isDigit_of_mem_padded {width n : Nat} {c : Char} (h : c ∈ padded width n) : isDigit c = true := by
  rcases List.mem_append.mp h with hzero | hdigit
  · rw [List.eq_of_mem_replicate hzero]
    rfl
  · exact isDigit_of_mem_ofNat hdigit

/-- A small number is padded to the width. -/
theorem length_padded {width n : Nat} (hwidth : 0 < width) (hn : n < 10 ^ width) : (padded width n).length = width := by
  have hle := (length_ofNat_le_iff hwidth).mpr hn
  rw [padded, List.length_append, List.length_replicate]
  omega

/-- Padded digits are read as the number. -/
theorem decimal_padded (width n : Nat) : decimal (padded width n) = n := by
  have hzeros : ∀ k, (List.replicate k '0').foldl (fun n c => n * 10 + (c.toNat - 0x30)) 0 = 0 := by
    intro k
    induction k with
    | zero => rfl
    | succ k ih =>
      rw [List.replicate_succ, List.foldl_cons]
      exact ih
  rw [padded, decimal, List.foldl_append, hzeros]
  exact decimal_ofNat n

theorem decimal_append_singleton (ds : List Char) (c : Char) : decimal (ds ++ [c]) = decimal ds * 10 + (c.toNat - 0x30) := by
  rw [decimal, List.foldl_append]
  rfl

/-- Digits make a number below the power of ten that has one digit more. -/
theorem decimal_lt {ds : List Char} (h : ∀ c ∈ ds, isDigit c = true) : decimal ds < 10 ^ ds.length := by
  induction ds using List.reverseRecOn with
  | nil => decide
  | append_singleton ds c ih =>
    rw [List.forall_mem_append] at h
    have hrest := ih h.1
    have hc := isDigit_iff.mp (h.2 c List.mem_cons_self)
    rw [decimal_append_singleton, List.length_append, List.length_singleton, Nat.pow_succ]
    omega

/-- Two runs of as many digits that make the same number are the same. -/
theorem eq_of_decimal_eq {ds : List Char} (hds : ∀ c ∈ ds, isDigit c = true) :
    ∀ {es : List Char}, (∀ c ∈ es, isDigit c = true) → ds.length = es.length → decimal ds = decimal es → ds = es := by
  induction ds using List.reverseRecOn with
  | nil => exact fun _ hlength _ => (List.eq_nil_of_length_eq_zero hlength.symm).symm
  | append_singleton ds c ih =>
    intro es hes hlength hvalue
    rcases List.eq_nil_or_concat es with rfl | ⟨es, d, rfl⟩
    · simp at hlength
    · rw [List.concat_eq_append] at *
      rw [List.forall_mem_append] at hds hes
      have hc := isDigit_iff.mp (hds.2 c List.mem_cons_self)
      have hd := isDigit_iff.mp (hes.2 d List.mem_cons_self)
      rw [decimal_append_singleton, decimal_append_singleton] at hvalue
      have hfirst := ih hds.1 hes.1 (by simpa using hlength) (by omega)
      have hlast : c = d := by rw [← Char.ofNat_toNat c, ← Char.ofNat_toNat d, show c.toNat = d.toNat by omega]
      rw [hfirst, hlast]

/-- Digits are those of their number, padded to as many. -/
theorem padded_decimal {ds : List Char} (hsome : ds ≠ []) (h : ∀ c ∈ ds, isDigit c = true) : padded ds.length (decimal ds) = ds := by
  have hlength : (padded ds.length (decimal ds)).length = ds.length :=
    length_padded (List.length_pos_iff.mpr hsome) (decimal_lt h)
  exact eq_of_decimal_eq (fun c hc => isDigit_of_mem_padded hc) h hlength (decimal_padded _ _)

end ChannelWatch.Text
