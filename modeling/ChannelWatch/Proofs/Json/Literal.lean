import ChannelWatch.Json.Token
import ChannelWatch.Proofs.Text.Utf8

/-!
# String literals

A string literal spells UTF-16 code units (`Spells`): a character stands for its units, an escape with four digits for one unit.
The literal denotes the text that has these units, if there is one (`Denotes`). The lexer reads off what a literal denotes
(`Lexer.run?_quoted`), also where the two halves of a surrogate pair are escaped and where one of them is missing.
-/

namespace ChannelWatch

namespace Hex

/-- A hexadecimal digit in either case, and its value. -/
def IsDigit (value : Nat) (c : Char) : Prop :=
  value < 16 ∧ (c = lowerDigit value ∨ c = upperDigit value)

/-- The value of a digit is read off it. -/
theorem value?_of_isDigit {value : Nat} {c : Char} (h : IsDigit value c) : value? c = some value := by
  have hlower : ∀ n < 16, value? (lowerDigit n) = some n := by decide
  have hupper : ∀ n < 16, value? (upperDigit n) = some n := by decide
  obtain ⟨hlt, rfl | rfl⟩ := h
  · exact hlower value hlt
  · exact hupper value hlt

end Hex

namespace Json

/-! ## Code units -/

/-- The UTF-16 code units of a character. -/
def units (c : Char) : List Nat :=
  if c.toNat < 0x10000 then [c.toNat]
  else [0xD7C0 + c.toNat / 0x400, 0xDC00 + c.toNat % 0x400]

/-- The characters that may follow a backslash, and what they stand for. -/
def shortEscapes : List (Char × Char) :=
  [('\x22', '\x22'), ('\\', '\\'), ('/', '/'), ('b', '\x08'), ('f', '\x0c'), ('n', '\n'), ('r', '\r'), ('t', '\t')]

/-- Some code units, and characters between quotation marks that spell them. -/
inductive Spells : List Nat → List Char → Prop
  | nil : Spells [] []
  | plain {c : Char} {us : List Nat} {cs : List Char} (quote : c ≠ '\x22') (backslash : c ≠ '\\') (control : 0x20 ≤ c.toNat)
      (rest : Spells us cs) : Spells (units c ++ us) (c :: cs)
  | short {e c : Char} {us : List Nat} {cs : List Char} (escape : (e, c) ∈ shortEscapes) (rest : Spells us cs) :
      Spells (c.toNat :: us) ('\\' :: e :: cs)
  | unit {u v w x : Nat} {a b c d : Char} {us : List Nat} {cs : List Char} (first : Hex.IsDigit u a)
      (second : Hex.IsDigit v b) (third : Hex.IsDigit w c) (fourth : Hex.IsDigit x d) (rest : Spells us cs) :
      Spells ((((u * 16 + v) * 16 + w) * 16 + x) :: us) ('\\' :: 'u' :: a :: b :: c :: d :: cs)

/-- What is denoted by some code units: a text, or nothing if they are those of no text. -/
def Denotes : JsonText → List Nat → Prop
  | some s, us => us = s.toList.flatMap units
  | none, us => ∀ s : List Char, us ≠ s.flatMap units

/-- A character is no surrogate. -/
theorem toNat_char (c : Char) : c.toNat < 0xD800 ∨ 0xDFFF < c.toNat ∧ c.toNat < 0x110000 := by
  have h := c.valid
  simp only [UInt32.isValidChar, Nat.isValidChar] at h
  exact h

theorem units_ofNat {u : Nat} (hlt : u < 0x10000) (hlow : u < 0xD800 ∨ 0xDFFF < u) : units (Char.ofNat u) = [u] := by
  have hvalid : u.isValidChar := hlow.imp id fun h => ⟨h, by omega⟩
  have htoNat : (Char.ofNat u).toNat = u := Utf8.val_ofNat hvalid
  rw [units, htoNat, if_pos hlt]

/-- The code units of a character past the first plane are a surrogate pair. -/
theorem units_ofNat_pair {high low : Nat} (hhigh : 0xD800 ≤ high ∧ high ≤ 0xDBFF) (hlow : 0xDC00 ≤ low ∧ low ≤ 0xDFFF) :
    units (Char.ofNat (0x10000 + (high - 0xD800) * 0x400 + (low - 0xDC00))) = [high, low] := by
  obtain ⟨n, hn⟩ : ∃ n, n = 0x10000 + (high - 0xD800) * 0x400 + (low - 0xDC00) := ⟨_, rfl⟩
  have hvalid : n.isValidChar := Or.inr ⟨by omega, by omega⟩
  have htoNat : (Char.ofNat n).toNat = n := Utf8.val_ofNat hvalid
  have hfirst : 0xD7C0 + n / 0x400 = high := by omega
  have hsecond : 0xDC00 + n % 0x400 = low := by omega
  rw [← hn, units, htoNat, if_neg (by omega), hfirst, hsecond]

/-- Code units have sixteen bits. -/
theorem units_lt {c : Char} {u : Nat} (h : u ∈ units c) : u < 0x10000 := by
  have hc := toNat_char c
  unfold units at h
  split at h <;> simp only [List.mem_cons, List.not_mem_nil, or_false] at h <;> omega

/-- Code units that are spelled have sixteen bits. -/
theorem Spells.lt {us : List Nat} {cs : List Char} (h : Spells us cs) : ∀ u ∈ us, u < 0x10000 := by
  induction h with
  | nil => nofun
  | plain _ _ _ _ ih => exact fun u hu => (List.mem_append.mp hu).elim units_lt (ih u)
  | @short e c _ _ escape _ ih =>
    have hshort : ∀ m ∈ shortEscapes, m.2.toNat < 0x10000 := by decide
    exact fun u hu => (List.mem_cons.mp hu).elim (fun heq => heq ▸ hshort _ escape) (ih u)
  | unit first second third fourth _ ih =>
    intro n hn
    rcases List.mem_cons.mp hn with rfl | hn
    · have := first.1
      have := second.1
      have := third.1
      have := fourth.1
      omega
    · exact ih n hn

/-! ## Reading code units -/

namespace Literal

/-- The literal that has not begun. -/
def empty : Literal :=
  ⟨[], true, none⟩

/-- The literal with some more code units. -/
def pushUnits (l : Literal) (us : List Nat) : Literal :=
  us.foldl pushUnit l

/-- A surrogate pair is read as the character that has it. -/
theorem pushUnit_pair (l : Literal) {high low : Nat} (hhigh : 0xD800 ≤ high ∧ high ≤ 0xDBFF)
    (hlow : 0xDC00 ≤ low ∧ low ≤ 0xDFFF) :
    (l.pushUnit high).pushUnit low = l.push (Char.ofNat (0x10000 + (high - 0xD800) * 0x400 + (low - 0xDC00))) := by
  have hnot : ¬(0xD800 ≤ low ∧ low ≤ 0xDBFF) := by omega
  rw [pushUnit.eq_def l, if_pos hhigh, pushUnit, if_neg hnot, if_pos hlow]
  rfl

/-- A character is as good as its code units. -/
theorem pushUnits_units (l : Literal) (c : Char) : l.pushUnits (units c) = l.push c := by
  have hc := toNat_char c
  unfold units pushUnits
  split
  · have hhigh : ¬(0xD800 ≤ c.toNat ∧ c.toNat ≤ 0xDBFF) := by omega
    have hlow : ¬(0xDC00 ≤ c.toNat ∧ c.toNat ≤ 0xDFFF) := by omega
    rw [List.foldl_cons, List.foldl_nil, pushUnit, if_neg hhigh, if_neg hlow, Char.ofNat_toNat]
  · obtain ⟨n, hn⟩ : ∃ n, n = c.toNat := ⟨_, rfl⟩
    have hvalue : 0x10000 + (0xD7C0 + n / 0x400 - 0xD800) * 0x400 + (0xDC00 + n % 0x400 - 0xDC00) = n := by omega
    rw [← hn, List.foldl_cons, List.foldl_cons, List.foldl_nil, pushUnit_pair l (by omega) (by omega), hvalue, hn,
      Char.ofNat_toNat]

theorem pushUnits_append (l : Literal) (us vs : List Nat) : l.pushUnits (us ++ vs) = (l.pushUnits us).pushUnits vs :=
  List.foldl_append

/-- The literal has read some code units: as long as it is sound, its characters have them, and the one that waits comes
after them. -/
def HasRead (l : Literal) (us : List Nat) : Prop :=
  l.sound = true →
    us = l.chars.reverse.flatMap units ++ l.high.toList ∧ ∀ high ∈ l.high, 0xD800 ≤ high ∧ high ≤ 0xDBFF

/-- One more code unit is read. -/
theorem HasRead.pushUnit {l : Literal} {us : List Nat} {u : Nat} (h : l.HasRead us) (hu : u < 0x10000) :
    (l.pushUnit u).HasRead (us ++ [u]) := by
  unfold Literal.pushUnit
  split_ifs with hhigh hlow
  · intro hsound
    obtain ⟨hl, hnone⟩ := Bool.and_eq_true_iff.mp hsound
    have hus := (h hl).1
    rw [Option.isNone_iff_eq_none.mp hnone, Option.toList_none, List.append_nil] at hus
    exact ⟨by rw [hus]; rfl, fun high hmem => Option.some.inj hmem ▸ hhigh⟩
  · cases hwait : l.high with
    | none => exact nofun
    | some high =>
      intro hsound
      obtain ⟨hus, hl⟩ := h hsound
      rw [hwait, Option.toList_some] at hus
      refine ⟨?_, nofun⟩
      rw [hus, List.reverse_cons, List.flatMap_append, List.flatMap_singleton,
        units_ofNat_pair (hl high (by rw [hwait]; rfl)) hlow, List.append_assoc, Option.toList_none, List.append_nil]
      rfl
  · intro hsound
    obtain ⟨hl, hnone⟩ := Bool.and_eq_true_iff.mp hsound
    have hus := (h hl).1
    rw [Option.isNone_iff_eq_none.mp hnone, Option.toList_none, List.append_nil] at hus
    refine ⟨?_, nofun⟩
    rw [hus, Literal.push, List.reverse_cons, List.flatMap_append, List.flatMap_singleton, units_ofNat hu (by omega),
      Option.toList_none, List.append_nil]

/-- Code units are read one after the other. -/
theorem HasRead.pushUnits {us : List Nat} : ∀ {l : Literal} {vs : List Nat}, l.HasRead vs → (∀ u ∈ us, u < 0x10000) →
    (l.pushUnits us).HasRead (vs ++ us) := by
  induction us with
  | nil =>
    intro l vs h _
    rwa [List.append_nil]
  | cons u us ih =>
    intro l vs h hus
    have hone := h.pushUnit (hus u List.mem_cons_self)
    have hrest := ih hone fun w hw => hus w (List.mem_cons_of_mem u hw)
    rwa [List.append_assoc] at hrest

/-- The code units of a text are read as the text. -/
theorem pushUnits_flatMap (s : List Char) : ∀ l : Literal, l.pushUnits (s.flatMap units) = s.foldl push l := by
  induction s with
  | nil => exact fun _ => rfl
  | cons c s ih =>
    intro l
    rw [List.flatMap_cons, pushUnits_append, pushUnits_units, ih]
    rfl

/-- The characters of a text are read one after the other. -/
theorem foldl_push (s : List Char) : ∀ chars : List Char, s.foldl push ⟨chars, true, none⟩ = ⟨s.reverse ++ chars, true, none⟩ := by
  induction s with
  | nil => exact fun _ => rfl
  | cons c s ih =>
    intro chars
    have hone : push ⟨chars, true, none⟩ c = ⟨c :: chars, true, none⟩ := rfl
    rw [List.foldl_cons, hone, ih, List.reverse_cons, List.append_assoc, List.singleton_append]

/-- A finished literal denotes what its code units denote. -/
theorem finish_pushUnits {t : JsonText} {us : List Nat} (h : Denotes t us) (hus : ∀ u ∈ us, u < 0x10000) :
    (empty.pushUnits us).finish = t := by
  cases t with
  | some s =>
    have hread : empty.pushUnits us = ⟨s.toList.reverse ++ [], true, none⟩ := by
      rw [show us = s.toList.flatMap units from h, pushUnits_flatMap, empty, foldl_push]
    rw [hread, finish, if_pos ⟨rfl, rfl⟩, List.append_nil, List.reverse_reverse, String.ofList_toList]
  | none =>
    have hempty : empty.HasRead [] := fun _ => ⟨rfl, nofun⟩
    rw [finish, if_neg]
    rintro ⟨hsound, hnone⟩
    have hread := (hempty.pushUnits hus hsound).1
    rw [Option.isNone_iff_eq_none.mp hnone, Option.toList_none, List.append_nil, List.nil_append] at hread
    exact h _ hread

end Literal

/-! ## Reading literals -/

theorem Lexer.run?_cons (l : Lexer) (c : Char) (cs : List Char) : l.run? (c :: cs) = (l.step? c).bind (run? · cs) := by
  rw [run?]
  cases l.step? c <;> rfl

theorem shortEscape?_of_mem {e c : Char} (h : (e, c) ∈ shortEscapes) : e ≠ 'u' ∧ shortEscape? e = some c := by
  have hall : ∀ m ∈ shortEscapes, m.1 ≠ 'u' ∧ shortEscape? m.1 = some m.2 := by decide
  exact hall _ h

/-- A character that a short escape stands for is its only code unit. -/
theorem Literal.pushUnit_short {e c : Char} (h : (e, c) ∈ shortEscapes) (l : Literal) : l.pushUnit c.toNat = l.push c := by
  have hall : ∀ m ∈ shortEscapes, units m.2 = [m.2.toNat] := by decide
  rw [← l.pushUnits_units c, hall _ h]
  rfl

/-- The lexer reads the rest of a string literal. -/
theorem Lexer.run?_literal {us : List Nat} {cs : List Char} (h : Spells us cs) (toks : List Token) (rest : List Char) :
    ∀ l : Literal, run? ⟨.string l .none, toks⟩ (cs ++ '\x22' :: rest)
      = run? ⟨.between, .string (l.pushUnits us).finish :: toks⟩ rest := by
  induction h with
  | nil =>
    intro l
    simp only [List.nil_append, run?_cons, step?, inString?, if_pos, Option.bind_some]
    rfl
  | @plain c us cs quote backslash control _ ih =>
    intro l
    simp only [List.cons_append, run?_cons, step?, inString?, if_neg quote, if_neg backslash,
      if_neg (Nat.not_lt.mpr control), Option.bind_some]
    rw [ih, ← Literal.pushUnits_units, ← Literal.pushUnits_append]
  | @short e c us cs escape _ ih =>
    intro l
    obtain ⟨hu, he⟩ := shortEscape?_of_mem escape
    have hbackslash : '\\' ≠ '\x22' := by decide
    simp only [List.cons_append, run?_cons, step?, inString?, if_neg hbackslash, if_pos, if_neg hu, he, Option.map_some,
      Option.bind_some]
    rw [ih, ← Literal.pushUnit_short escape]
    rfl
  | @unit u v w x a b c d us cs first second third fourth _ ih =>
    intro l
    have hdigits : ∀ {count value digit : Nat} {e : Char} (cs : List Char), Hex.IsDigit digit e → count ≠ 3 →
        run? ⟨.string l (.digits count value), toks⟩ (e :: cs)
          = run? ⟨.string l (.digits (count + 1) (value * 16 + digit)), toks⟩ cs := by
      intro count value digit e cs he hcount
      simp only [run?_cons, step?, inString?, Hex.value?_of_isDigit he, Option.map_some, if_neg hcount, Option.bind_some]
    have hlast : ∀ {value digit : Nat} {e : Char} (cs : List Char), Hex.IsDigit digit e →
        run? ⟨.string l (.digits 3 value), toks⟩ (e :: cs)
          = run? ⟨.string (l.pushUnit (value * 16 + digit)) .none, toks⟩ cs := by
      intro value digit e cs he
      simp only [run?_cons, step?, inString?, Hex.value?_of_isDigit he, Option.map_some, if_pos, Option.bind_some]
    have hbackslash : '\\' ≠ '\x22' := by decide
    have hbegin : ∀ cs : List Char,
        run? ⟨.string l .none, toks⟩ ('\\' :: 'u' :: cs) = run? ⟨.string l (.digits 0 0), toks⟩ cs := by
      intro cs
      simp only [run?_cons, step?, inString?, if_neg hbackslash, if_pos, Option.bind_some]
    simp only [List.cons_append]
    rw [hbegin, hdigits _ first (by decide), hdigits _ second (by decide), hdigits _ third (by decide), hlast _ fourth, ih,
      Nat.zero_mul, Nat.zero_add]
    rfl

/-- The lexer reads a string literal as the token of what it denotes. -/
theorem Lexer.run?_quoted {t : JsonText} {us : List Nat} {cs : List Char} (hspells : Spells us cs) (hdenotes : Denotes t us)
    (toks : List Token) (rest : List Char) :
    run? ⟨.between, toks⟩ ('\x22' :: cs ++ '\x22' :: rest) = run? ⟨.between, .string t :: toks⟩ rest := by
  rw [List.cons_append, run?_cons, step?, start?, if_neg (by decide), if_pos rfl, Option.bind_some,
    run?_literal hspells toks rest, ← Literal.finish_pushUnits hdenotes hspells.lt]
  rfl

end Json

end ChannelWatch
