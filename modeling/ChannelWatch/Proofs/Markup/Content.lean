import ChannelWatch.Proofs.Json.Literal
import ChannelWatch.Proofs.Markup.Spelled
import Mathlib.Data.List.Forall2

/-!
# Escaped text

How a text is written where some characters have a meaning (`Escapes`): each character stands for itself, or an entity stands for it, by
a name or by its number in either base. What is written is put back (`unescape?_of_escapes`), and the attributes of a tag are recovered
from how they are written (`attributes?_of_writes`).
-/

namespace ChannelWatch.Markup

/-- The characters with entities of their own, and what is between the ampersand and the semicolon. -/
def entities : List (Char × List Char) :=
  [('<', "lt".toList), ('>', "gt".toList), ('&', "amp".toList), ('\x27', "apos".toList), ('\x22', "quot".toList)]

/-- Digits to a base, as they are written, and the number that they make. -/
def WritesNumber (base n : Nat) (cs : List Char) : Prop :=
  cs ≠ [] ∧ ∃ ds, List.Forall₂ Hex.IsDigit ds cs ∧ (∀ d ∈ ds, d < base) ∧ ds.foldl (fun n d => n * base + d) 0 = n

/-- A text and how it is written, with characters escaped or not. -/
inductive Escapes : List Char → List Char → Prop
  | nil : Escapes [] []
  | plain {c : Char} {value raw : List Char} (hc : c ≠ '&') (rest : Escapes value raw) : Escapes (c :: value) (c :: raw)
  | named {c : Char} {name value raw : List Char} (entity : (c, name) ∈ entities) (rest : Escapes value raw) :
      Escapes (c :: value) ('&' :: (name ++ ';' :: raw))
  | decimal {c : Char} {digits value raw : List Char} (number : WritesNumber 10 c.toNat digits) (zero : c.toNat ≠ 0)
      (rest : Escapes value raw) : Escapes (c :: value) ('&' :: '#' :: (digits ++ ';' :: raw))
  | hexadecimal {c : Char} {digits value raw : List Char} (number : WritesNumber 16 c.toNat digits) (zero : c.toNat ≠ 0)
      (rest : Escapes value raw) : Escapes (c :: value) ('&' :: '#' :: 'x' :: (digits ++ ';' :: raw))

theorem escapes_self {value : List Char} (h : '&' ∉ value) : Escapes value value := by
  induction value with
  | nil => exact .nil
  | cons c value ih => exact .plain (fun heq => h (heq ▸ List.mem_cons_self)) (ih (List.not_mem_of_not_mem_cons h))

/-! ## Entities -/

/-- A character is read from its number. -/
theorem charOfDigits?_of_writesNumber {base : Nat} {c : Char} {digits : List Char} (h : WritesNumber base c.toNat digits)
    (hzero : c.toNat ≠ 0) : charOfDigits? base digits = some c := by
  obtain ⟨hsome, ds, hdigits, hlt, hvalue⟩ := h
  have hfold : ∀ n, digits.foldl (fun n c => do
      let n ← n
      let d ← Hex.value? c
      if d < base then some (n * base + d) else none) (some n) = some (ds.foldl (fun n d => n * base + d) n) := by
    clear hvalue hsome
    induction hdigits with
    | nil => exact fun _ => rfl
    | @cons d e ds digits hd _ ih =>
      intro n
      rw [List.foldl_cons, List.foldl_cons, ← ih fun x hx => hlt x (List.mem_cons_of_mem d hx)]
      simp only [Option.bind_eq_bind, Option.bind_some, Hex.value?_of_isDigit hd, if_pos (hlt d List.mem_cons_self)]
  have hvalid : c.toNat.isValidChar := c.valid
  have hchar : ¬(digits.isEmpty = true ∨ c.toNat = 0 ∨ ¬c.toNat.isValidChar) := by
    rw [List.isEmpty_iff]
    exact not_or.mpr ⟨hsome, not_or.mpr ⟨hzero, not_not.mpr hvalid⟩⟩
  rw [charOfDigits?, hfold 0, hvalue]
  simp only [if_neg hchar, Char.ofNat_toNat]

/-- Digits are neither semicolons nor ampersands, nor do those to the base ten begin like those to the base sixteen. -/
theorem ne_of_isDigit {value : Nat} {c : Char} (h : Hex.IsDigit value c) : c ≠ ';' ∧ c ≠ '&' ∧ c ≠ 'x' := by
  have hlower : ∀ n < 16, Hex.lowerDigit n ≠ ';' ∧ Hex.lowerDigit n ≠ '&' ∧ Hex.lowerDigit n ≠ 'x' := by decide
  have hupper : ∀ n < 16, Hex.upperDigit n ≠ ';' ∧ Hex.upperDigit n ≠ '&' ∧ Hex.upperDigit n ≠ 'x' := by decide
  obtain ⟨hlt, rfl | rfl⟩ := h
  · exact hlower value hlt
  · exact hupper value hlt

/-- No digit is one of those characters. -/
theorem WritesNumber.ne {base n : Nat} {digits : List Char} (h : WritesNumber base n digits) :
    ∀ c ∈ digits, c ≠ ';' ∧ c ≠ '&' ∧ c ≠ 'x' := by
  obtain ⟨-, ds, hdigits, -, -⟩ := h
  induction hdigits with
  | nil => exact List.forall_mem_nil _
  | cons hd _ ih => exact List.forall_mem_cons.mpr ⟨ne_of_isDigit hd, ih⟩

/-- What is between an ampersand and a semicolon is read as the character that it stands for. -/
theorem unescapeFrom?_entity {name : List Char} {c : Char} (hname : ∀ d ∈ name, d ≠ ';' ∧ d ≠ '&') (hc : entity? name = some c)
    (acc raw : List Char) : unescapeFrom? acc none ('&' :: (name ++ ';' :: raw)) = unescapeFrom? (c :: acc) none raw := by
  have hwalk : ∀ begun, entity? (begun.reverse ++ name) = some c →
      unescapeFrom? acc (some begun) (name ++ ';' :: raw) = unescapeFrom? (c :: acc) none raw := by
    clear hc
    induction name with
    | nil =>
      intro begun hbegun
      rw [List.append_nil] at hbegun
      rw [List.nil_append, unescapeFrom?, if_pos rfl, hbegun]
    | cons d name ih =>
      intro begun hbegun
      obtain ⟨hsemicolon, hampersand⟩ := hname d List.mem_cons_self
      have hrest := ih (fun e he => hname e (List.mem_cons_of_mem d he)) (d :: begun)
        (by rwa [List.reverse_cons, List.append_assoc, List.singleton_append])
      rw [List.cons_append, unescapeFrom?, if_neg hsemicolon, if_neg hampersand, hrest]
  rw [unescapeFrom?, if_pos rfl]
  exact hwalk [] hc

theorem entity?_of_mem {c : Char} {name : List Char} (h : (c, name) ∈ entities) :
    entity? name = some c ∧ ∀ d ∈ name, d ≠ ';' ∧ d ≠ '&' := by
  have hall : ∀ m ∈ entities, entity? m.2 = some m.1 ∧ ';' ∉ m.2 ∧ '&' ∉ m.2 := by decide
  obtain ⟨hentity, hsemicolon, hampersand⟩ := hall _ h
  exact ⟨hentity, fun d hd => ⟨fun heq => hsemicolon (heq ▸ hd), fun heq => hampersand (heq ▸ hd)⟩⟩

/-- A number is an entity, in either base. -/
theorem entity?_of_writesNumber {c : Char} {digits : List Char} (hzero : c.toNat ≠ 0) :
    (WritesNumber 10 c.toNat digits → entity? ('#' :: digits) = some c) ∧
      (WritesNumber 16 c.toNat digits → entity? ('#' :: 'x' :: digits) = some c) := by
  refine ⟨fun h => ?_, fun h => charOfDigits?_of_writesNumber h hzero⟩
  rw [← charOfDigits?_of_writesNumber h hzero]
  unfold entity?
  split
  · rename_i others heq
    have hx : 'x' ∈ digits := (List.cons.inj heq).2 ▸ List.mem_cons_self
    exact absurd rfl (h.ne 'x' hx).2.2
  · rename_i others _ heq
    rw [(List.cons.inj heq).2]
  · rename_i _ hother
    exact absurd rfl (hother digits)

/-- A text is put back from how it is written. -/
theorem unescapeFrom?_of_escapes {value raw : List Char} (h : Escapes value raw) :
    ∀ acc : List Char, unescapeFrom? acc none raw = some (acc.reverse ++ value) := by
  induction h with
  | nil => exact fun acc => by rw [unescapeFrom?, List.append_nil]
  | @plain c value raw hc _ ih =>
    intro acc
    rw [unescapeFrom?, if_neg hc, ih, List.reverse_cons, List.append_assoc, List.singleton_append]
  | @named c name value raw entity _ ih =>
    intro acc
    obtain ⟨hc, hname⟩ := entity?_of_mem entity
    rw [unescapeFrom?_entity hname hc, ih, List.reverse_cons, List.append_assoc, List.singleton_append]
  | @decimal c digits value raw number zero _ ih =>
    intro acc
    have hname : ∀ d ∈ '#' :: digits, d ≠ ';' ∧ d ≠ '&' :=
      List.forall_mem_cons.mpr ⟨by decide, fun d hd => ⟨(number.ne d hd).1, (number.ne d hd).2.1⟩⟩
    have hread := unescapeFrom?_entity hname ((entity?_of_writesNumber zero).1 number) acc raw
    rw [List.cons_append] at hread
    rw [hread, ih, List.reverse_cons, List.append_assoc, List.singleton_append]
  | @hexadecimal c digits value raw number zero _ ih =>
    intro acc
    have hname : ∀ d ∈ '#' :: 'x' :: digits, d ≠ ';' ∧ d ≠ '&' :=
      List.forall_mem_cons.mpr ⟨by decide, List.forall_mem_cons.mpr ⟨by decide, fun d hd => ⟨(number.ne d hd).1, (number.ne d hd).2.1⟩⟩⟩
    have hread := unescapeFrom?_entity hname ((entity?_of_writesNumber zero).2 number) acc raw
    rw [List.cons_append, List.cons_append] at hread
    rw [hread, ih, List.reverse_cons, List.append_assoc, List.singleton_append]

/-- A text is put back from how it is written. -/
theorem unescape?_of_escapes {value raw : List Char} (h : Escapes value raw) : unescape? raw = some value :=
  unescapeFrom?_of_escapes h []

/-! ## Runs of text -/

/-- A part of a run and its text. -/
inductive Chunk.Reads : Chunk → List Char → Prop
  | raw {value text : List Char} (escapes : Escapes value text) : Reads (.raw text) value
  | verbatim (text : List Char) : Reads (.verbatim text) text

/-- The parts of a run and its text. -/
inductive RunReads : List Chunk → List Char → Prop
  | nil : RunReads [] []
  | cons {chunk : Chunk} {chunks : List Chunk} {part value : List Char} (first : chunk.Reads part) (rest : RunReads chunks value) :
      RunReads (chunk :: chunks) (part ++ value)

/-- The text of a run is read from its parts. -/
theorem runValue_of_reads {chunks : List Chunk} {value : List Char} (h : RunReads chunks value) : runValue chunks = .ok value := by
  have hparts : ∃ parts, chunks.mapM Chunk.value? = some parts ∧ parts.flatten = value := by
    induction h with
    | nil => exact ⟨[], rfl, rfl⟩
    | @cons chunk chunks part value first _ ih =>
      obtain ⟨parts, hparts, hvalue⟩ := ih
      have hfirst : chunk.value? = some part := by
        cases first with
        | raw escapes => exact unescape?_of_escapes escapes
        | verbatim => rfl
      refine ⟨part :: parts, ?_, by rw [List.flatten_cons, hvalue]⟩
      rw [List.mapM_cons, hfirst, hparts]
      rfl
  obtain ⟨parts, hparts, hvalue⟩ := hparts
  rw [runValue, hparts, ← hvalue]

/-! ## Attributes -/

namespace AttributeReader

/-- A reader of attributes takes some characters. -/
def run? (r : AttributeReader) (text : List Char) : Option AttributeReader :=
  text.foldl (fun r c => r.bind (·.step? c)) (some r)

theorem run?_cons {r next : AttributeReader} {c : Char} (h : r.step? c = some next) (text : List Char) :
    r.run? (c :: text) = next.run? text := by
  rw [run?, run?, List.foldl_cons, Option.bind_some, h]

/-- White space is passed over outside names and values. -/
theorem run?_blank {r : AttributeReader} (hr : ∀ c, isBlank c = true → r.step? c = some r) {blank : List Char}
    (h : ∀ c ∈ blank, isBlank c = true) (text : List Char) : r.run? (blank ++ text) = r.run? text := by
  induction blank with
  | nil => rfl
  | cons c blank ih =>
    rw [List.cons_append, run?_cons (hr c (h c List.mem_cons_self)), ih fun d hd => h d (List.mem_cons_of_mem c hd)]

/-- A name is read up to the equals sign or white space behind it. -/
theorem run?_name {name : List Char} (h : IsName name) (done : List Attribute) (text : List Char) :
    run? ⟨.before, done⟩ (name ++ text) = run? ⟨.name name.reverse, done⟩ text := by
  have hwalk : ∀ rest, (∀ c ∈ rest, isBlank c = false ∧ c ≠ '=') → ∀ acc,
      run? ⟨.name acc, done⟩ (rest ++ text) = run? ⟨.name (rest.reverse ++ acc), done⟩ text := by
    intro rest
    induction rest with
    | nil => exact fun _ _ => rfl
    | cons c rest ih =>
      intro hrest acc
      obtain ⟨hblank, hequals⟩ := hrest c List.mem_cons_self
      have hstep : step? ⟨.name acc, done⟩ c = some ⟨.name (c :: acc), done⟩ := by
        simp only [step?, if_neg hequals, hblank, Bool.false_eq_true, if_false]
      rw [List.cons_append, run?_cons hstep, ih (fun d hd => hrest d (List.mem_cons_of_mem c hd)), List.reverse_cons,
        List.append_assoc, List.singleton_append]
  have hchars : ∀ c ∈ name, isBlank c = false ∧ c ≠ '=' := fun c hc => ⟨(h.2 c hc).1, h.ne hc (by decide)⟩
  obtain ⟨c, rest, rfl⟩ := List.exists_cons_of_ne_nil h.1
  have hstep : step? ⟨.before, done⟩ c = some ⟨.name [c], done⟩ := by
    simp only [step?, (hchars c List.mem_cons_self).1, Bool.false_eq_true, if_false]
  rw [List.cons_append, run?_cons hstep, hwalk rest fun d hd => hchars d (List.mem_cons_of_mem c hd), List.reverse_cons]

/-- An equals sign is read behind a name, with white space before it or without. -/
theorem run?_equals {before : List Char} (h : ∀ c ∈ before, isBlank c = true) (name : List Char) (done : List Attribute)
    (text : List Char) : run? ⟨.name name.reverse, done⟩ (before ++ '=' :: text) = run? ⟨.quote name, done⟩ text := by
  cases before with
  | nil =>
    have hstep : step? ⟨.name name.reverse, done⟩ '=' = some ⟨.quote name, done⟩ := by
      simp only [step?, if_true, List.reverse_reverse]
    rw [List.nil_append, run?_cons hstep]
  | cons c before =>
    have hblank := h c List.mem_cons_self
    have hequals : c ≠ '=' := ne_of_isBlank hblank rfl
    have hstep : step? ⟨.name name.reverse, done⟩ c = some ⟨.equals name, done⟩ := by
      simp only [step?, if_neg hequals, hblank, if_true, List.reverse_reverse]
    have hpass : ∀ d, isBlank d = true → step? ⟨.equals name, done⟩ d = some ⟨.equals name, done⟩ := fun d hd => if_pos hd
    have hsign : step? ⟨.equals name, done⟩ '=' = some ⟨.quote name, done⟩ := rfl
    rw [List.cons_append, run?_cons hstep, run?_blank hpass fun d hd => h d (List.mem_cons_of_mem c hd), run?_cons hsign]

/-- A quoted value is read; the name may not have come before. -/
theorem run?_value {q : Char} (hq : q = '\x22' ∨ q = '\x27') {name value : List Char} (hvalue : q ∉ value) {done : List Attribute}
    (hfresh : ∀ a ∈ done, a.name ≠ name) (text : List Char) :
    run? ⟨.quote name, done⟩ (q :: (value ++ q :: text)) = run? ⟨.before, ⟨name, value⟩ :: done⟩ text := by
  have hwalk : ∀ rest, q ∉ rest → ∀ acc, run? ⟨.value name q acc, done⟩ (rest ++ q :: text)
      = run? ⟨.before, ⟨name, acc.reverse ++ rest⟩ :: done⟩ text := by
    intro rest
    induction rest with
    | nil =>
      intro _ acc
      have hstep : step? ⟨.value name q acc, done⟩ q = some ⟨.before, ⟨name, acc.reverse⟩ :: done⟩ := if_pos rfl
      rw [List.nil_append, run?_cons hstep, List.append_nil]
    | cons c rest ih =>
      intro hrest acc
      obtain ⟨hc, hrest⟩ := List.ne_and_not_mem_of_not_mem_cons hrest
      have hstep : step? ⟨.value name q acc, done⟩ c = some ⟨.value name q (c :: acc), done⟩ := if_neg fun heq => hc heq.symm
      rw [List.cons_append, run?_cons hstep, ih hrest, List.reverse_cons, List.append_assoc, List.singleton_append]
  have hblank : isBlank q = false := by rcases hq with rfl | rfl <;> rfl
  have hall : (q = '\x22' ∨ q = '\x27') ∧ done.all (·.name ≠ name) = true :=
    ⟨hq, List.all_eq_true.mpr fun a ha => decide_eq_true (hfresh a ha)⟩
  have hstep : step? ⟨.quote name, done⟩ q = some ⟨.value name q [], done⟩ := by
    simp only [step?, hblank, Bool.false_eq_true, if_false, if_pos hall]
  rw [run?_cons hstep, hwalk value hvalue]
  rfl

/-- Attributes are read one after the other. -/
theorem run?_attributes {as : List Attribute} {text : List Char} (h : WritesAttributes as text) :
    ∀ done : List Attribute, (∀ a ∈ as, ∀ d ∈ done, d.name ≠ a.name) → run? ⟨.before, done⟩ text = some ⟨.before, as.reverse ++ done⟩ := by
  have hpass : ∀ done c, isBlank c = true → step? ⟨.before, done⟩ c = some ⟨.before, done⟩ := fun done c hc => if_pos hc
  induction h with
  | @nil blank blanks =>
    intro done _
    rw [← List.append_nil blank, run?_blank (hpass done) blanks]
    rfl
  | @cons a as blank before after text q apart blanks name fresh blanksBefore blanksAfter quote value rest ih =>
    intro done hdone
    have hquote : ∀ c, isBlank c = true → step? ⟨.quote a.name, done⟩ c = some ⟨.quote a.name, done⟩ := fun c hc => if_pos hc
    rw [run?_blank (hpass done) blanks, run?_name name, run?_equals blanksBefore, run?_blank hquote blanksAfter,
      run?_value quote value (hdone a List.mem_cons_self), ih, List.reverse_cons, List.append_assoc, List.singleton_append]
    intro b hb d hd
    rcases List.mem_cons.mp hd with rfl | hd
    · exact fun heq => fresh b hb heq.symm
    · exact hdone b (List.mem_cons_of_mem a hb) d hd

end AttributeReader

/-- The attributes of a tag are recovered. -/
theorem attributes?_of_writes {as : List Attribute} {text : List Char} (h : WritesAttributes as text) : attributes? text = some as := by
  have hrun := AttributeReader.run?_attributes h [] fun _ _ _ hd => absurd hd List.not_mem_nil
  rw [AttributeReader.run?, List.append_nil] at hrun
  rw [attributes?, hrun, Option.bind_some, AttributeReader.finish?, List.reverse_reverse]

end ChannelWatch.Markup
