import ChannelWatch.Json.Reader
import ChannelWatch.Proofs.Json.Literal
import ChannelWatch.Proofs.Text.Digits
import Mathlib.Data.List.Chain

/-!
# Texts that say a value

A text says a value if it spells the value's tokens one after the other, with white space wherever it likes (`Json.Written`). How a
string escapes its characters is free, and so is nothing else: a number is spelled as the value keeps it. The reader recovers the value
from every such text (`read?_of_written`).
-/

namespace ChannelWatch.Json

/-! ## Spelling tokens -/

/-- One digit or more. -/
def IsDigits (cs : List Char) : Prop :=
  cs ≠ [] ∧ ∀ c ∈ cs, Text.isDigit c = true

/-- What follows the integer part of a number: a fraction or not, then an exponent or not. -/
inductive IsTail : List Char → Prop
  | empty : IsTail []
  | fraction {ds : List Char} (digits : IsDigits ds) : IsTail ('.' :: ds)
  | exponent {e : Char} {sign ds : List Char} (mark : e = 'e' ∨ e = 'E') (signs : sign = [] ∨ sign = ['+'] ∨ sign = ['-'])
      (digits : IsDigits ds) : IsTail (e :: sign ++ ds)
  | both {e : Char} {fs sign ds : List Char} (fraction : IsDigits fs) (mark : e = 'e' ∨ e = 'E')
      (signs : sign = [] ∨ sign = ['+'] ∨ sign = ['-']) (digits : IsDigits ds) : IsTail ('.' :: fs ++ (e :: sign ++ ds))

/-- The characters of a token. -/
inductive Token.Spelled : Token → List Char → Prop
  | openArray : Spelled .openArray ['[']
  | closeArray : Spelled .closeArray [']']
  | openObject : Spelled .openObject ['\x7b']
  | closeObject : Spelled .closeObject ['\x7d']
  | comma : Spelled .comma [',']
  | colon : Spelled .colon [':']
  | null : Spelled .null "null".toList
  | true : Spelled (.bool true) "true".toList
  | false : Spelled (.bool false) "false".toList
  | number {n : JsonNumber} (tail : IsTail n.tail) :
      Spelled (.number n) ((if n.negative then ['-'] else []) ++ (Text.ofNat n.whole ++ n.tail))
  | string {s : JsonText} {us : List Nat} {cs : List Char} (spells : Spells us cs) (denotes : Denotes s us) :
      Spelled (.string s) ('\x22' :: cs ++ ['\x22'])

/-- The characters of some tokens, with white space before, between and behind them. -/
inductive Spaced : List Token → List Char → Prop
  | nil {blank : List Char} (blanks : ∀ c ∈ blank, isBlank c = true) : Spaced [] blank
  | cons {t : Token} {ts : List Token} {blank cs text : List Char} (blanks : ∀ c ∈ blank, isBlank c = true)
      (spelled : t.Spelled cs) (rest : Spaced ts text) : Spaced (t :: ts) (blank ++ (cs ++ text))

/-- The token is a number. -/
def Token.isNumber : Token → Bool
  | .number _ => true
  | _ => false

/-- No number directly follows another. -/
def Apart (ts : List Token) : Prop :=
  ts.IsChain fun a b => a.isNumber = true → b.isNumber = false

/-! ## Tokens are read -/

/-- The tokens of a text that a lexer has begun to read. -/
def Lexer.tokens? (l : Lexer) (text : List Char) : Option (List Token) :=
  (l.run? text).bind finish?

namespace Lexer

/-- White space is passed over. -/
theorem run?_blank {blank : List Char} (h : ∀ c ∈ blank, isBlank c = true) (toks : List Token) (text : List Char) :
    run? ⟨.between, toks⟩ (blank ++ text) = run? ⟨.between, toks⟩ text := by
  induction blank with
  | nil => rfl
  | cons c blank ih =>
    rw [List.cons_append, run?_cons, step?, start?, if_pos (h c List.mem_cons_self), Option.bind_some]
    exact ih fun d hd => h d (List.mem_cons_of_mem c hd)

/-- A lexer runs over a text, then over the rest. -/
theorem run?_append (first rest : List Char) : ∀ l : Lexer, l.run? (first ++ rest) = (l.run? first).bind (run? · rest) := by
  induction first with
  | nil => exact fun _ => rfl
  | cons c first ih =>
    intro l
    rw [List.cons_append, run?_cons, run?_cons, Option.bind_assoc]
    congr 1
    funext next
    exact ih next

theorem step?_tail {phase next : NumberPhase} {c : Char} (h : phase.next? c = some next) (hzero : next ≠ .zero) (hwhole : next ≠ .whole)
    (negative : Bool) (whole : Nat) (tail : List Char) (toks : List Token) :
    step? ⟨.number phase negative whole tail, toks⟩ c = some ⟨.number next negative whole (c :: tail), toks⟩ := by
  simp only [step?, inNumber?, h]

/-- The digits of the integer part are read as their value. -/
theorem run?_whole {ds : List Char} (h : ∀ c ∈ ds, Text.isDigit c = true) (negative : Bool) (toks : List Token) :
    ∀ n : Nat, run? ⟨.number .whole negative n [], toks⟩ ds
      = some ⟨.number .whole negative (ds.foldl (fun n c => n * 10 + (c.toNat - 0x30)) n) [], toks⟩ := by
  induction ds with
  | nil => exact fun _ => rfl
  | cons c ds ih =>
    intro n
    have hnext : NumberPhase.next? .whole c = some .whole := if_pos (h c List.mem_cons_self)
    rw [run?_cons]
    simp only [step?, inNumber?, hnext, Option.bind_some]
    exact ih (fun d hd => h d (List.mem_cons_of_mem c hd)) _

/-- A run of digits that leaves the phase as it is goes into the tail. -/
theorem run?_digits {phase : NumberPhase} (hphase : ∀ c, Text.isDigit c = true → phase.next? c = some phase) (hzero : phase ≠ .zero)
    (hwhole : phase ≠ .whole) {ds : List Char} (h : ∀ c ∈ ds, Text.isDigit c = true) (negative : Bool) (whole : Nat)
    (toks : List Token) : ∀ tail : List Char, run? ⟨.number phase negative whole tail, toks⟩ ds
      = some ⟨.number phase negative whole (ds.reverse ++ tail), toks⟩ := by
  induction ds with
  | nil => exact fun _ => rfl
  | cons c ds ih =>
    intro tail
    rw [run?_cons, step?_tail (hphase c (h c List.mem_cons_self)) hzero hwhole, Option.bind_some,
      ih (fun d hd => h d (List.mem_cons_of_mem c hd)), List.reverse_cons, List.append_assoc]
    rfl

/-- Digits after a character that asks for them go into the tail. -/
theorem run?_isDigits (first phase : NumberPhase) (hfirst : ∀ c, Text.isDigit c = true → first.next? c = some phase)
    (hphase : ∀ c, Text.isDigit c = true → phase.next? c = some phase) (hzero : phase ≠ .zero) (hwhole : phase ≠ .whole)
    {ds : List Char} (h : IsDigits ds) (negative : Bool) (whole : Nat) (tail : List Char) (toks : List Token) :
    run? ⟨.number first negative whole tail, toks⟩ ds = some ⟨.number phase negative whole (ds.reverse ++ tail), toks⟩ := by
  obtain ⟨c, ds, rfl⟩ := List.exists_cons_of_ne_nil h.1
  rw [run?_cons, step?_tail (hfirst c (h.2 c List.mem_cons_self)) hzero hwhole, Option.bind_some,
    run?_digits hphase hzero hwhole (fun d hd => h.2 d (List.mem_cons_of_mem c hd)), List.reverse_cons, List.append_assoc]
  rfl

/-- A fraction is read after the integer part. -/
theorem run?_fraction {phase : NumberPhase} (hphase : phase = .zero ∨ phase = .whole) {ds : List Char} (h : IsDigits ds)
    (negative : Bool) (whole : Nat) (toks : List Token) :
    run? ⟨.number phase negative whole [], toks⟩ ('.' :: ds)
      = some ⟨.number .fraction negative whole ('.' :: ds).reverse, toks⟩ := by
  have hpoint : phase.next? '.' = some .point := by
    rcases hphase with rfl | rfl <;> rfl
  rw [run?_cons, step?_tail hpoint nofun nofun, Option.bind_some,
    run?_isDigits .point .fraction (fun c hc => if_pos hc) (fun c hc => if_pos hc) nofun nofun h, List.reverse_cons]

/-- An exponent is read after the integer part or a fraction. -/
theorem run?_exponent {phase : NumberPhase} (hphase : phase = .zero ∨ phase = .whole ∨ phase = .fraction) {e : Char}
    {sign ds : List Char} (mark : e = 'e' ∨ e = 'E') (signs : sign = [] ∨ sign = ['+'] ∨ sign = ['-']) (digits : IsDigits ds)
    (negative : Bool) (whole : Nat) (tail : List Char) (toks : List Token) :
    run? ⟨.number phase negative whole tail, toks⟩ (e :: sign ++ ds)
      = some ⟨.number .exponent negative whole ((e :: sign ++ ds).reverse ++ tail), toks⟩ := by
  have hmark : phase.next? e = some .exponentMark := by
    rcases hphase with rfl | rfl | rfl <;> rcases mark with rfl | rfl <;> rfl
  have hsigned : ∀ c, c = '+' ∨ c = '-' → NumberPhase.next? .exponentMark c = some .exponentSign := by
    rintro c (rfl | rfl) <;> rfl
  rw [List.cons_append, run?_cons, step?_tail hmark nofun nofun, Option.bind_some]
  rcases signs with rfl | hsign
  · rw [List.nil_append, run?_isDigits .exponentMark .exponent (fun c hc => if_pos hc) (fun c hc => if_pos hc) nofun nofun digits,
      List.reverse_cons, List.append_assoc]
    rfl
  · obtain ⟨c, rfl, hc⟩ : ∃ c, sign = [c] ∧ (c = '+' ∨ c = '-') :=
      hsign.elim (fun h => ⟨_, h, .inl rfl⟩) fun h => ⟨_, h, .inr rfl⟩
    rw [List.singleton_append, run?_cons, step?_tail (hsigned c hc) nofun nofun, Option.bind_some,
      run?_isDigits .exponentSign .exponent (fun c hc => if_pos hc) (fun c hc => if_pos hc) nofun nofun digits, List.reverse_cons,
      List.reverse_cons, List.append_assoc, List.append_assoc]
    rfl

/-- What follows the integer part is read into the tail, and the number may end there. -/
theorem run?_isTail {phase : NumberPhase} (hphase : phase = .zero ∨ phase = .whole) {tail : List Char} (h : IsTail tail)
    (negative : Bool) (whole : Nat) (toks : List Token) :
    ∃ last : NumberPhase, last.complete = true ∧ run? ⟨.number phase negative whole [], toks⟩ tail
      = some ⟨.number last negative whole tail.reverse, toks⟩ := by
  cases h with
  | empty => exact ⟨phase, by rcases hphase with rfl | rfl <;> rfl, rfl⟩
  | fraction digits => exact ⟨.fraction, rfl, run?_fraction hphase digits negative whole toks⟩
  | exponent mark signs digits =>
    refine ⟨.exponent, rfl, ?_⟩
    rw [run?_exponent (hphase.imp id .inl) mark signs digits, List.append_nil]
  | both fraction mark signs digits =>
    refine ⟨.exponent, rfl, ?_⟩
    rw [run?_append, run?_fraction hphase fraction, Option.bind_some, run?_exponent (.inr (.inr rfl)) mark signs digits,
      ← List.reverse_append]

/-- The integer part is read as its value, with a sign before it or without. -/
theorem run?_ofNat (negative : Bool) (n : Nat) (toks : List Token) :
    ∃ phase : NumberPhase, (phase = .zero ∨ phase = .whole) ∧
      run? ⟨.between, toks⟩ ((if negative then ['-'] else []) ++ Text.ofNat n) = some ⟨.number phase negative n [], toks⟩ := by
  have hsign : ∀ text, run? ⟨.between, toks⟩ ('-' :: text) = run? ⟨.number .sign true 0 [], toks⟩ text := fun _ => rfl
  rcases Nat.eq_zero_or_pos n with rfl | hpos
  · exact ⟨.zero, .inl rfl, by cases negative <;> rfl⟩
  · refine ⟨.whole, .inr rfl, ?_⟩
    obtain ⟨d, ds, hds, hd⟩ := Text.ofNat_of_ne_zero (Nat.pos_iff_ne_zero.mp hpos)
    have hdigits : ∀ c ∈ d :: ds, Text.isDigit c = true := fun c hc => Text.isDigit_of_mem_ofNat (hds ▸ hc)
    have hdigit := hdigits d List.mem_cons_self
    have hrest := run?_whole (fun c hc => hdigits c (List.mem_cons_of_mem d hc)) negative toks (d.toNat - 0x30)
    have hvalue : ds.foldl (fun n c => n * 10 + (c.toNat - 0x30)) (d.toNat - 0x30) = n := by
      have h := Text.decimal_ofNat n
      rwa [hds, Text.decimal, List.foldl_cons, Nat.zero_mul, Nat.zero_add] at h
    rw [hvalue] at hrest
    rw [hds]
    cases negative with
    | true =>
      rw [if_pos rfl, List.singleton_append, hsign, run?_cons]
      simp only [step?, inNumber?, NumberPhase.next?, if_neg hd, if_pos hdigit, Nat.zero_mul, Nat.zero_add, Option.bind_some]
      exact hrest
    | false =>
      have hstart : start? toks d = some ⟨.number .whole false (d.toNat - 0x30) [], toks⟩ := by
        have hbounds := Text.isDigit_iff.mp hdigit
        have hne : ∀ c : Char, c.toNat < 0x30 ∨ 0x39 < c.toNat → d ≠ c := by
          rintro c hc rfl
          omega
        have hblank : isBlank d = false := by
          simp only [isBlank, Bool.or_eq_false_iff, decide_eq_false_iff_not]
          exact ⟨⟨⟨hne ' ' (by decide), hne '\t' (by decide)⟩, hne '\n' (by decide)⟩, hne '\r' (by decide)⟩
        simp only [start?, hblank, Bool.false_eq_true, if_false, if_neg (hne '\x22' (by decide)), if_neg (hne '[' (by decide)),
          if_neg (hne ']' (by decide)), if_neg (hne '\x7b' (by decide)), if_neg (hne '\x7d' (by decide)),
          if_neg (hne ',' (by decide)), if_neg (hne ':' (by decide)), if_neg (hne 'n' (by decide)), if_neg (hne 't' (by decide)),
          if_neg (hne 'f' (by decide)), if_neg (hne '-' (by decide)), if_neg hd, if_pos hdigit]
      rw [if_neg Bool.false_ne_true, List.nil_append, run?_cons]
      simp only [step?, hstart, Option.bind_some]
      exact hrest

end Lexer

/-- The text does not go on with a character that a number could have. -/
def EndsNumber (text : List Char) : Prop :=
  ∀ c ∈ text.head?, Text.isDigit c = false ∧ c ≠ '.' ∧ c ≠ 'e' ∧ c ≠ 'E'

namespace Lexer

/-- A word that is complete is a token. -/
theorem tokens?_word (t : Token) (toks : List Token) (text : List Char) :
    tokens? ⟨.word [] t, toks⟩ text = tokens? ⟨.between, t :: toks⟩ text := by
  cases text with
  | nil => rfl
  | cons c text => rw [tokens?, tokens?, run?_cons, run?_cons]; rfl

/-- A number that is complete is a token where it ends. -/
theorem tokens?_number {phase : NumberPhase} (hphase : phase.complete = true) {text : List Char} (h : EndsNumber text)
    (n : JsonNumber) (toks : List Token) :
    tokens? ⟨.number phase n.negative n.whole n.tail.reverse, toks⟩ text = tokens? ⟨.between, .number n :: toks⟩ text := by
  have hn : (⟨n.negative, n.whole, n.tail.reverse.reverse⟩ : JsonNumber) = n := by rw [List.reverse_reverse]
  cases text with
  | nil => simp only [tokens?, run?, Option.bind_some, finish?, hphase, if_true, hn]
  | cons c text =>
    obtain ⟨hdigit, hpoint, he, hE⟩ := h c rfl
    have hnext : phase.next? c = none := by
      cases phase <;> simp_all [NumberPhase.next?, NumberPhase.complete]
    rw [tokens?, tokens?, run?_cons, run?_cons]
    simp only [step?, inNumber?, hnext, hphase, if_true, hn]

/-- The lexer reads a token from its characters. -/
theorem tokens?_spelled {t : Token} {cs text : List Char} (h : t.Spelled cs) (hends : t.isNumber = true → EndsNumber text)
    (toks : List Token) : tokens? ⟨.between, toks⟩ (cs ++ text) = tokens? ⟨.between, t :: toks⟩ text := by
  have hrun : ∀ {l : Lexer}, run? ⟨.between, toks⟩ cs = some l → tokens? ⟨.between, toks⟩ (cs ++ text) = l.tokens? text := by
    intro l hl
    rw [tokens?, run?_append, hl, Option.bind_some, tokens?]
  cases h with
  | openArray | closeArray | openObject | closeObject | comma | colon => exact hrun rfl
  | null | true | false => exact (hrun rfl).trans (tokens?_word _ _ _)
  | @number n tail =>
    obtain ⟨phase, hphase, hwhole⟩ := run?_ofNat n.negative n.whole toks
    obtain ⟨last, hlast, htail⟩ := run?_isTail hphase tail n.negative n.whole toks
    rw [← tokens?_number hlast (hends rfl) n toks]
    refine hrun ?_
    rw [← List.append_assoc, run?_append, hwhole, Option.bind_some, htail]
  | @string s us cs spells denotes =>
    have hquoted := run?_quoted spells denotes toks []
    exact hrun hquoted

/-- A text that goes on with white space or with another token than a number ends a number. -/
theorem endsNumber_of_spaced {ts : List Token} {text : List Char} (h : Spaced ts text)
    (hhead : ∀ t ∈ ts.head?, t.isNumber = false) : EndsNumber text := by
  have hblank : ∀ {blank rest : List Char}, (∀ c ∈ blank, isBlank c = true) → EndsNumber rest → EndsNumber (blank ++ rest) := by
    intro blank rest hblank hrest
    cases blank with
    | nil => exact hrest
    | cons c blank =>
      intro d hd
      have hc := hblank c List.mem_cons_self
      rw [Option.some.inj hd] at hc
      simp only [isBlank, Bool.or_eq_true, decide_eq_true_eq] at hc
      rcases hc with ((rfl | rfl) | rfl) | rfl <;> decide
  cases h with
  | nil blanks =>
    rw [← List.append_nil text]
    exact hblank blanks nofun
  | @cons t ts blank cs text blanks spelled rest =>
    refine hblank blanks fun c hc => ?_
    have ht := hhead t rfl
    cases spelled with
    | number => exact absurd ht nofun
    | string | openArray | closeArray | openObject | closeObject | comma | colon | null | true | false =>
      rw [← Option.some.inj hc]
      decide

/-- The lexer reads the tokens of a text. -/
theorem tokens?_spaced {ts : List Token} {text : List Char} (h : Spaced ts text) (hapart : Apart ts) :
    ∀ toks : List Token, tokens? ⟨.between, toks⟩ text = some (toks.reverse ++ ts) := by
  induction h with
  | @nil blank blanks =>
    intro toks
    rw [← List.append_nil blank, tokens?, run?_blank blanks, List.append_nil]
    rfl
  | @cons t ts blank cs text blanks spelled rest ih =>
    intro toks
    have hends : t.isNumber = true → EndsNumber text := fun ht =>
      endsNumber_of_spaced rest fun next hnext => (List.isChain_cons.mp hapart).1 next hnext ht
    have htoken := tokens?_spelled spelled hends toks
    rw [tokens?, run?_blank blanks]
    rw [tokens?] at htoken
    rw [htoken, ih (List.isChain_cons.mp hapart).2, List.reverse_cons, List.append_assoc]
    rfl

end Lexer

/-! ## Values are read -/

mutual

/-- The tokens of a value. -/
def tokens : Json → List Token
  | null => [.null]
  | bool b => [.bool b]
  | number n => [.number n]
  | string s => [.string s]
  | array items => .openArray :: (itemTokens items ++ [.closeArray])
  | object members => .openObject :: (memberTokens members ++ [.closeObject])

/-- The tokens of the values of an array. -/
def itemTokens : List Json → List Token
  | [] => []
  | [v] => tokens v
  | v :: w :: rest => tokens v ++ .comma :: itemTokens (w :: rest)

/-- The tokens of the members of an object. -/
def memberTokens : List (JsonText × Json) → List Token
  | [] => []
  | [(k, v)] => .string k :: .colon :: tokens v
  | (k, v) :: m :: rest => .string k :: .colon :: (tokens v ++ .comma :: memberTokens (m :: rest))

end

/-- A text says a value. -/
def Written (v : Json) (text : List Char) : Prop :=
  Spaced v.tokens text

theorem Apart.cons {t : Token} {ts : List Token} (h : Apart ts) (ht : t.isNumber = true → ∀ next ∈ ts.head?, next.isNumber = false) :
    Apart (t :: ts) :=
  List.isChain_cons.mpr ⟨fun next hnext hnumber => ht hnumber next hnext, h⟩

mutual

/-- The numbers of a value are apart, also from what follows. -/
theorem apart_tokens (v : Json) {rest : List Token} (hrest : Apart rest) (hhead : ∀ t ∈ rest.head?, t.isNumber = false) :
    Apart (v.tokens ++ rest) := by
  cases v with
  | null | bool b | string s => exact hrest.cons nofun
  | number n => exact hrest.cons fun _ => hhead
  | array items =>
    have hclose : Apart (.closeArray :: rest) := hrest.cons nofun
    have hitems := apart_itemTokens items hclose fun t ht => Option.some.inj ht ▸ rfl
    simp only [tokens, List.cons_append, List.append_assoc, List.nil_append]
    exact hitems.cons nofun
  | object members =>
    have hclose : Apart (.closeObject :: rest) := hrest.cons nofun
    have hmembers := apart_memberTokens members hclose fun t ht => Option.some.inj ht ▸ rfl
    simp only [tokens, List.cons_append, List.append_assoc, List.nil_append]
    exact hmembers.cons nofun

/-- The numbers of an array are apart. -/
theorem apart_itemTokens (items : List Json) {rest : List Token} (hrest : Apart rest)
    (hhead : ∀ t ∈ rest.head?, t.isNumber = false) : Apart (itemTokens items ++ rest) := by
  match items with
  | [] => exact hrest
  | [v] => exact apart_tokens v hrest hhead
  | v :: w :: items =>
    have hcomma : Apart (.comma :: (itemTokens (w :: items) ++ rest)) := (apart_itemTokens (w :: items) hrest hhead).cons nofun
    simp only [itemTokens, List.cons_append, List.append_assoc]
    exact apart_tokens v hcomma fun t ht => Option.some.inj ht ▸ rfl

/-- The numbers of an object are apart. -/
theorem apart_memberTokens (members : List (JsonText × Json)) {rest : List Token} (hrest : Apart rest)
    (hhead : ∀ t ∈ rest.head?, t.isNumber = false) : Apart (memberTokens members ++ rest) := by
  match members with
  | [] => exact hrest
  | [(k, v)] =>
    have hcolon : Apart (.colon :: (v.tokens ++ rest)) := (apart_tokens v hrest hhead).cons nofun
    exact hcolon.cons nofun
  | (k, v) :: m :: members =>
    have hcomma : Apart (.comma :: (memberTokens (m :: members) ++ rest)) :=
      (apart_memberTokens (m :: members) hrest hhead).cons nofun
    have hcolon : Apart (.colon :: (v.tokens ++ .comma :: (memberTokens (m :: members) ++ rest))) :=
      (apart_tokens v hcomma fun t ht => Option.some.inj ht ▸ rfl).cons nofun
    simp only [memberTokens, List.cons_append, List.append_assoc]
    exact hcolon.cons nofun

end

namespace Reader

theorem run?_cons (r : Reader) (t : Token) (ts : List Token) : r.run? (t :: ts) = (r.step? t).bind (run? · ts) := by
  rw [run?]
  cases r.step? t <;> rfl

/-- The first value of an array may come as one of the others. -/
theorem run?_firstItems {items : List Json} (hne : items ≠ []) (stack : List Frame) (rest : List Token) :
    run? ⟨.firstItem, stack⟩ (itemTokens items ++ rest) = run? ⟨.value, stack⟩ (itemTokens items ++ rest) := by
  have hvalue : ∀ (v : Json) rest, run? ⟨.firstItem, stack⟩ (v.tokens ++ rest) = run? ⟨.value, stack⟩ (v.tokens ++ rest) := by
    intro v rest
    cases v <;> rfl
  match items, hne with
  | [v], _ => exact hvalue v rest
  | v :: w :: items, _ =>
    rw [itemTokens, List.append_assoc]
    exact hvalue v _

/-- The first key of an object may come as one of the others. -/
theorem run?_firstKey {members : List (JsonText × Json)} (hne : members ≠ []) (stack : List Frame) (rest : List Token) :
    run? ⟨.firstKey [], stack⟩ (memberTokens members ++ rest) = run? ⟨.key [], stack⟩ (memberTokens members ++ rest) := by
  match members, hne with
  | [(k, v)], _ => rfl
  | (k, v) :: m :: members, _ => rfl

mutual

/-- The reader takes the tokens of a value and has the value. -/
theorem run?_tokens (v : Json) (stack : List Frame) (rest : List Token) :
    run? ⟨.value, stack⟩ (v.tokens ++ rest) = run? (give stack v) rest := by
  match v with
  | .null | .bool b | .number n | .string s => rfl
  | .array items =>
    have hopen : step? ⟨.value, stack⟩ .openArray = some ⟨.firstItem, .array [] :: stack⟩ := rfl
    simp only [tokens, List.cons_append, List.append_assoc, List.nil_append]
    rw [run?_cons, hopen, Option.bind_some]
    by_cases hne : items = []
    · subst hne
      rfl
    · rw [run?_firstItems hne, run?_itemTokens items hne]
      rfl
  | .object members =>
    have hopen : step? ⟨.value, stack⟩ .openObject = some ⟨.firstKey [], stack⟩ := rfl
    simp only [tokens, List.cons_append, List.append_assoc, List.nil_append]
    rw [run?_cons, hopen, Option.bind_some]
    by_cases hne : members = []
    · subst hne
      rfl
    · rw [run?_firstKey hne, run?_memberTokens members hne]
      rfl

/-- The reader takes the rest of an array. -/
theorem run?_itemTokens (items : List Json) (hne : items ≠ []) (done : List Json) (stack : List Frame) (rest : List Token) :
    run? ⟨.value, .array done :: stack⟩ (itemTokens items ++ .closeArray :: rest)
      = run? (give stack (.array (done.reverse ++ items))) rest := by
  match items, hne with
  | [v], _ =>
    have hclose : step? (give (.array done :: stack) v) .closeArray = some (give stack (.array (v :: done).reverse)) := rfl
    rw [itemTokens, run?_tokens v, run?_cons, hclose, Option.bind_some, List.reverse_cons]
  | v :: w :: items, _ =>
    have hcomma : step? (give (.array done :: stack) v) .comma = some ⟨.value, .array (v :: done) :: stack⟩ := rfl
    rw [itemTokens, List.append_assoc, run?_tokens v, List.cons_append, run?_cons, hcomma, Option.bind_some,
      run?_itemTokens (w :: items) nofun (v :: done), List.reverse_cons, List.append_assoc]
    rfl

/-- The reader takes the rest of an object. -/
theorem run?_memberTokens (members : List (JsonText × Json)) (hne : members ≠ []) (done : List (JsonText × Json))
    (stack : List Frame) (rest : List Token) :
    run? ⟨.key done, stack⟩ (memberTokens members ++ .closeObject :: rest)
      = run? (give stack (.object (done.reverse ++ members))) rest := by
  have hkey : ∀ k, step? ⟨.key done, stack⟩ (.string k) = some ⟨.colon, .object done k :: stack⟩ := fun _ => rfl
  have hcolon : ∀ k, step? ⟨.colon, .object done k :: stack⟩ .colon = some ⟨.value, .object done k :: stack⟩ := fun _ => rfl
  match members, hne with
  | [(k, v)], _ =>
    have hclose : step? (give (.object done k :: stack) v) .closeObject = some (give stack (.object ((k, v) :: done).reverse)) := rfl
    rw [memberTokens, List.cons_append, List.cons_append, run?_cons, hkey, Option.bind_some, run?_cons, hcolon, Option.bind_some,
      run?_tokens v, run?_cons, hclose, Option.bind_some, List.reverse_cons]
  | (k, v) :: m :: members, _ =>
    have hcomma : step? (give (.object done k :: stack) v) .comma = some ⟨.key ((k, v) :: done), stack⟩ := rfl
    rw [memberTokens, List.cons_append, List.cons_append, run?_cons, hkey, Option.bind_some, run?_cons, hcolon, Option.bind_some,
      List.append_assoc, run?_tokens v, List.cons_append, run?_cons, hcomma, Option.bind_some,
      run?_memberTokens (m :: members) nofun ((k, v) :: done), List.reverse_cons, List.append_assoc]
    rfl

end

end Reader

/-- A text that says a value is read as the value. -/
theorem read?_of_written {v : Json} {text : String} (h : v.Written text.toList) : read? text = some v := by
  have hapart : Apart v.tokens := by
    have h := apart_tokens v .nil nofun
    rwa [List.append_nil] at h
  have hlexed := Lexer.tokens?_spaced h hapart []
  have hread := Reader.run?_tokens v [] []
  rw [List.append_nil] at hread
  have htokens : Token.ofText? text.toList = some v.tokens := by
    rw [Lexer.tokens?] at hlexed
    rw [Token.ofText?]
    cases hrun : Lexer.run? ⟨.between, []⟩ text.toList with
    | none => rw [hrun] at hlexed; nomatch hlexed
    | some l => rwa [hrun] at hlexed
  rw [read?, htokens]
  simp only [ofTokens?, hread]
  rfl

end ChannelWatch.Json
