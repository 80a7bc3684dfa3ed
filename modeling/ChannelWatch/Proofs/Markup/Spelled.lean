import ChannelWatch.Markup.Content
import ChannelWatch.Proofs.Text.Search
import Mathlib.Data.List.Induction

/-!
# Spelling tokens

How tags, runs of text, CDATA sections, comments and processing instructions are written (`Marks`). The lexer recovers the tokens from
every text that spells them (`ofText_of_marks`): it is one walk for each kind of token, through the characters that cannot end it.
-/

namespace ChannelWatch.Markup

/-! ## Tags -/

/-- A name has none of the characters that divide a tag, begin another kind of token or stand in no name. -/
def IsName (name : List Char) : Prop :=
  name ≠ [] ∧ ∀ c ∈ name, isBlank c = false ∧ c ∉ "<>/=!?\x22\x27@".toList

instance (name : List Char) : Decidable (IsName name) :=
  decidable_of_iff (name ≠ [] ∧ name.all (fun c => !isBlank c && c ∉ "<>/=!?\x22\x27@".toList)) (by
    simp only [IsName, List.all_eq_true, Bool.and_eq_true, Bool.not_eq_true', decide_eq_true_eq])

/-- Some attributes as they are written behind the name of an element: each after white space, in quotation marks of either kind, and
none of them twice. -/
inductive WritesAttributes : List Attribute → List Char → Prop
  | nil {blank : List Char} (blanks : ∀ c ∈ blank, isBlank c = true) : WritesAttributes [] blank
  | cons {a : Attribute} {as : List Attribute} {blank before after text : List Char} {q : Char} (apart : blank ≠ [])
      (blanks : ∀ c ∈ blank, isBlank c = true) (name : IsName a.name) (fresh : ∀ b ∈ as, b.name ≠ a.name)
      (blanksBefore : ∀ c ∈ before, isBlank c = true) (blanksAfter : ∀ c ∈ after, isBlank c = true) (quote : q = '\x22' ∨ q = '\x27')
      (value : q ∉ a.value) (rest : WritesAttributes as text) :
      WritesAttributes (a :: as) (blank ++ (a.name ++ (before ++ '=' :: (after ++ q :: (a.value ++ q :: text)))))

/-- What a tag says: a name and, as they are written, attributes. -/
def IsTag (name attributes : List Char) : Prop :=
  IsName name ∧ ∃ as, WritesAttributes as attributes

/-- Some tokens as they are written. A run of text goes as far as the next bracket. -/
inductive Marks : List Token → List Char → Prop
  | nil : Marks [] []
  | text {raw text : List Char} {ts : List Token} (some : raw ≠ []) (plain : '<' ∉ raw) (ends : ∀ c ∈ text.head?, c = '<')
      (rest : Marks ts text) : Marks (.text raw :: ts) (raw ++ text)
  | cdata {content text : List Char} {ts : List Token} (plain : ¬"]]>".toList <:+: content) (rest : Marks ts text) :
      Marks (.cdata content :: ts) ("<![CDATA[".toList ++ (content ++ ("]]>".toList ++ text)))
  | comment {content text : List Char} {ts : List Token} (plain : ¬"--".toList <:+: content) (rest : Marks ts text) :
      Marks ts ("<!--".toList ++ (content ++ ("-->".toList ++ text)))
  | instruction {content text : List Char} {ts : List Token} (some : content.head? ≠ some '>') (plain : ¬"?>".toList <:+: content)
      (rest : Marks ts text) : Marks ts ("<?".toList ++ (content ++ ("?>".toList ++ text)))
  | opening {name attributes text : List Char} {ts : List Token} (tag : IsTag name attributes) (rest : Marks ts text) :
      Marks (.opening (name ++ attributes) :: ts) ('<' :: (name ++ (attributes ++ '>' :: text)))
  | empty {name attributes text : List Char} {ts : List Token} (tag : IsTag name attributes) (rest : Marks ts text) :
      Marks (.empty (name ++ attributes) :: ts) ('<' :: (name ++ (attributes ++ '/' :: '>' :: text)))
  | closing {name blank text : List Char} {ts : List Token} (name' : IsName name) (blanks : ∀ c ∈ blank, isBlank c = true)
      (rest : Marks ts text) : Marks (.closing name :: ts) ('<' :: '/' :: (name ++ (blank ++ '>' :: text)))

theorem IsName.ne {name : List Char} (h : IsName name) {c : Char} (hc : c ∈ name) {d : Char} (hd : d ∈ "<>/=!?\x22\x27@".toList) :
    c ≠ d :=
  fun heq => (h.2 c hc).2 (heq ▸ hd)

theorem ne_of_isBlank {c d : Char} (hc : isBlank c = true) (hd : isBlank d = false) : c ≠ d := by
  rintro rfl
  rw [hc] at hd
  nomatch hd

namespace Lexer

/-- A lexer walks through some characters if each of them leaves it in the mode for what has been read. -/
theorem foldl_walk (mode : List Char → Mode) (toks : List Token) {content : List Char}
    (hstep : ∀ a c b, content = a ++ c :: b → step ⟨mode a, toks⟩ c = ⟨mode (a ++ [c]), toks⟩) :
    content.foldl step ⟨mode [], toks⟩ = ⟨mode content, toks⟩ := by
  induction content using List.reverseRecOn with
  | nil => rfl
  | append_singleton content c ih =>
    have hbefore := ih fun a d b heq => hstep a d (b ++ [c]) (by rw [heq, List.append_assoc, List.cons_append])
    rw [List.foldl_append, hbefore]
    exact hstep content c [] rfl

/-- Characters that are neither brackets nor quotation marks go into the tag. -/
theorem foldl_tag_plain {cs : List Char} (h : ∀ c ∈ cs, c ≠ '>' ∧ c ≠ '\x22' ∧ c ≠ '\x27') (closing : Bool) (acc : List Char)
    (toks : List Token) : cs.foldl step ⟨.tag closing acc none, toks⟩ = ⟨.tag closing (cs.reverse ++ acc) none, toks⟩ := by
  refine foldl_walk (fun a => .tag closing (a.reverse ++ acc) none) toks ?_
  rintro a c b rfl
  obtain ⟨hbracket, hdouble, hsingle⟩ := h c (by simp)
  have hquote : ¬(c = '\x22' ∨ c = '\x27') := not_or.mpr ⟨hdouble, hsingle⟩
  simp only [step, inTag, if_neg hbracket, if_neg hquote, enter, List.reverse_append, List.reverse_singleton, List.nil_append,
    List.cons_append]

/-- A quoted value goes into the tag, with any brackets in it. -/
theorem foldl_tag_quoted {q : Char} (hq : q = '\x22' ∨ q = '\x27') {value : List Char} (h : q ∉ value) (closing : Bool)
    (acc : List Char) (toks : List Token) : (q :: (value ++ [q])).foldl step ⟨.tag closing acc none, toks⟩
      = ⟨.tag closing ((q :: (value ++ [q])).reverse ++ acc) none, toks⟩ := by
  have hopen : step ⟨.tag closing acc none, toks⟩ q = ⟨.tag closing (q :: acc) (some q), toks⟩ := by
    have hbracket : q ≠ '>' := by rcases hq with rfl | rfl <;> decide
    simp only [step, inTag, if_neg hbracket, if_pos hq, enter]
  have hinside : value.foldl step ⟨.tag closing (q :: acc) (some q), toks⟩
      = ⟨.tag closing (value.reverse ++ q :: acc) (some q), toks⟩ := by
    refine foldl_walk (fun a => .tag closing (a.reverse ++ q :: acc) (some q)) toks ?_
    rintro a c b rfl
    have hc : c ≠ q := fun heq => h (by simp [heq])
    simp only [step, inTag, if_neg hc, enter, List.reverse_append, List.reverse_singleton, List.nil_append, List.cons_append]
  rw [List.foldl_cons, hopen, List.foldl_append, hinside]
  simp [step, inTag, enter]

/-- Attributes go into the tag. -/
theorem foldl_attributes {as : List Attribute} {text : List Char} (h : WritesAttributes as text) (closing : Bool)
    (toks : List Token) : ∀ acc : List Char,
      text.foldl step ⟨.tag closing acc none, toks⟩ = ⟨.tag closing (text.reverse ++ acc) none, toks⟩ := by
  have hblank : ∀ {blank : List Char}, (∀ c ∈ blank, isBlank c = true) → ∀ c ∈ blank, c ≠ '>' ∧ c ≠ '\x22' ∧ c ≠ '\x27' :=
    fun hblank c hc => ⟨ne_of_isBlank (hblank c hc) rfl, ne_of_isBlank (hblank c hc) rfl, ne_of_isBlank (hblank c hc) rfl⟩
  induction h with
  | nil blanks => exact fun acc => foldl_tag_plain (hblank blanks) closing acc toks
  | @cons a as blank before after text q apart blanks name fresh blanksBefore blanksAfter quote value rest ih =>
    intro acc
    have hname : ∀ c ∈ a.name, c ≠ '>' ∧ c ≠ '\x22' ∧ c ≠ '\x27' := fun c hc =>
      ⟨name.ne hc (by decide), name.ne hc (by decide), name.ne hc (by decide)⟩
    have hequals : ∀ c ∈ ['='], c ≠ '>' ∧ c ≠ '\x22' ∧ c ≠ '\x27' := List.forall_mem_singleton.mpr (by decide)
    have hsplit : blank ++ (a.name ++ (before ++ '=' :: (after ++ q :: (a.value ++ q :: text))))
        = (blank ++ a.name ++ before ++ ['='] ++ after) ++ ((q :: (a.value ++ [q])) ++ text) := by simp
    have hstart : ∀ c ∈ blank ++ a.name ++ before ++ ['='] ++ after, c ≠ '>' ∧ c ≠ '\x22' ∧ c ≠ '\x27' := by
      simp only [List.forall_mem_append]
      exact ⟨⟨⟨⟨hblank blanks, hname⟩, hblank blanksBefore⟩, hequals⟩, hblank blanksAfter⟩
    rw [hsplit, List.foldl_append, foldl_tag_plain hstart, List.foldl_append, foldl_tag_quoted quote value, ih]
    simp only [List.reverse_append, List.append_assoc]

/-- What a tag says goes into the tag. -/
theorem foldl_isTag {name attributes : List Char} (h : IsTag name attributes) (toks : List Token) :
    (name ++ attributes).foldl step ⟨.bracket, toks⟩ = ⟨.tag false (name ++ attributes).reverse none, toks⟩ := by
  obtain ⟨hname, as, hattributes⟩ := h
  obtain ⟨c, others, rfl⟩ := List.exists_cons_of_ne_nil hname.1
  have hplain : ∀ d ∈ c :: others, d ≠ '>' ∧ d ≠ '\x22' ∧ d ≠ '\x27' := fun d hd =>
    ⟨hname.ne hd (by decide), hname.ne hd (by decide), hname.ne hd (by decide)⟩
  have hbegin : step ⟨.bracket, toks⟩ c = step ⟨.tag false [] none, toks⟩ c := by
    have hne : ∀ {d}, d ∈ "<>/=!?\x22\x27@".toList → c ≠ d := fun hd => hname.ne List.mem_cons_self hd
    simp only [step, if_neg (hne (by decide : '!' ∈ _)), if_neg (hne (by decide : '?' ∈ _)), if_neg (hne (by decide : '/' ∈ _))]
  have hall := foldl_tag_plain hplain false [] toks
  rw [List.foldl_cons, ← hbegin, ← List.foldl_cons] at hall
  rw [List.foldl_append, hall, foldl_attributes hattributes, List.append_nil, List.reverse_append]

/-- Attributes do not end with a slash. -/
theorem getLast?_attributes {as : List Attribute} {text : List Char} (h : WritesAttributes as text) :
    ∀ c ∈ text.getLast?, c ≠ '/' := by
  induction h with
  | nil blanks => exact fun c hc => ne_of_isBlank (blanks c (List.mem_of_getLast? hc)) rfl
  | @cons a as blank before after text q apart blanks name fresh blanksBefore blanksAfter quote value rest ih =>
    intro c hc
    have hends : blank ++ (a.name ++ (before ++ '=' :: (after ++ q :: (a.value ++ q :: text))))
        = (blank ++ a.name ++ before ++ ['='] ++ after ++ [q] ++ a.value) ++ ([q] ++ text) := by simp
    rw [hends, List.getLast?_append] at hc
    cases htext : text.getLast? with
    | none =>
      rw [List.getLast?_append, htext] at hc
      obtain rfl : q = c := Option.some.inj hc
      rcases quote with rfl | rfl <;> decide
    | some d =>
      rw [List.getLast?_append, htext] at hc
      obtain rfl : d = c := Option.some.inj hc
      exact ih d htext

/-- An opening tag is read. -/
theorem foldl_opening {name attributes : List Char} (h : IsTag name attributes) (toks : List Token) :
    (name ++ attributes ++ ['>']).foldl step ⟨.bracket, toks⟩ = ⟨.text [], .opening (name ++ attributes) :: toks⟩ := by
  have hslash : ∀ acc, (name ++ attributes).reverse ≠ '/' :: acc := by
    intro acc heq
    have hlast : (name ++ attributes).getLast? = some '/' := by rw [← List.head?_reverse, heq]; rfl
    obtain ⟨hname, as, hattributes⟩ := h
    rw [List.getLast?_append] at hlast
    cases hend : attributes.getLast? with
    | none =>
      rw [hend] at hlast
      exact hname.ne (List.mem_of_getLast? hlast) (by decide) rfl
    | some c =>
      rw [hend] at hlast
      exact getLast?_attributes hattributes c hend (Option.some.inj hlast)
  have hopening : Token.ofTag false (name ++ attributes).reverse = .opening (name ++ attributes) := by
    rw [Token.ofTag, if_neg Bool.false_ne_true, List.reverse_reverse]
    exact hslash
  rw [List.foldl_append, foldl_isTag h, List.foldl_cons, List.foldl_nil]
  simp only [step, inTag, if_true, enter, hopening]

/-- The tag of an empty element is read. -/
theorem foldl_empty {name attributes : List Char} (h : IsTag name attributes) (toks : List Token) :
    (name ++ attributes ++ ['/', '>']).foldl step ⟨.bracket, toks⟩ = ⟨.text [], .empty (name ++ attributes) :: toks⟩ := by
  have hslash : step ⟨.tag false (name ++ attributes).reverse none, toks⟩ '/'
      = ⟨.tag false ('/' :: (name ++ attributes).reverse) none, toks⟩ := rfl
  have hempty : Token.ofTag false ('/' :: (name ++ attributes).reverse) = .empty (name ++ attributes) := by
    rw [Token.ofTag, if_neg Bool.false_ne_true, List.reverse_reverse]
  rw [List.foldl_append, foldl_isTag h, List.foldl_cons, hslash, List.foldl_cons, List.foldl_nil]
  simp only [step, inTag, if_true, enter, hempty]

/-- A closing tag is read. -/
theorem foldl_closing {name blank : List Char} (hname : IsName name) (hblank : ∀ c ∈ blank, isBlank c = true) (toks : List Token) :
    ('/' :: (name ++ (blank ++ ['>']))).foldl step ⟨.bracket, toks⟩ = ⟨.text [], .closing name :: toks⟩ := by
  have hplain : ∀ c ∈ name ++ blank, c ≠ '>' ∧ c ≠ '\x22' ∧ c ≠ '\x27' := by
    rw [List.forall_mem_append]
    exact ⟨fun c hc => ⟨hname.ne hc (by decide), hname.ne hc (by decide), hname.ne hc (by decide)⟩,
      fun c hc => ⟨ne_of_isBlank (hblank c hc) rfl, ne_of_isBlank (hblank c hc) rfl, ne_of_isBlank (hblank c hc) rfl⟩⟩
  have hbegin : step ⟨.bracket, toks⟩ '/' = ⟨.tag true [] none, toks⟩ := rfl
  have htrimmed : (blank.reverse ++ name.reverse).dropWhile isBlank = name.reverse := by
    rw [List.dropWhile_append_of_pos fun c hc => hblank c (List.mem_reverse.mp hc)]
    obtain ⟨c, others, hc⟩ := List.exists_cons_of_ne_nil (List.reverse_ne_nil_iff.mpr hname.1)
    have hfirst : isBlank c = false := (hname.2 c (List.mem_reverse.mp (hc ▸ List.mem_cons_self))).1
    rw [hc, List.dropWhile_cons_of_neg (by rw [hfirst]; exact Bool.false_ne_true)]
  rw [List.foldl_cons, hbegin, ← List.append_assoc, List.foldl_append, foldl_tag_plain hplain, List.append_nil,
    List.reverse_append, List.foldl_cons, List.foldl_nil]
  simp only [step, inTag, if_true, enter, Token.ofTag, htrimmed, List.reverse_reverse]

/-! ## Markup that leaves no tag -/

/-- What a text read so far ends with, if it is long enough: its characters stand last first. -/
theorem suffix_of_startsWith {pattern a begun : List Char} (hlength : pattern.length ≤ a.length)
    (h : Text.startsWith pattern (a.reverse ++ begun) = true) : pattern.reverse <:+ a := by
  have hprefix := List.prefix_of_prefix_length_le (Text.startsWith_iff.mp h) (List.prefix_append a.reverse begun)
    (by rwa [List.length_reverse])
  rw [← List.reverse_reverse a]
  exact List.reverse_suffix.mpr hprefix

/-- A comment leaves no token: it goes on up to its end, for no bracket in it has two hyphens of its own before it. -/
theorem foldl_comment {content : List Char} (h : ¬"--".toList <:+: content) (toks : List Token) :
    ("!--".toList ++ (content ++ "-->".toList)).foldl step ⟨.bracket, toks⟩ = ⟨.text [], toks⟩ := by
  have hbegin : "!--".toList.foldl step ⟨.bracket, toks⟩ = ⟨.comment ['-', '-'], toks⟩ := rfl
  have hinside : content.foldl step ⟨.comment ['-', '-'], toks⟩ = ⟨.comment (content.reverse ++ ['-', '-']), toks⟩ := by
    refine foldl_walk (fun a => .comment (a.reverse ++ ['-', '-'])) toks ?_
    rintro a c b rfl
    have hopen : ¬(c = '>' ∧ 4 ≤ (a.reverse ++ ['-', '-']).length ∧ Text.startsWith "--".toList (a.reverse ++ ['-', '-']) = true) := by
      rintro ⟨-, hlength, hstart⟩
      have hlong : "--".toList.length ≤ a.length := by
        rw [List.length_append, List.length_reverse] at hlength
        exact Nat.le_of_add_le_add_right (show 2 + 2 ≤ a.length + 2 from hlength)
      have hsuffix := suffix_of_startsWith hlong hstart
      exact h (hsuffix.isInfix.trans (List.prefix_append a _).isInfix)
    simp only [step, inComment, if_neg hopen, enter, List.reverse_append, List.reverse_singleton, List.nil_append, List.cons_append]
  have hclose : '>' = '>' ∧ 4 ≤ ('-' :: '-' :: (content.reverse ++ ['-', '-'])).length ∧
      Text.startsWith "--".toList ('-' :: '-' :: (content.reverse ++ ['-', '-'])) = true := by
    refine ⟨rfl, ?_, rfl⟩
    simp only [List.length_cons, List.length_append, List.length_nil]
    omega
  have hown : Text.startsWith "--".toList ('-' :: '-' :: (content.reverse ++ ['-', '-'])).reverse = true := by
    refine Text.startsWith_iff.mpr ⟨content ++ ['-', '-'], ?_⟩
    simp
  rw [List.foldl_append, hbegin, List.foldl_append, hinside]
  have hend : "-->".toList.foldl step ⟨.comment (content.reverse ++ ['-', '-']), toks⟩
      = inComment ('-' :: '-' :: (content.reverse ++ ['-', '-'])) toks '>' := rfl
  rw [hend, inComment, if_pos hclose, if_pos hown]
  rfl

/-- A CDATA section is read up to its first end. -/
theorem foldl_cdata {content : List Char} (h : ¬"]]>".toList <:+: content) (toks : List Token) :
    ("![CDATA[".toList ++ (content ++ "]]>".toList)).foldl step ⟨.bracket, toks⟩ = ⟨.text [], .cdata content :: toks⟩ := by
  have hbegin : "![CDATA[".toList.foldl step ⟨.bracket, toks⟩ = ⟨.cdata "[CDATA[".toList.reverse, toks⟩ := rfl
  have hinside : content.foldl step ⟨.cdata "[CDATA[".toList.reverse, toks⟩
      = ⟨.cdata (content.reverse ++ "[CDATA[".toList.reverse), toks⟩ := by
    refine foldl_walk (fun a => .cdata (a.reverse ++ "[CDATA[".toList.reverse)) toks ?_
    rintro a c b rfl
    have hopen : ¬(c = '>' ∧ Text.startsWith "]]".toList (a.reverse ++ "[CDATA[".toList.reverse) = true) := by
      rintro ⟨rfl, hstart⟩
      rcases Nat.lt_or_ge a.length 2 with hshort | hlong
      · match a, hshort with
        | [], _ => exact absurd hstart (by decide)
        | [d], _ =>
          rw [Text.startsWith_iff] at hstart
          obtain ⟨rest, hrest⟩ := hstart
          exact absurd (List.cons.inj (List.cons.inj hrest).2).1 (by decide)
      · have hends : "]]".toList.length ≤ a.length := hlong
        obtain ⟨before, rfl⟩ := suffix_of_startsWith hends hstart
        exact h ⟨before, b, by simp⟩
    simp only [step, inCData, if_neg hopen, enter, List.reverse_append, List.reverse_singleton, List.nil_append, List.cons_append]
  have hclose : '>' = '>' ∧ Text.startsWith "]]".toList (']' :: ']' :: (content.reverse ++ "[CDATA[".toList.reverse)) = true :=
    ⟨rfl, rfl⟩
  have hwhole : (']' :: ']' :: (content.reverse ++ "[CDATA[".toList.reverse)).reverse = "[CDATA[".toList ++ (content ++ [']', ']']) := by
    simp
  have hcontent : ((']' :: ']' :: (content.reverse ++ "[CDATA[".toList.reverse)).drop 2).reverse.drop 7 = content := by
    rw [List.drop_succ_cons, List.drop_succ_cons, List.drop_zero, List.reverse_append, List.reverse_reverse, List.reverse_reverse]
    rfl
  rw [List.foldl_append, hbegin, List.foldl_append, hinside]
  have hend : "]]>".toList.foldl step ⟨.cdata (content.reverse ++ "[CDATA[".toList.reverse), toks⟩
      = inCData (']' :: ']' :: (content.reverse ++ "[CDATA[".toList.reverse)) toks '>' := rfl
  have htake : ("[CDATA[".toList ++ (content ++ [']', ']'])).take 7 = "[CDATA[".toList := rfl
  rw [hend, inCData, if_pos hclose, hwhole, hcontent, if_pos htake]
  rfl

/-- A processing instruction leaves no token: it goes on up to its first end. -/
theorem foldl_instruction {content : List Char} (hsome : content.head? ≠ some '>') (h : ¬"?>".toList <:+: content)
    (toks : List Token) : ('?' :: (content ++ "?>".toList)).foldl step ⟨.bracket, toks⟩ = ⟨.text [], toks⟩ := by
  have hbegin : step ⟨.bracket, toks⟩ '?' = ⟨.instruction [], toks⟩ := rfl
  have hinside : content.foldl step ⟨.instruction [], toks⟩ = ⟨.instruction content.reverse, toks⟩ := by
    refine foldl_walk (fun a => .instruction a.reverse) toks ?_
    rintro a c b rfl
    by_cases hc : c = '>'
    · subst hc
      rcases List.eq_nil_or_concat a with rfl | ⟨before, d, rfl⟩
      · exact absurd rfl hsome
      · have hd : d ≠ '?' := by
          rintro rfl
          exact h ⟨before, b, by simp⟩
        simp only [step, inInstruction, if_true, List.concat_eq_append, List.reverse_append, List.reverse_singleton,
          List.singleton_append]
        split
        · rename_i heq
          nomatch heq
        · rename_i heq
          exact absurd (List.cons.inj heq).1 hd
        · rfl
    · simp only [step, inInstruction, if_neg hc, enter, List.reverse_append, List.reverse_singleton, List.singleton_append]
  rw [List.foldl_cons, hbegin, List.foldl_append, hinside]
  rfl

/-! ## Texts -/

/-- The lexer reads the tokens that a text spells, after what it has read. -/
theorem finish_marks {ts : List Token} {text : List Char} (h : Marks ts text) :
    ∀ (acc : List Char) (toks : List Token), acc = [] ∨ (∀ c ∈ text.head?, c = '<') →
      (text.foldl step ⟨.text acc, toks⟩).finish = (withText acc toks).reverse ++ ts := by
  have hbracket : ∀ acc toks, step ⟨.text acc, toks⟩ '<' = ⟨.bracket, withText acc toks⟩ := fun _ _ => rfl
  induction h with
  | nil =>
    intro acc toks _
    rw [List.append_nil]
    rfl
  | @text raw text ts some plain ends rest ih =>
    intro acc toks hacc
    have hempty : acc = [] := by
      refine hacc.resolve_right fun hhead => ?_
      obtain ⟨c, others, rfl⟩ := List.exists_cons_of_ne_nil some
      exact plain (hhead c rfl ▸ List.mem_cons_self)
    subst hempty
    have hwalk : raw.foldl step ⟨.text [], toks⟩ = ⟨.text raw.reverse, toks⟩ := by
      refine foldl_walk (fun a => .text a.reverse) toks ?_
      rintro a c b rfl
      have hc : c ≠ '<' := fun heq => plain (by simp [heq])
      simp only [step, if_neg hc, enter, List.reverse_append, List.reverse_singleton, List.singleton_append]
    have htext : withText raw.reverse toks = .text raw :: toks := by
      rw [withText, if_neg (by simpa using some), List.reverse_reverse]
    rw [List.foldl_append, hwalk, ih raw.reverse toks (.inr ends), htext, List.reverse_cons, List.append_assoc]
    rfl
  | @cdata content text ts plain rest ih =>
    intro acc toks _
    have hsplit : "<![CDATA[".toList ++ (content ++ ("]]>".toList ++ text))
        = '<' :: (("![CDATA[".toList ++ (content ++ "]]>".toList)) ++ text) := by simp
    rw [hsplit, List.foldl_cons, hbracket, List.foldl_append, foldl_cdata plain, ih [] _ (.inl rfl)]
    simp [withText]
  | @comment content text ts plain rest ih =>
    intro acc toks _
    have hsplit : "<!--".toList ++ (content ++ ("-->".toList ++ text)) = '<' :: (("!--".toList ++ (content ++ "-->".toList)) ++ text) := by
      simp
    rw [hsplit, List.foldl_cons, hbracket, List.foldl_append, foldl_comment plain, ih [] _ (.inl rfl)]
    rfl
  | @instruction content text ts some plain rest ih =>
    intro acc toks _
    have hsplit : "<?".toList ++ (content ++ ("?>".toList ++ text)) = '<' :: (('?' :: (content ++ "?>".toList)) ++ text) := by simp
    rw [hsplit, List.foldl_cons, hbracket, List.foldl_append, foldl_instruction some plain, ih [] _ (.inl rfl)]
    rfl
  | @opening name attributes text ts tag rest ih =>
    intro acc toks _
    have hsplit : '<' :: (name ++ (attributes ++ '>' :: text)) = '<' :: ((name ++ attributes ++ ['>']) ++ text) := by simp
    rw [hsplit, List.foldl_cons, hbracket, List.foldl_append, foldl_opening tag, ih [] _ (.inl rfl)]
    simp [withText]
  | @empty name attributes text ts tag rest ih =>
    intro acc toks _
    have hsplit : '<' :: (name ++ (attributes ++ '/' :: '>' :: text)) = '<' :: ((name ++ attributes ++ ['/', '>']) ++ text) := by simp
    rw [hsplit, List.foldl_cons, hbracket, List.foldl_append, foldl_empty tag, ih [] _ (.inl rfl)]
    simp [withText]
  | @closing name blank text ts name' blanks rest ih =>
    intro acc toks _
    have hsplit : '<' :: '/' :: (name ++ (blank ++ '>' :: text)) = '<' :: (('/' :: (name ++ (blank ++ ['>']))) ++ text) := by simp
    rw [hsplit, List.foldl_cons, hbracket, List.foldl_append, foldl_closing name' blanks, ih [] _ (.inl rfl)]
    simp [withText]

end Lexer

/-- The first character of a text is a bracket, or begins its first run. -/
theorem Marks.head {ts : List Token} {text : List Char} (h : Marks ts text) {c : Char} (hc : text.head? = some c) :
    c = '<' ∨ ∃ raw others, ts = .text raw :: others ∧ c ∈ raw := by
  cases h with
  | nil => nomatch hc
  | @text raw text ts some _ _ _ =>
    obtain ⟨d, others, rfl⟩ := List.exists_cons_of_ne_nil some
    exact .inr ⟨d :: others, ts, rfl, Option.some.inj hc ▸ List.mem_cons_self⟩
  | cdata | comment | instruction | opening | empty | closing => exact .inl (Option.some.inj hc).symm

/-- The lexer reads the tokens that a text spells. -/
theorem ofText_of_marks {ts : List Token} {text : List Char} (h : Marks ts text) (hmark : text.head? ≠ some '\uFEFF') :
    Token.ofText text = ts := by
  have hread := Lexer.finish_marks h [] [] (.inl rfl)
  unfold Token.ofText
  split
  · exact absurd rfl hmark
  · exact hread

/-- A byte order mark before a text does not count. -/
theorem ofText_of_marks_after_mark {ts : List Token} {text : List Char} (h : Marks ts text) : Token.ofText ('\uFEFF' :: text) = ts :=
  Lexer.finish_marks h [] [] (.inl rfl)

end ChannelWatch.Markup
