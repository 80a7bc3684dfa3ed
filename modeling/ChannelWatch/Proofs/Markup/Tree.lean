import ChannelWatch.Proofs.Markup.Content
import Mathlib.Data.List.TakeDrop
import Mathlib.Data.List.TakeWhile

/-!
# Documents and their trees

The tokens of a tree (`Forms`): its tags, and between two of them the parts of a run of text, from which the tree keeps what is left
when white space at its beginning and end is trimmed (`Leaves`). A text is a document of the tree if it spells these tokens, whatever
white space, comments and processing instructions stand before its first element (`Document`). The tree is built from every such text
(`ofText_of_document`). An element that holds a text alone says it (`Says`), and any element whose tags and runs are in order can be
passed over (`skip_of_isReadable`). Elements are written between their tags (`Writes`).
-/

namespace ChannelWatch.Markup

/-- The token of a part of a run. -/
def Chunk.token : Chunk → Token
  | .raw text => .text text
  | .verbatim text => .cdata text

/-- The nodes that a run of text leaves: one, or none if there is nothing but white space in it. -/
def nodesOfRun (run : List Chunk) : List Node :=
  withRun run.reverse []

/-- What a run of text leaves between two tags: no node, if it is white space, and else what is left when it is trimmed. -/
inductive Leaves : List Chunk → List Node → Prop
  | blank {blank : List (List Char)} (blanks : ∀ raw ∈ blank, ∀ c ∈ raw, isBlank c = true) : Leaves (blank.map Chunk.raw) []
  | trimmed (run : List Chunk) : Leaves run (nodesOfRun run)

/-- Some nodes and the tokens that form them. -/
inductive Forms : List Node → List Token → Prop
  | run {run : List Chunk} {kept : List Node} (left : Leaves run kept) : Forms kept (run.map Chunk.token)
  | element {run : List Chunk} {kept children nodes : List Node} {name attributes : List Char} {inner ts : List Token}
      (left : Leaves run kept) (tag : IsTag name attributes) (content : Forms children inner) (rest : Forms nodes ts) :
      Forms (kept ++ .element name attributes children :: nodes)
        (run.map Chunk.token ++ .opening (name ++ attributes) :: (inner ++ .closing name :: ts))
  | empty {run : List Chunk} {kept nodes : List Node} {name attributes : List Char} {ts : List Token} (left : Leaves run kept)
      (tag : IsTag name attributes) (rest : Forms nodes ts) :
      Forms (kept ++ .element name attributes [] :: nodes) (run.map Chunk.token ++ .empty (name ++ attributes) :: ts)

/-- A text is a document of an element: with a byte order mark or without, nothing but white space before the element as far as tokens go,
and anything after it. -/
inductive Document : Node → List Char → Prop
  | intro {name attributes mark text : List Char} {children : List Node} {blank : List (List Char)} {inner after : List Token}
      (mark' : mark = [] ∨ mark = ['\uFEFF']) (blanks : ∀ raw ∈ blank, ∀ c ∈ raw, isBlank c = true) (tag : IsTag name attributes)
      (content : Forms children inner)
      (marks : Marks (blank.map Token.text ++ .opening (name ++ attributes) :: (inner ++ .closing name :: after)) text) :
      Document (.element name attributes children) (mark ++ text)

/-! ## Runs of text -/

/-- A run that is trimmed is the same wherever it stands. -/
theorem withRun_eq (run : List Chunk) (children : List Node) : withRun run children = nodesOfRun run.reverse ++ children := by
  rw [nodesOfRun, List.reverse_reverse]
  unfold withRun
  split <;> rfl

/-- A run leaves at most one node. -/
theorem reverse_nodesOfRun (run : List Chunk) : (nodesOfRun run).reverse = nodesOfRun run := by
  unfold nodesOfRun withRun
  split <;> rfl

/-- White space leaves no node. -/
theorem nodesOfRun_blank {blank : List (List Char)} (h : ∀ raw ∈ blank, ∀ c ∈ raw, isBlank c = true) :
    nodesOfRun (blank.map Chunk.raw) = [] := by
  have htrimmed : trimStart (blank.map Chunk.raw) = [] := by
    induction blank with
    | nil => rfl
    | cons raw blank ih =>
      have hempty : raw.dropWhile isBlank = [] := List.dropWhile_eq_nil_iff.mpr (h raw List.mem_cons_self)
      rw [List.map_cons, trimStart]
      simp only [hempty, List.isEmpty_nil, if_true]
      exact ih fun r hr => h r (List.mem_cons_of_mem raw hr)
  rw [nodesOfRun, withRun, List.reverse_reverse, htrimmed]

/-- White space is trimmed away. -/
theorem Leaves.eq_nodesOfRun {run : List Chunk} {kept : List Node} (h : Leaves run kept) : kept = nodesOfRun run := by
  cases h with
  | blank blanks => exact (nodesOfRun_blank blanks).symm
  | trimmed => rfl

/-! ## Trees are built -/

namespace Builder

/-- The parts of a run are kept until it ends. -/
theorem foldl_run (run : List Chunk) (stack : List OpenElement) (top : List Node) : ∀ acc : List Chunk,
    (run.map Chunk.token).foldl step ⟨stack, top, acc, false⟩ = ⟨stack, top, run.reverse ++ acc, false⟩ := by
  induction run with
  | nil => exact fun _ => rfl
  | cons chunk run ih =>
    intro acc
    have hone : step ⟨stack, top, acc, false⟩ chunk.token = ⟨stack, top, chunk :: acc, false⟩ := by
      cases chunk <;> rfl
    rw [List.map_cons, List.foldl_cons, hone, ih, List.reverse_cons, List.append_assoc, List.singleton_append]

/-- A tag is cut after its name. -/
theorem cutName_of_isTag {name attributes : List Char} (h : IsTag name attributes) :
    cutName (name ++ attributes) = (name, attributes) := by
  obtain ⟨hname, as, hattributes⟩ := h
  have hhead : ∀ c ∈ attributes.head?, isBlank c = true := by
    cases hattributes with
    | nil blanks => exact fun c hc => blanks c (List.mem_of_head? hc)
    | cons apart blanks =>
      intro c hc
      rw [List.head?_append_of_ne_nil _ apart] at hc
      exact blanks c (List.mem_of_head? hc)
  have hplain : ∀ c ∈ name, (!isBlank c) = true := fun c hc => by rw [(hname.2 c hc).1]; rfl
  rw [cutName, List.span_eq_takeWhile_dropWhile, List.takeWhile_append_of_pos hplain, List.dropWhile_append_of_pos hplain]
  cases attributes with
  | nil => rw [List.takeWhile_nil, List.dropWhile_nil, List.append_nil]
  | cons c rest =>
    have hc : ¬((!isBlank c) = true) := by rw [hhead c rfl]; exact Bool.false_ne_true
    rw [List.takeWhile_cons, if_neg hc, List.dropWhile_cons, if_neg hc, List.append_nil]

theorem step_opening {name attributes : List Char} (h : IsTag name attributes) (e : OpenElement) (stack : List OpenElement)
    (top : List Node) (run : List Chunk) : step ⟨e :: stack, top, run, false⟩ (.opening (name ++ attributes))
      = ⟨⟨name, attributes, []⟩ :: { e with children := withRun run e.children } :: stack, top, [], false⟩ := by
  simp only [step, Bool.false_eq_true, if_false, endRun, cutName_of_isTag h]

theorem step_empty {name attributes : List Char} (h : IsTag name attributes) (e : OpenElement) (stack : List OpenElement)
    (top : List Node) (run : List Chunk) : step ⟨e :: stack, top, run, false⟩ (.empty (name ++ attributes))
      = ⟨{ e with children := .element name attributes [] :: withRun run e.children } :: stack, top, [], false⟩ := by
  simp only [step, Bool.false_eq_true, if_false, endRun, add, cutName_of_isTag h]

/-- A closing tag ends the run and closes its element. -/
theorem step_closing (e outer : OpenElement) (stack : List OpenElement) (top : List Node) (run : List Chunk) :
    step ⟨e :: outer :: stack, top, run, false⟩ (.closing e.name)
      = ⟨⟨outer.name, outer.attributes, .element e.name e.attributes (withRun run e.children).reverse :: outer.children⟩ :: stack, top,
          [], false⟩ := by
  simp only [step, Bool.false_eq_true, if_false, endRun, add, if_true]

/-- The nodes are built inside an element, up to the run that the next tag ends. -/
theorem foldl_forms {nodes : List Node} {ts : List Token} (h : Forms nodes ts) (stack : List OpenElement) (top : List Node) :
    ∀ e : OpenElement, ∃ children run, ts.foldl step ⟨e :: stack, top, [], false⟩
        = ⟨{ e with children := children } :: stack, top, run, false⟩ ∧ withRun run children = nodes.reverse ++ e.children := by
  induction h generalizing stack with
  | @run run kept left =>
    intro e
    obtain rfl := left.eq_nodesOfRun
    refine ⟨e.children, run.reverse, ?_, ?_⟩
    · rw [foldl_run, List.append_nil]
    · rw [withRun_eq, List.reverse_reverse, reverse_nodesOfRun]
  | @element run kept children nodes name attributes inner ts left tag _ _ ihcontent ihrest =>
    intro e
    obtain rfl := left.eq_nodesOfRun
    obtain ⟨c, r, hinner, hc⟩ := ihcontent ({ e with children := withRun run.reverse e.children } :: stack) ⟨name, attributes, []⟩
    obtain ⟨last, final, hrest, hlast⟩ := ihrest stack
      { e with children := .element name attributes children :: withRun run.reverse e.children }
    refine ⟨last, final, ?_, ?_⟩
    · have hclose := step_closing ⟨name, attributes, c⟩ { e with children := withRun run.reverse e.children } stack top r
      rw [hc, List.append_nil, List.reverse_reverse] at hclose
      rw [List.foldl_append, foldl_run, List.append_nil, List.foldl_cons, step_opening tag, List.foldl_append, hinner,
        List.foldl_cons, hclose, hrest]
    · rw [hlast, withRun_eq, List.reverse_reverse, List.reverse_append, List.reverse_cons, reverse_nodesOfRun]
      simp only [List.append_assoc, List.singleton_append]
      rfl
  | @empty run kept nodes name attributes ts left tag _ ihrest =>
    intro e
    obtain rfl := left.eq_nodesOfRun
    obtain ⟨last, final, hrest, hlast⟩ := ihrest stack
      { e with children := .element name attributes [] :: withRun run.reverse e.children }
    refine ⟨last, final, ?_, ?_⟩
    · rw [List.foldl_append, foldl_run, List.append_nil, List.foldl_cons, step_empty tag, hrest]
    · rw [hlast, withRun_eq, List.reverse_reverse, List.reverse_append, List.reverse_cons, reverse_nodesOfRun]
      simp only [List.append_assoc, List.singleton_append]
      rfl

/-- Nothing is built any more when the tree is complete. -/
theorem foldl_done {b : Builder} (h : b.done = true) (ts : List Token) : ts.foldl step b = b := by
  have hstep : ∀ t, b.step t = b := fun t => if_pos h
  induction ts with
  | nil => rfl
  | cons t ts ih => rw [List.foldl_cons, hstep, ih]

end Builder

/-- The tree of a document is built from its text. -/
theorem ofText_of_document {root : Node} {text : List Char} (h : Document root text) : Node.ofText text = [root] := by
  obtain @⟨name, attributes, mark, text, children, blank, inner, after, mark', blanks, tag, content, marks⟩ := h
  have htokens : Token.ofText (mark ++ text)
      = blank.map Token.text ++ .opening (name ++ attributes) :: (inner ++ .closing name :: after) := by
    rcases mark' with rfl | rfl
    · refine ofText_of_marks marks fun hmark => ?_
      rcases marks.head hmark with heq | ⟨raw, others, hraw, hmem⟩
      · exact absurd heq (by decide)
      · cases blank with
        | nil => nomatch (List.cons.inj hraw).1
        | cons first blank =>
          obtain rfl : first = raw := Token.text.inj (List.cons.inj hraw).1
          exact absurd (blanks first List.mem_cons_self _ hmem) (by decide)
    · exact ofText_of_marks_after_mark marks
  have hblank : blank.map Token.text = (blank.map Chunk.raw).map Chunk.token := by
    rw [List.map_map]
    rfl
  have hopen : Builder.step ⟨[], [], (blank.map Chunk.raw).reverse, false⟩ (.opening (name ++ attributes))
      = ⟨[⟨name, attributes, []⟩], [], [], false⟩ := by
    have hnone : withRun (blank.map Chunk.raw).reverse [] = [] := nodesOfRun_blank blanks
    simp only [Builder.step, Bool.false_eq_true, if_false, Builder.endRun, hnone, Builder.cutName_of_isTag tag]
  obtain ⟨c, run, hinner, hc⟩ := Builder.foldl_forms content [] [] ⟨name, attributes, []⟩
  have hclose : Builder.step ⟨[⟨name, attributes, c⟩], [], run, false⟩ (.closing name)
      = ⟨[], [.element name attributes children], [], true⟩ := by
    simp only [Builder.step, Bool.false_eq_true, if_false, Builder.endRun, Builder.add, if_true, hc, List.append_nil,
      List.reverse_reverse]
  rw [Node.ofText, htokens, hblank, List.foldl_append, Builder.foldl_run, List.append_nil, List.foldl_cons, hopen, List.foldl_append,
    hinner, List.foldl_cons, hclose, Builder.foldl_done rfl]
  rfl

/-! ## Trees that are read -/

/-- A text neither begins nor ends with white space. -/
def IsTrimmed (text : List Char) : Prop :=
  (∀ c ∈ text.head?, isBlank c = false) ∧ ∀ c ∈ text.getLast?, isBlank c = false

instance (text : List Char) : Decidable (IsTrimmed text) :=
  decidable_of_iff (text.head?.all (!isBlank ·) ∧ text.getLast?.all (!isBlank ·)) (by
    simp only [IsTrimmed, Option.all_eq_true, Bool.not_eq_true', Option.mem_def])

/-- The children of an element that holds a text and nothing else. -/
inductive Says (value : List Char) : List Node → Prop
  | intro {run : List Chunk} (reads : RunReads run value) (trimmed : IsTrimmed value) : Says value (nodesOfRun run)

/-- Every tag in a tree is one, and every run of text is escaped. -/
inductive Node.IsReadable : Node → Prop
  | text {chunks : List Chunk} {value : List Char} (reads : RunReads chunks value) : IsReadable (.text chunks)
  | element {name attributes : List Char} {children : List Node} (tag : IsTag name attributes)
      (content : ∀ n ∈ children, n.IsReadable) : IsReadable (.element name attributes children)

/-- White space at the beginning of a text is white space at its beginning as it is written. -/
theorem Escapes.head {value raw : List Char} (h : Escapes value raw) {c : Char} (hc : raw.head? = some c) (hblank : isBlank c = true) :
    value.head? = some c := by
  have hampersand : c ≠ '&' := ne_of_isBlank hblank rfl
  cases h with
  | nil => nomatch hc
  | plain => exact hc
  | named | decimal | hexadecimal => exact absurd (Option.some.inj hc).symm hampersand

/-- White space at the end of a text is white space at its end as it is written. -/
theorem Escapes.last {value raw : List Char} (h : Escapes value raw) {c : Char} (hc : raw.getLast? = some c) (hblank : isBlank c = true) :
    value.getLast? = some c := by
  have hentity : ∀ {d : Char} {value raw : List Char} (start : List Char), (raw.getLast? = some c → value.getLast? = some c) →
      (start ++ ';' :: raw).getLast? = some c → (d :: value).getLast? = some c := by
    intro d value raw start ih hc
    rw [List.getLast?_append, List.getLast?_cons] at hc
    cases hraw : raw.getLast? with
    | none =>
      rw [hraw] at hc
      exact absurd (Option.some.inj hc).symm (ne_of_isBlank hblank rfl)
    | some e =>
      rw [hraw] at hc
      rw [List.getLast?_cons, ih (hraw.trans hc)]
      rfl
  induction h with
  | nil => nomatch hc
  | @plain d value raw _ rest ih =>
    rw [List.getLast?_cons] at hc ⊢
    cases hraw : raw.getLast? with
    | none =>
      obtain rfl := List.getLast?_eq_none_iff.mp hraw
      cases rest
      exact hc
    | some e =>
      rw [hraw] at hc
      rw [ih (hraw.trans hc)]
      rfl
  | @named _ name _ _ _ _ ih => exact hentity ('&' :: name) ih hc
  | @decimal _ digits _ _ _ _ _ ih => exact hentity ('&' :: '#' :: digits) ih hc
  | @hexadecimal _ digits _ _ _ _ _ ih => exact hentity ('&' :: '#' :: 'x' :: digits) ih hc

/-- Nothing but empty parts is trimmed before a text that does not begin with white space. -/
theorem trimStart_reads {chunks : List Chunk} {value : List Char} (h : RunReads chunks value)
    (hhead : ∀ c ∈ value.head?, isBlank c = false) : RunReads (trimStart chunks) value := by
  induction h with
  | nil => exact .nil
  | @cons chunk chunks part value first rest ih =>
    cases first with
    | verbatim => exact .cons (.verbatim _) rest
    | @raw _ text escapes =>
      cases text with
      | nil =>
        cases escapes
        exact ih hhead
      | cons c text =>
        have hc : ¬(isBlank c = true) := by
          intro hblank
          have hfirst := escapes.head rfl hblank
          have hplain := hhead c (by rw [List.head?_append, hfirst]; rfl)
          rw [hblank] at hplain
          nomatch hplain
        have hkept : trimStart (.raw (c :: text) :: chunks) = .raw (c :: text) :: chunks := by
          simp only [trimStart, List.dropWhile_cons_of_neg hc, List.isEmpty_cons, Bool.false_eq_true, if_false]
        rw [hkept]
        exact .cons (.raw escapes) rest

/-- The last part of a run has what a text ends with. -/
theorem RunReads.of_concat {chunks : List Chunk} {last : Chunk} {value : List Char} (h : RunReads (chunks ++ [last]) value) :
    ∃ before part, value = before ++ part ∧ last.Reads part := by
  induction chunks generalizing value with
  | nil =>
    obtain _ | ⟨first, rest⟩ := h
    obtain _ | _ := rest
    exact ⟨[], _, List.append_nil _, first⟩
  | cons chunk chunks ih =>
    obtain _ | ⟨first, rest⟩ := h
    obtain ⟨before, part, rfl, hlast⟩ := ih rest
    exact ⟨_ ++ before, part, (List.append_assoc _ _ _).symm, hlast⟩

/-- Nothing is trimmed behind a text that does not end with white space. -/
theorem trimEnd_reads {chunks : List Chunk} {value : List Char} (h : RunReads chunks value)
    (hlast : ∀ c ∈ value.getLast?, isBlank c = false) : trimEnd chunks.reverse = chunks.reverse := by
  rcases List.eq_nil_or_concat chunks with rfl | ⟨chunks, last, rfl⟩
  · rfl
  · rw [List.concat_eq_append] at h ⊢
    rw [List.reverse_append, List.reverse_singleton, List.singleton_append]
    obtain ⟨before, part, rfl, hpart⟩ := h.of_concat
    cases hpart with
    | verbatim => rfl
    | @raw _ text escapes =>
      have hkept : Text.dropEndWhile isBlank text = text := by
        rw [Text.dropEndWhile]
        cases hreverse : text.reverse with
        | nil => rw [List.dropWhile_nil, ← hreverse, List.reverse_reverse]
        | cons c others =>
          have hend : text.getLast? = some c := by rw [← List.head?_reverse, hreverse]; rfl
          have hc : ¬(isBlank c = true) := by
            intro hblank
            have hplain := hlast c (by rw [List.getLast?_append, escapes.last hend hblank]; rfl)
            rw [hblank] at hplain
            nomatch hplain
          rw [List.dropWhile_cons_of_neg hc, ← hreverse, List.reverse_reverse]
      rw [trimEnd, hkept]

/-- What says a text is nothing at all, or a run that reads it. -/
theorem Says.children {value : List Char} {children : List Node} (h : Says value children) :
    children = [] ∧ value = [] ∨ ∃ chunks, children = [.text chunks] ∧ RunReads chunks value := by
  obtain ⟨reads, head, last⟩ := h
  have htrimmed := trimStart_reads reads head
  rw [nodesOfRun, withRun, List.reverse_reverse]
  split
  · rename_i hnone
    rw [hnone] at htrimmed
    cases htrimmed
    exact .inl ⟨rfl, rfl⟩
  · rw [trimEnd_reads htrimmed last, List.reverse_reverse]
    exact .inr ⟨_, rfl, htrimmed⟩

/-- The text of an element is read. -/
theorem textOf_of_says {value : List Char} {children : List Node} (h : Says value children) : textOf children = .ok value := by
  rcases h.children with ⟨rfl, rfl⟩ | ⟨chunks, rfl, reads⟩
  · rfl
  · exact runValue_of_reads reads

theorem Says.isReadable {value : List Char} {children : List Node} (h : Says value children) : ∀ n ∈ children, n.IsReadable := by
  rcases h.children with ⟨rfl, -⟩ | ⟨chunks, rfl, reads⟩
  · exact List.forall_mem_nil _
  · exact List.forall_mem_singleton.mpr (.text reads)

/-- Nodes are whole if each of them is. -/
theorem Node.areWhole_of_forall {nodes : List Node} (h : ∀ n ∈ nodes, n.isWhole = true) : Node.areWhole nodes = true := by
  induction nodes with
  | nil => rfl
  | cons n nodes ih =>
    rw [Node.areWhole, h n List.mem_cons_self, Bool.true_and]
    exact ih fun m hm => h m (List.mem_cons_of_mem n hm)

/-- No element in a tree that can be read is cut short. -/
theorem Node.IsReadable.isWhole {n : Node} (h : n.IsReadable) : n.isWhole = true := by
  induction h with
  | text => rfl
  | element _ _ ih => exact Node.areWhole_of_forall ih

/-- An element that can be read is passed over. -/
theorem skip_of_isReadable {name attributes : List Char} {children : List Node} (h : (Node.element name attributes children).IsReadable) :
    skip children = .ok () := by
  have hwhole : Node.areWhole children = true := h.isWhole
  obtain _ | ⟨_, content⟩ := h
  have hend : (if Node.areWhole children then pure () else throw .malformed : Except MarkupFault Unit) = .ok () := if_pos hwhole
  cases children with
  | nil => exact hend
  | cons n rest =>
    cases content n List.mem_cons_self with
    | element => exact hend
    | text reads =>
      simp only [skip, runValue_of_reads reads]
      exact hend

/-! ## Writing documents -/

/-- A text writes some nodes inside an element. -/
def Writes (nodes : List Node) (text : List Char) : Prop :=
  ∃ inner, Forms nodes inner ∧ ∀ {ts : List Token} {rest : List Char}, Marks ts rest → (∀ c ∈ rest.head?, c = '<') →
    Marks (inner ++ ts) (text ++ rest)

theorem Writes.nil : Writes [] [] :=
  ⟨[], .run (.trimmed []), fun h _ => h⟩

theorem Writes.run {raw : List Char} (some : raw ≠ []) (plain : '<' ∉ raw) : Writes (nodesOfRun [.raw raw]) raw :=
  ⟨[.text raw], .run (.trimmed [.raw raw]), fun h ends => .text some plain ends h⟩

/-- White space before a tag leaves no node. -/
theorem exists_run_of_blank {blank : List Char} (h : ∀ c ∈ blank, isBlank c = true) : ∃ run, Leaves run [] ∧
    ∀ {ts : List Token} {text : List Char}, Marks ts text → (∀ c ∈ text.head?, c = '<') →
      Marks (run.map Chunk.token ++ ts) (blank ++ text) := by
  cases blank with
  | nil => exact ⟨[], .trimmed [], fun h _ => h⟩
  | cons c blank =>
    have hplain : '<' ∉ c :: blank := fun hmem => ne_of_isBlank (h _ hmem) (by decide : isBlank '<' = false) rfl
    exact ⟨[.raw (c :: blank)], .blank (List.forall_mem_singleton.mpr h),
      fun rest ends => .text (List.cons_ne_nil c blank) hplain ends rest⟩

/-- An element is written between its tags, after white space. -/
theorem Writes.element {blank name attributes content text : List Char} {children nodes : List Node}
    (blanks : ∀ c ∈ blank, isBlank c = true) (tag : IsTag name attributes) (hcontent : Writes children content)
    (rest : Writes nodes text) : Writes (.element name attributes children :: nodes)
      (blank ++ '<' :: (name ++ (attributes ++ '>' :: (content ++ '<' :: '/' :: (name ++ '>' :: text))))) := by
  obtain ⟨run, hrun, hblank⟩ := exists_run_of_blank blanks
  obtain ⟨inner, hinner, hmarks⟩ := hcontent
  obtain ⟨after, hafter, hrest⟩ := rest
  refine ⟨_, .element hrun tag hinner hafter, fun h ends => ?_⟩
  have hclosing := Marks.closing tag.1 (List.forall_mem_nil _) (hrest h ends)
  have hopening := Marks.opening tag (hmarks hclosing fun c hc => (Option.some.inj hc).symm)
  simp only [List.append_assoc, List.cons_append]
  exact hblank hopening fun c hc => (Option.some.inj hc).symm

/-- An empty element is written as its tag, after white space. -/
theorem Writes.empty {blank name attributes text : List Char} {nodes : List Node} (blanks : ∀ c ∈ blank, isBlank c = true)
    (tag : IsTag name attributes) (rest : Writes nodes text) :
    Writes (.element name attributes [] :: nodes) (blank ++ '<' :: (name ++ (attributes ++ '/' :: '>' :: text))) := by
  obtain ⟨run, hrun, hblank⟩ := exists_run_of_blank blanks
  obtain ⟨after, hafter, hrest⟩ := rest
  refine ⟨_, .empty hrun tag hafter, fun h ends => ?_⟩
  simp only [List.append_assoc, List.cons_append]
  exact hblank (.empty tag (hrest h ends)) fun c hc => (Option.some.inj hc).symm

/-- A document is written as its first element. -/
theorem Document.of_writes {name attributes content : List Char} {children : List Node} (tag : IsTag name attributes)
    (h : Writes children content) : Document (.element name attributes children)
      ('<' :: (name ++ (attributes ++ '>' :: (content ++ '<' :: '/' :: (name ++ ['>']))))) := by
  obtain ⟨inner, hinner, hmarks⟩ := h
  have hclosing : Marks [.closing name] ('<' :: '/' :: (name ++ ([] ++ ['>']))) := .closing tag.1 (List.forall_mem_nil _) .nil
  have hcontent := hmarks hclosing fun c hc => (Option.some.inj hc).symm
  have hnone : ∀ raw ∈ ([] : List (List Char)), ∀ c ∈ raw, isBlank c = true := List.forall_mem_nil _
  exact Document.intro (.inl rfl) hnone tag hinner (.opening tag hcontent)

end ChannelWatch.Markup
