import ChannelWatch.Proofs.Text.Cut
import ChannelWatch.Proofs.Url.Percent
import ChannelWatch.Url.Parse

/-!
# The parts of a written URL

What `Url.parse` makes of a text whose parts are known. The query of a URL is the text between the first question mark and the number
sign, whatever stands around it (`Url.query_eq`).
-/

namespace ChannelWatch.Url

/-! ## What counts -/

/-- A character that is neither a blank nor a control character. -/
def isSolid (c : Char) : Bool :=
  0x20 < c.toNat

/-- What is left out of a text is not put in elsewhere. -/
theorem clean_subset (text : List Char) : clean text ⊆ text := by
  intro c hc
  have htrimmed : c ∈ Text.trimWhile (·.toNat ≤ 0x20) text := List.mem_of_mem_filter hc
  exact (List.dropWhile_sublist _).subset ((List.rdropWhile_prefix _ _).subset htrimmed)

/-- Solid characters stay, and what stands before and after them stays there. -/
theorem clean_append {word : List Char} (hne : word ≠ []) (hword : ∀ c ∈ word, isSolid c = true) (start rest : List Char) :
    ∃ start' rest', clean (start ++ word ++ rest) = start' ++ word ++ rest' ∧ start' ⊆ start ∧ rest' ⊆ rest := by
  have hblank : ∀ c ∈ word, decide (c.toNat ≤ 0x20) = false := fun c hc =>
    decide_eq_false (Nat.not_le.mpr (of_decide_eq_true (hword c hc)))
  have hkept : (word.filter fun c => c ≠ '\t' && c ≠ '\n' && c ≠ '\r') = word := by
    refine List.filter_eq_self.mpr fun c hc => ?_
    have hsolid := hword c hc
    simp only [Bool.and_eq_true, decide_eq_true_eq]
    refine ⟨⟨?_, ?_⟩, ?_⟩ <;> rintro rfl <;> exact absurd hsolid (by decide)
  unfold clean
  rw [Text.trimWhile_append hne hblank, List.filter_append, List.filter_append, hkept]
  exact ⟨_, _, rfl, fun c hc => (List.dropWhile_sublist _).subset (List.mem_of_mem_filter hc),
    fun c hc => (List.rdropWhile_prefix _ _).subset (List.mem_of_mem_filter hc)⟩

/-! ## The scheme -/

/-- The text behind a scheme goes on as the text does that neither a scheme nor its colon reaches. -/
theorem cutScheme?_append {start rest scheme after : List Char} (hrest : ∀ c ∈ rest.head?, isSchemeChar c = false ∧ c ≠ ':')
    (h : cutScheme? (start ++ rest) = some (scheme, after)) : ∃ before, after = before ++ rest ∧ before ⊆ start := by
  have hcut : start ++ rest = (start ++ rest).takeWhile isSchemeChar ++ ':' :: after := by
    unfold cutScheme? at h
    rw [List.span_eq_takeWhile_dropWhile] at h
    split at h
    · rename_i c cs tail hspan
      obtain ⟨htake, hdrop⟩ := Prod.mk.inj hspan
      obtain ⟨-, htail⟩ := Option.ite_none_right_eq_some.mp h
      obtain ⟨-, rfl⟩ := Prod.mk.inj (Option.some.inj htail)
      rw [← hdrop, List.takeWhile_append_dropWhile]
    · nomatch h
  have hscheme : ∀ c ∈ (start ++ rest).takeWhile isSchemeChar, isSchemeChar c = true := fun c hc => List.mem_takeWhile_imp hc
  rcases List.append_eq_append_iff.mp hcut with ⟨between, htake, hafter⟩ | ⟨between, hstart, hafter⟩
  · cases between with
    | nil => exact absurd rfl (hrest ':' (by rw [hafter]; rfl)).2
    | cons c between =>
      have hnot := (hrest c (by rw [hafter]; rfl)).1
      rw [hscheme c (by rw [htake]; simp)] at hnot
      nomatch hnot
  · cases between with
    | nil => exact absurd rfl (hrest ':' (by rw [show rest = ':' :: after from hafter.symm]; rfl)).2
    | cons c between =>
      obtain ⟨-, rfl⟩ := List.cons.inj hafter
      refine ⟨between, rfl, fun x hx => ?_⟩
      rw [hstart]
      simp [hx]

/-! ## The query -/

/-- A part behind the mark that begins it is cut off where the text before it does not have the mark. -/
theorem cutAt_renderPart {mark : Char} {start : List Char} (h : mark ∉ start) (part : Option (List Char)) :
    Text.cutAt mark (start ++ renderPart mark part) = (start, part) := by
  cases part with
  | none =>
    rw [renderPart, List.append_nil]
    exact Text.cutAt_of_not_mem h
  | some text => exact Text.cutAt_append_cons h

/-- A query that is solid stays as it is. -/
theorem clean_renderPart {query : Option (List Char)} (hquery : ∀ text ∈ query, ∀ c ∈ text, isSolid c = true) (start : List Char)
    (fragment : Option (List Char)) : ∃ start' fragment', start' ⊆ start ∧
      clean (start ++ renderPart '?' query ++ renderPart '#' fragment) =
        start' ++ renderPart '?' query ++ renderPart '#' fragment' := by
  have hmarks : isSolid '?' = true ∧ isSolid '#' = true := by decide
  cases fragment with
  | none =>
    cases query with
    | none => exact ⟨clean start, none, clean_subset start, by simp [renderPart]⟩
    | some text =>
      have hword : ∀ c ∈ '?' :: text, isSolid c = true := List.forall_mem_cons.mpr ⟨hmarks.1, hquery text rfl⟩
      obtain ⟨start', rest, hclean, hstart, hrest⟩ := clean_append (List.cons_ne_nil _ _) hword start []
      exact ⟨start', none, hstart, by rw [List.subset_nil.mp hrest] at hclean; exact hclean⟩
  | some f =>
    cases query with
    | none =>
      have hword : ∀ c ∈ ['#'], isSolid c = true := List.forall_mem_singleton.mpr hmarks.2
      obtain ⟨start', rest, hclean, hstart, -⟩ := clean_append (List.cons_ne_nil _ _) hword start f
      exact ⟨start', some rest, hstart, by simpa [renderPart] using hclean⟩
    | some text =>
      have hword : ∀ c ∈ '?' :: text ++ ['#'], isSolid c = true := by
        rw [List.forall_mem_append, List.forall_mem_cons, List.forall_mem_singleton]
        exact ⟨⟨hmarks.1, hquery text rfl⟩, hmarks.2⟩
      obtain ⟨start', rest, hclean, hstart, -⟩ := clean_append (List.cons_ne_nil _ _) hword start f
      exact ⟨start', some rest, hstart, by simpa [renderPart] using hclean⟩

/-- A URL's query is cut out of the text behind its scheme, and encoded. -/
theorem query_of_parse {link : String} {url : Url} (h : parse link = .ok url) :
    ∃ scheme rest encodes, cutScheme? (clean link.toList) = some (scheme, rest) ∧
      (encodes = Percent.inQuery ∨ encodes = Percent.inSpecialQuery) ∧
      url.query = (Text.cutAt '?' (Text.cutAt '#' rest).1).2.map (Percent.encode encodes) := by
  unfold parse at h
  split at h
  · nomatch h
  · rename_i scheme rest hscheme
    simp only at h
    cases hbody : body scheme ((Text.cutAt '?' (Text.cutAt '#' rest).1).2.isSome || (Text.cutAt '#' rest).2.isSome)
        (Text.cutAt '?' (Text.cutAt '#' rest).1).1 with
    | error fault =>
      rw [hbody] at h
      nomatch h
    | ok parts =>
      rw [hbody] at h
      obtain rfl := Except.ok.inj h
      refine ⟨scheme, rest, _, hscheme, ?_, rfl⟩
      split
      · exact Or.inl rfl
      · exact Or.inr rfl

/-- The query of a URL is the text between the first question mark and the number sign, if that is solid. -/
theorem query_eq {link : String} {url : Url} (h : parse link = .ok url) {start : List Char} {query fragment : Option (List Char)}
    (hlink : link.toList = start ++ renderPart '?' query ++ renderPart '#' fragment) (hmark : '?' ∉ start) (hnumber : '#' ∉ start)
    (hquery : ∀ text ∈ query, ∀ c ∈ text, c.toNat < 0x80 ∧ isSolid c = true ∧ Percent.inSpecialQuery c = false) :
    url.query = query := by
  obtain ⟨scheme, rest, encodes, hscheme, hencodes, hurl⟩ := query_of_parse h
  obtain ⟨start', fragment', hstart, hclean⟩ := clean_renderPart (fun text htext c hc => (hquery text htext c hc).2.1) start fragment
  have hreaches : ∀ c ∈ (renderPart '?' query ++ renderPart '#' fragment').head?, isSchemeChar c = false ∧ c ≠ ':' := by
    have hmarks : (isSchemeChar '?' = false ∧ '?' ≠ ':') ∧ isSchemeChar '#' = false ∧ '#' ≠ ':' := by decide
    intro c hc
    cases query with
    | some text => exact Option.some.inj hc ▸ hmarks.1
    | none =>
      cases fragment' with
      | some text => exact Option.some.inj hc ▸ hmarks.2
      | none => nomatch hc
  rw [hlink, hclean, List.append_assoc] at hscheme
  obtain ⟨before, rfl, hbefore⟩ := cutScheme?_append hreaches hscheme
  have hfree : ∀ c, c ∉ start → c ∉ before := fun c hc hmem => hc (hstart (hbefore hmem))
  have hinside : '#' ∉ before ++ renderPart '?' query := by
    rw [List.mem_append, not_or]
    refine ⟨hfree _ hnumber, fun hmem => ?_⟩
    cases query with
    | none => nomatch hmem
    | some text =>
      rcases List.mem_cons.mp hmem with heq | hmem
      · nomatch heq
      · exact absurd (hquery text rfl _ hmem).2.2 (by decide)
  rw [hurl, ← List.append_assoc, cutAt_renderPart hinside, cutAt_renderPart (hfree _ hmark)]
  cases query with
  | none => rfl
  | some text =>
    refine congrArg some (Percent.encode_eq_self fun c hc => ?_)
    obtain ⟨hascii, -, hplain⟩ := hquery text rfl c hc
    refine ⟨hascii, ?_⟩
    -- the queries of the web encode one character more than the others
    rcases hencodes with rfl | rfl
    · exact (Bool.or_eq_false_iff.mp hplain).1
    · exact hplain

end ChannelWatch.Url
