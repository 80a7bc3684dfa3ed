import ChannelWatch.Json.Printer
import ChannelWatch.Proofs.Json.Written

/-!
# Written values say themselves

What `Json.render` writes says the value it writes, so that it is read back as it was (`read?_render`). The numbers of the value must be
numbers that can be written: what follows their integer part is a fraction, an exponent or both.
-/

namespace ChannelWatch.Json

/-- The numbers in a value can be written. -/
inductive IsSound : Json → Prop
  | null : IsSound .null
  | bool (b : Bool) : IsSound (.bool b)
  | number {n : JsonNumber} (tail : IsTail n.tail) : IsSound (.number n)
  | string (s : JsonText) : IsSound (.string s)
  | array {items : List Json} (sound : ∀ v ∈ items, IsSound v) : IsSound (.array items)
  | object {members : List (JsonText × Json)} (sound : ∀ m ∈ members, IsSound m.2) : IsSound (.object members)

/-- A record is sound if its values are. -/
theorem IsSound.record {members : List (String × Json)} (h : ∀ m ∈ members, IsSound m.2) : IsSound (record members) := by
  refine .object fun written hwritten => ?_
  obtain ⟨m, hm, rfl⟩ := List.mem_map.mp hwritten
  exact h m hm

/-- An escaped character spells its code units. -/
theorem Spells.escapeChar (c : Char) {us : List Nat} {cs : List Char} (h : Spells us cs) :
    Spells (units c ++ us) (escapeChar c ++ cs) := by
  have hshort : ∀ m ∈ shortEscapes, Spells (units m.2 ++ us) ('\\' :: m.1 :: cs) := by
    intro m hm
    have hunits : ∀ m ∈ shortEscapes, units m.2 = [m.2.toNat] := by decide
    rw [hunits m hm]
    exact .short hm h
  unfold Json.escapeChar
  split_ifs with hquote hbackslash hn hr ht hb hf hcontrol
  · exact hquote ▸ hshort ('\x22', '\x22') (by decide)
  · exact hbackslash ▸ hshort ('\\', '\\') (by decide)
  · exact hn ▸ hshort ('n', '\n') (by decide)
  · exact hr ▸ hshort ('r', '\r') (by decide)
  · exact ht ▸ hshort ('t', '\t') (by decide)
  · exact hb ▸ hshort ('b', '\x08') (by decide)
  · exact hf ▸ hshort ('f', '\x0c') (by decide)
  · have hunits : units c = [((0 * 16 + 0) * 16 + c.toNat / 16) * 16 + c.toNat % 16] := by
      rw [units, if_pos (by omega)]
      exact congrArg (· :: []) (by omega)
    rw [hunits]
    exact .unit ⟨by decide, .inl (by decide)⟩ ⟨by decide, .inl (by decide)⟩ ⟨by omega, .inl rfl⟩ ⟨by omega, .inl rfl⟩ h
  · exact .plain hquote hbackslash (Nat.not_lt.mp hcontrol) h

/-- A text spells its code units when each of its characters is escaped. -/
theorem spells_flatMap_escapeChar (s : List Char) : Spells (s.flatMap units) (s.flatMap escapeChar) := by
  induction s with
  | nil => exact .nil
  | cons c s ih => exact ih.escapeChar c

/-- A surrogate without its partner denotes no text. -/
theorem denotes_none_surrogate : Denotes none [0xD800] := by
  intro s hs
  cases s with
  | nil => exact absurd hs (List.cons_ne_nil _ _)
  | cons c s =>
    have hc := toNat_char c
    rw [List.flatMap_cons, units] at hs
    split_ifs at hs with hlt
    · have heq := (List.cons.inj hs).1
      omega
    · exact absurd (List.cons.inj hs).2.symm (List.cons_ne_nil _ _)

/-- A string literal is written as a token. -/
theorem spelled_renderText (s : JsonText) : Token.Spelled (.string s) (renderText s).toList := by
  cases s with
  | some s =>
    rw [renderText, String.toList_ofList]
    exact .string (spells_flatMap_escapeChar s.toList) rfl
  | none =>
    have hspells : Spells [(((13 * 16 + 8) * 16 + 0) * 16 + 0)] "\\ud800".toList :=
      .unit ⟨by decide, .inl (by decide)⟩ ⟨by decide, .inl (by decide)⟩ ⟨by decide, .inl (by decide)⟩
        ⟨by decide, .inl (by decide)⟩ .nil
    exact .string hspells denotes_none_surrogate

/-- A number is written as a token. -/
theorem spelled_renderNumber {n : JsonNumber} (h : IsTail n.tail) : Token.Spelled (.number n) (renderNumber n).toList := by
  have hlist : (renderNumber n).toList = (if n.negative then ['-'] else []) ++ (Text.ofNat n.whole ++ n.tail) := by
    rw [renderNumber, String.toList_append, String.toList_append, String.toList_ofList, List.append_assoc]
    cases n.negative <;> rfl
  exact hlist ▸ .number h

theorem Spaced.token {t : Token} {ts : List Token} {cs text : List Char} (rest : Spaced ts text) (h : t.Spelled cs) :
    Spaced (t :: ts) (cs ++ text) :=
  Spaced.cons (List.forall_mem_nil _) h rest

/-- A value is written as its tokens, whatever follows. -/
def IsSpaced (v : Json) : Prop :=
  ∀ {ts : List Token} {text : List Char}, Spaced ts text → Spaced (v.tokens ++ ts) (v.render.toList ++ text)

/-- Items are written as their tokens if each of them is. -/
theorem spaced_renderItems {items : List Json} (h : ∀ v ∈ items, v.IsSpaced) {ts : List Token} {text : List Char} (hrest : Spaced ts text) :
    Spaced (itemTokens items ++ ts) ((renderItems items).toList ++ text) := by
  have hcomma : Token.Spelled .comma ",".toList := .comma
  induction items with
  | nil => exact hrest
  | cons v items ih =>
    have hv : v.IsSpaced := h v List.mem_cons_self
    cases items with
    | nil => exact hv hrest
    | cons w items =>
      have hothers := ih fun u hu => h u (List.mem_cons_of_mem v hu)
      have hall := hv (hothers.token hcomma)
      simpa only [itemTokens, renderItems, String.toList_append, List.append_assoc, List.cons_append, List.nil_append] using hall

/-- Members are written as their tokens if the value of each of them is. -/
theorem spaced_renderMembers {members : List (JsonText × Json)} (h : ∀ m ∈ members, m.2.IsSpaced) {ts : List Token} {text : List Char}
    (hrest : Spaced ts text) : Spaced (memberTokens members ++ ts) ((renderMembers members).toList ++ text) := by
  have hcomma : Token.Spelled .comma ",".toList := .comma
  have hcolon : Token.Spelled .colon ":".toList := .colon
  induction members with
  | nil => exact hrest
  | cons m members ih =>
    obtain ⟨k, v⟩ := m
    have hv : v.IsSpaced := h (k, v) List.mem_cons_self
    cases members with
    | nil =>
      have hall := ((hv hrest).token hcolon).token (spelled_renderText k)
      simpa only [memberTokens, renderMembers, String.toList_append, List.append_assoc, List.cons_append, List.nil_append] using hall
    | cons w members =>
      have hothers := ih fun m hm => h m (List.mem_cons_of_mem _ hm)
      have hall := ((hv (hothers.token hcomma)).token hcolon).token (spelled_renderText k)
      simpa only [memberTokens, renderMembers, String.toList_append, List.append_assoc, List.cons_append, List.nil_append] using hall

/-- Every sound value is written as its tokens. -/
theorem isSpaced_of_isSound {v : Json} (h : v.IsSound) : v.IsSpaced := by
  intro ts text hrest
  induction h generalizing ts text with
  | null => exact hrest.token .null
  | bool b =>
    cases b with
    | true => exact hrest.token .true
    | false => exact hrest.token .false
  | number tail => exact hrest.token (spelled_renderNumber tail)
  | string s => exact hrest.token (spelled_renderText s)
  | @array items _ ih =>
    have hopen : Token.Spelled .openArray "[".toList := .openArray
    have hclose : Token.Spelled .closeArray "]".toList := .closeArray
    have hall := (spaced_renderItems (fun v hv _ _ => ih v hv) (hrest.token hclose)).token hopen
    simpa only [tokens, render, String.toList_append, List.append_assoc, List.cons_append, List.nil_append] using hall
  | @object members _ ih =>
    have hopen : Token.Spelled .openObject "\x7b".toList := .openObject
    have hclose : Token.Spelled .closeObject "\x7d".toList := .closeObject
    have hall := (spaced_renderMembers (fun m hm _ _ => ih m hm) (hrest.token hclose)).token hopen
    simpa only [tokens, render, String.toList_append, List.append_assoc, List.cons_append, List.nil_append] using hall

theorem written_render {v : Json} (h : v.IsSound) : v.Written v.render.toList := by
  have hall := isSpaced_of_isSound h (.nil (List.forall_mem_nil _))
  rwa [List.append_nil, List.append_nil] at hall

/-- A value that is written is read back. -/
theorem read?_render {v : Json} (h : v.IsSound) : read? v.render = some v :=
  read?_of_written (written_render h)

end ChannelWatch.Json
