import ChannelWatch.Proofs.Text.Digits
import ChannelWatch.Proofs.Url.Parse

/-!
# URLs of the web

A URL that begins with a scheme of the web, a host and a port (`Origin`) and goes on with plain segments is read as it is written
(`Url.parse_origin`): nothing is resolved or encoded in its path.
-/

namespace ChannelWatch

/-! ## Origins -/

/-- Where a URL of the web begins: `http` or `https`, a host, and the digits of a port if there is one. -/
structure Origin where
  secure : Bool
  host : List Char
  port : Option (List Char)

namespace Origin

/-- The scheme. -/
def scheme (o : Origin) : List Char :=
  if o.secure then "https".toList else "http".toList

/-- The host and, behind a colon, the port. -/
def server (o : Origin) : List Char :=
  o.host ++ Url.renderPart ':' o.port

/-- The origin as it is written. -/
def text (o : Origin) : List Char :=
  o.scheme ++ ':' :: '/' :: '/' :: o.server

/-- The port that a URL has to name: none if no digits are written, or those of the scheme's own port. -/
def port? (o : Origin) : Option Nat :=
  o.port.bind fun digits =>
    if digits = [] ∨ (if o.secure then 443 else 80) = Text.decimal digits then none else some (Text.decimal digits)

/-- The URL at an origin with a path, and nothing else. -/
def url (o : Origin) (host : UrlHost) (parts : List (List Char)) : Url :=
  ⟨o.scheme, some ⟨[], [], host, o.port?⟩, .rooted parts, none, none⟩

/-- The host is a name or an address: it has no blanks and none of the characters that end it, and colons only in brackets. -/
inductive HostText : List Char → Prop
  | name {text : List Char} (plain : ∀ c ∈ text, Url.isSolid c = true ∧ c ∉ "/\\?#@:[]".toList) : HostText text
  | bracketed {inner : List Char} (plain : ∀ c ∈ inner, Url.isSolid c = true ∧ c ∉ "/\\?#@[]".toList) :
      HostText ('[' :: inner ++ [']'])

/-- An origin as it may be written, and the host that it names. -/
structure IsAt (o : Origin) (host : UrlHost) : Prop where
  /-- The text of the host is one. -/
  written : HostText o.host
  /-- It names the host. -/
  names : UrlHost.ofText o.host = .ok host
  /-- The port is a number in range. -/
  port : ∀ digits ∈ o.port, (∀ c ∈ digits, Text.isDigit c = true) ∧ Text.decimal digits ≤ 65535

end Origin

namespace Url

/-! ## Hosts and ports -/

/-- The text of a host without colons outside brackets is passed on the way to the port. -/
theorem cutPort_append {inside : Bool} {text : List Char} (h : ∀ c ∈ text, c ≠ '[' ∧ c ≠ ']' ∧ (c = ':' → inside = true))
    (rest : List Char) : cutPort inside (text ++ rest) = (text ++ (cutPort inside rest).1, (cutPort inside rest).2) := by
  induction text with
  | nil => rfl
  | cons c text ih =>
    obtain ⟨⟨hopen, hclose, hcolon⟩, htext⟩ := List.forall_mem_cons.mp h
    have hnot : ¬(c = ':' ∧ ¬inside = true) := fun hc => hc.2 (hcolon hc.1)
    rw [List.cons_append, cutPort, if_neg hnot, if_neg hopen, if_neg hclose, ih htext]
    rfl

theorem cutPort_renderPart (port : Option (List Char)) : cutPort false (renderPart ':' port) = ([], port) := by
  cases port <;> rfl

/-- The host of an origin is told from its port. -/
theorem cutPort_server {o : Origin} {host : UrlHost} (ho : o.IsAt host) : cutPort false o.server = (o.host, o.port) := by
  obtain ⟨secure, text, port⟩ := o
  have hport := cutPort_renderPart port
  cases ho.written with
  | name plain =>
    have hplain : ∀ c ∈ text, c ≠ '[' ∧ c ≠ ']' ∧ (c = ':' → false = true) := by
      intro c hc
      have hnot : ∀ x ∈ "/\\?#@:[]".toList, c ≠ x := fun x hx hcx => (plain c hc).2 (hcx ▸ hx)
      exact ⟨hnot '[' (by decide), hnot ']' (by decide), fun hcolon => absurd hcolon (hnot ':' (by decide))⟩
    rw [Origin.server, cutPort_append hplain, hport, List.append_nil]
  | @bracketed inner plain =>
    have hplain : ∀ c ∈ inner, c ≠ '[' ∧ c ≠ ']' ∧ (c = ':' → true = true) := by
      intro c hc
      have hnot : ∀ x ∈ "/\\?#@[]".toList, c ≠ x := fun x hx hcx => (plain c hc).2 (hcx ▸ hx)
      exact ⟨hnot '[' (by decide), hnot ']' (by decide), fun _ => rfl⟩
    have hclosed : cutPort true (']' :: renderPart ':' port) = ([']'], port) := by
      simp [cutPort, hport]
    have hinner := cutPort_append hplain (']' :: renderPart ':' port)
    rw [hclosed] at hinner
    simp [Origin.server, cutPort, hinner]

/-- The port of an origin is read. -/
theorem port_eq {o : Origin} {host : UrlHost} (ho : o.IsAt host) {digits : List Char} (h : o.port = some digits) :
    port o.scheme digits = .ok (o.port?, []) := by
  obtain ⟨hdigits, hrange⟩ := ho.port digits h
  have htake : digits.takeWhile Text.isDigit = digits := List.takeWhile_eq_self_iff.mpr hdigits
  have hdefault : defaultPort? o.scheme = some (if o.secure then 443 else 80) := by
    unfold Origin.scheme
    cases o.secure <;> rfl
  have hbad : ¬(65535 < Text.decimal digits ∨ ([] : List Char).head? ≠ none ∧ ([] : List Char).head? ≠ some '\\') := by
    simpa using hrange
  simp only [port, htake, List.drop_length, if_neg hbad, hdefault, Origin.port?, h, Option.bind_some, List.isEmpty_iff,
    Option.some.injEq]

/-! ## Plain segments -/

/-- A segment of letters, digits and points, not all of them points. -/
def IsPlainSegment (s : List Char) : Prop :=
  (∀ c ∈ s, Text.isLetter c = true ∨ Text.isDigit c = true ∨ c = '.') ∧ ∃ c ∈ s, c ≠ '.'

/-- A character of a plain segment is solid and neither ends the segment nor is encoded in a path. -/
theorem plain_of_mem_segment {s : List Char} (h : IsPlainSegment s) {c : Char} (hc : c ∈ s) :
    c.toNat < 0x80 ∧ isSolid c = true ∧ Percent.inPath c = false ∧ isSlash .web c = false ∧ c.toLower ≠ '%' ∧
      (c.toLower = '.' → c = '.') := by
  have hall : ∀ n < 0x80, Text.isLetter (Char.ofNat n) = true ∨ Text.isDigit (Char.ofNat n) = true ∨ Char.ofNat n = '.' →
      isSolid (Char.ofNat n) = true ∧ Percent.inPath (Char.ofNat n) = false ∧ isSlash .web (Char.ofNat n) = false ∧
        (Char.ofNat n).toLower ≠ '%' ∧ ((Char.ofNat n).toLower = '.' → Char.ofNat n = '.') := by
    decide
  have hascii : c.toNat < 0x80 := by
    rcases h.1 c hc with hletter | hdigit | rfl
    · have := Text.isLetter_iff.mp hletter
      omega
    · have := Text.isDigit_iff.mp hdigit
      omega
    · decide
  have hplain := hall c.toNat hascii
  rw [Char.ofNat_toNat] at hplain
  exact ⟨hascii, hplain (h.1 c hc)⟩

/-- A plain segment is no dot segment. -/
theorem not_isDot_of_isPlainSegment {s : List Char} (h : IsPlainSegment s) : isDot s = false ∧ isDoubleDot s = false := by
  obtain ⟨c, hc, hpoint⟩ := h.2
  have hpercent : '%' ∉ s.map Char.toLower := by
    intro hmem
    obtain ⟨d, hd, heq⟩ := List.mem_map.mp hmem
    exact (plain_of_mem_segment h hd).2.2.2.2.1 heq
  have hother : c.toLower ∈ s.map Char.toLower ∧ c.toLower ≠ '.' :=
    ⟨List.mem_map_of_mem hc, fun heq => hpoint ((plain_of_mem_segment h hc).2.2.2.2.2 heq)⟩
  -- a dot segment has nothing but points, or an escaped one
  have hnot : ∀ dots : List (List Char), (∀ t ∈ dots, '%' ∈ t ∨ ∀ x ∈ t, x = '.') → s.map Char.toLower ∉ dots := by
    intro dots hdots hmem
    rcases hdots _ hmem with hescaped | hpoints
    · exact hpercent hescaped
    · exact hother.2 (hpoints _ hother.1)
  exact ⟨decide_eq_false (hnot _ (by simp)), decide_eq_false (hnot _ (by simp))⟩

/-- Plain segments stay as they are, one after another. -/
theorem resolve_plain {parts : List (List Char)} (h : ∀ s ∈ parts, IsPlainSegment s) (done : List (List Char)) :
    resolve .web done parts = parts.reverse ++ done := by
  induction parts generalizing done with
  | nil => rfl
  | cons s parts ih =>
    obtain ⟨hs, hparts⟩ := List.forall_mem_cons.mp h
    obtain ⟨hdot, hdouble⟩ := not_isDot_of_isPlainSegment hs
    have hsame : encodeSegment .web done.isEmpty s = s := by
      rw [encodeSegment, if_neg (by simp)]
      exact Percent.encode_eq_self fun c hc => ⟨(plain_of_mem_segment hs hc).1, (plain_of_mem_segment hs hc).2.2.1⟩
    rw [resolve, hdot, hdouble, if_neg Bool.false_ne_true, if_neg Bool.false_ne_true, hsame, ih hparts]
    simp

/-- A slash before each segment is a slash, and then slashes between them. -/
theorem flatMap_slash_eq {parts : List (List Char)} (hne : parts ≠ []) :
    parts.flatMap ('/' :: ·) = '/' :: ['/'].intercalate parts := by
  induction parts with
  | nil => exact absurd rfl hne
  | cons s parts ih =>
    cases parts with
    | nil => simp
    | cons next parts =>
      rw [List.flatMap_cons, ih (List.cons_ne_nil _ _), List.intercalate_cons_cons]
      simp

theorem pathAfterHost_plain {parts : List (List Char)} (hne : parts ≠ []) (h : ∀ s ∈ parts, IsPlainSegment s) :
    pathAfterHost .web (parts.flatMap ('/' :: ·)) = .rooted parts := by
  have hsplit : Text.splitOn (isSlash .web) (['/'].intercalate parts) = parts :=
    Text.splitOn_intercalate hne rfl fun s hs c hc => (plain_of_mem_segment (h s hs) hc).2.2.2.1
  have hresolved : segments .web (['/'].intercalate parts) = parts := by
    rw [segments, if_neg (by decide), resolved, hsplit, resolve_plain h, List.append_nil, List.reverse_reverse]
  rw [flatMap_slash_eq hne, pathAfterHost, if_pos (by decide), hresolved]

/-! ## The whole -/

/-- The characters of a host are solid, and none of them ends it. -/
theorem plain_of_mem_host {text : List Char} (h : Origin.HostText text) :
    ∀ c ∈ text, isSolid c = true ∧ c ∉ "/\\?#@".toList := by
  have hends : "/\\?#@".toList ⊆ "/\\?#@[]".toList ∧ "/\\?#@".toList ⊆ "/\\?#@:[]".toList := by decide
  cases h with
  | name plain => exact fun c hc => ⟨(plain c hc).1, fun hmem => (plain c hc).2 (hends.2 hmem)⟩
  | bracketed plain =>
    rw [List.forall_mem_append, List.forall_mem_cons, List.forall_mem_singleton]
    exact ⟨⟨by decide, fun c hc => ⟨(plain c hc).1, fun hmem => (plain c hc).2 (hends.1 hmem)⟩⟩, by decide⟩

/-- The characters of a host and its port are solid, and none of them ends the two. -/
theorem plain_of_mem_server {o : Origin} {host : UrlHost} (ho : o.IsAt host) :
    ∀ c ∈ o.server, isSolid c = true ∧ c ∉ "/\\?#@".toList := by
  refine List.forall_mem_append.mpr ⟨plain_of_mem_host ho.written, ?_⟩
  cases hport : o.port with
  | none => exact List.forall_mem_nil _
  | some digits =>
    refine List.forall_mem_cons.mpr ⟨by decide, fun c hc => ?_⟩
    have hdigit := (ho.port digits hport).1 c hc
    have hnone : "/\\?#@".toList.all (!Text.isDigit ·) = true := by decide
    refine ⟨decide_eq_true (by have := Text.isDigit_iff.mp hdigit; omega), fun hmem => ?_⟩
    have hnot := List.all_eq_true.mp hnone c hmem
    rw [hdigit] at hnot
    nomatch hnot

/-- A host that is named is not empty, and neither is its text. -/
theorem ne_empty_of_ofText {text : List Char} {host : UrlHost} (h : UrlHost.ofText text = .ok host) :
    text ≠ [] ∧ host ≠ .empty := by
  constructor
  · rintro rfl
    have hnone : (UrlHost.ofText []).toOption = none := by decide +kernel
    rw [h] at hnone
    nomatch hnone
  · rintro rfl
    unfold UrlHost.ofText at h
    split at h
    · split at h <;> nomatch h
    · split at h
      · nomatch h
      · nomatch h
      · split at h
        · split at h <;> nomatch h
        · nomatch h

theorem server_ne_nil {o : Origin} {host : UrlHost} (ho : o.IsAt host) : o.server ≠ [] :=
  List.append_ne_nil_of_left_ne_nil (ne_empty_of_ofText ho.names).1 _

/-- No path begins in a host and its port. -/
theorem isSlash_of_mem_server {o : Origin} {host : UrlHost} (ho : o.IsAt host) {c : Char} (hc : c ∈ o.server) :
    isSlash .web c = false := by
  have hends := (plain_of_mem_server ho c hc).2
  have hslash : c ≠ '/' ∧ c ≠ '\\' :=
    ⟨fun heq => hends (by rw [heq]; decide), fun heq => hends (by rw [heq]; decide)⟩
  simp [isSlash, hslash]

/-- What follows the slashes of an origin with a path is read as its authority and the path. -/
theorem withAuthority_origin {o : Origin} {host : UrlHost} (ho : o.IsAt host) {parts : List (List Char)} (hne : parts ≠ [])
    (h : ∀ s ∈ parts, IsPlainSegment s) : withAuthority o.scheme .web false (o.server ++ parts.flatMap ('/' :: ·)) =
      .ok (⟨[], [], host, o.port?⟩, .rooted parts) := by
  have hplain := plain_of_mem_server ho
  obtain ⟨htext, hhost⟩ := ne_empty_of_ofText ho.names
  have hspan : (o.server ++ parts.flatMap ('/' :: ·)).span (!isSlash .web ·) = (o.server, parts.flatMap ('/' :: ·)) := by
    rw [flatMap_slash_eq hne]
    refine Text.span_append_cons (fun c hc => ?_) rfl
    rw [isSlash_of_mem_server ho hc]
    rfl
  have hat : Text.cutAtLast '@' o.server = (none, o.server) :=
    Text.cutAtLast_of_not_mem fun hmem => (hplain _ hmem).2 (by decide)
  have hnobody : credentials [] = ([], []) := by decide
  have hpath := pathAfterHost_plain hne h
  simp only [withAuthority, hspan, hat, cutPort_server ho, Option.getD_none, hnobody, ho.names]
  cases hport : o.port with
  | none =>
    have hnone : o.port? = none := by rw [Origin.port?, hport, Option.bind_none]
    simp [htext, hhost, hpath, hnone, pure, Except.pure, bind, Except.bind]
  | some digits =>
    have hdigits := port_eq ho hport
    simp [htext, hhost, hpath, hdigits, pure, Except.pure, bind, Except.bind]

/-- The characters of an origin with a path are solid, and neither a query nor a fragment begins among them. -/
theorem plain_of_mem_origin {o : Origin} {host : UrlHost} (ho : o.IsAt host) {parts : List (List Char)}
    (h : ∀ s ∈ parts, IsPlainSegment s) : ∀ c ∈ o.text ++ parts.flatMap ('/' :: ·), isSolid c = true ∧ c ≠ '#' ∧ c ≠ '?' := by
  have hscheme : ∀ c ∈ o.scheme, isSolid c = true ∧ c ≠ '#' ∧ c ≠ '?' := by
    unfold Origin.scheme
    cases o.secure <;> simp [isSolid]
  have hserver : ∀ c ∈ o.server, isSolid c = true ∧ c ≠ '#' ∧ c ≠ '?' := by
    intro c hc
    obtain ⟨hsolid, hends⟩ := plain_of_mem_server ho c hc
    exact ⟨hsolid, fun heq => hends (by rw [heq]; decide), fun heq => hends (by rw [heq]; decide)⟩
  have hslash : isSolid '/' = true ∧ '/' ≠ '#' ∧ '/' ≠ '?' := by decide
  rw [List.forall_mem_append, Origin.text, List.forall_mem_append, List.forall_mem_cons, List.forall_mem_cons,
    List.forall_mem_cons]
  refine ⟨⟨hscheme, by decide, hslash, hslash, hserver⟩, fun c hc => ?_⟩
  obtain ⟨s, hs, hc⟩ := List.mem_flatMap.mp hc
  rcases List.mem_cons.mp hc with rfl | hc
  · exact hslash
  · obtain ⟨-, hsolid, hkept, -⟩ := plain_of_mem_segment (h s hs) hc
    refine ⟨hsolid, ?_, ?_⟩ <;> rintro rfl <;> exact absurd hkept (by decide)

/-- An origin with a path of plain segments is read as it is written. -/
theorem parse_origin {o : Origin} {host : UrlHost} (ho : o.IsAt host) {parts : List (List Char)} (hne : parts ≠ [])
    (h : ∀ s ∈ parts, IsPlainSegment s) : parse (String.ofList (o.text ++ parts.flatMap ('/' :: ·))) = .ok (o.url host parts) := by
  have hplain := plain_of_mem_origin ho h
  have hweb : (∀ c ∈ o.scheme, isSchemeChar c = true) ∧ SchemeKind.of o.scheme = .web ∧
      ∃ first others, o.scheme = first :: others ∧ Text.isLetter first = true ∧ o.scheme.map Char.toLower = o.scheme := by
    unfold Origin.scheme
    cases o.secure
    · exact ⟨List.all_eq_true.mp (by decide), by decide, _, _, rfl, by decide, by decide⟩
    · exact ⟨List.all_eq_true.mp (by decide), by decide, _, _, rfl, by decide, by decide⟩
  obtain ⟨hscheme, hkind, first, others, hfirst, hletter, hlower⟩ := hweb
  generalize hrest : '/' :: '/' :: (o.server ++ parts.flatMap ('/' :: ·)) = rest
  have htext : o.text ++ parts.flatMap ('/' :: ·) = o.scheme ++ ':' :: rest := by
    rw [← hrest]
    simp [Origin.text]
  have hclean : clean (o.scheme ++ ':' :: rest) = o.scheme ++ ':' :: rest := by
    have hsome : o.scheme ++ ':' :: rest ≠ [] := List.append_ne_nil_of_right_ne_nil _ (List.cons_ne_nil _ _)
    obtain ⟨before, after, heq, hbefore, hafter⟩ := clean_append hsome (fun c hc => (hplain c (htext ▸ hc)).1) [] []
    rw [List.subset_nil.mp hbefore, List.subset_nil.mp hafter] at heq
    simpa using heq
  have hcut : cutScheme? (o.scheme ++ ':' :: rest) = some (o.scheme, rest) := by
    have hspan : (o.scheme ++ ':' :: rest).span isSchemeChar = (o.scheme, ':' :: rest) :=
      Text.span_append_cons hscheme (by decide)
    rw [hfirst] at hspan hlower ⊢
    simp only [cutScheme?, hspan, if_pos hletter, hlower]
  have hnumber : Text.cutAt '#' rest = (rest, none) := Text.cutAt_of_not_mem fun hmem =>
    (hplain '#' (htext ▸ List.mem_append_right _ (List.mem_cons_of_mem _ hmem))).2.1 rfl
  have hmark : Text.cutAt '?' rest = (rest, none) := Text.cutAt_of_not_mem fun hmem =>
    (hplain '?' (htext ▸ List.mem_append_right _ (List.mem_cons_of_mem _ hmem))).2.2 rfl
  have hbody : body o.scheme false rest = .ok (some ⟨[], [], host, o.port?⟩, .rooted parts) := by
    have hdrop : rest.dropWhile (isSlash .web) = o.server ++ parts.flatMap ('/' :: ·) := by
      obtain ⟨c, cs, hserver⟩ := List.exists_cons_of_ne_nil (server_ne_nil ho)
      have hc : ¬isSlash .web c = true := by
        have hkept := isSlash_of_mem_server ho (hserver ▸ List.mem_cons_self : c ∈ o.server)
        rw [hkept]
        exact Bool.false_ne_true
      rw [← hrest, hserver, List.dropWhile_cons_of_pos rfl, List.dropWhile_cons_of_pos rfl, List.cons_append,
        List.dropWhile_cons_of_neg hc]
    simp only [body, hkind, hdrop, withAuthority_origin ho hne h]
    rfl
  rw [htext, parse, String.toList_ofList, hclean, hcut]
  simp only [hnumber, hmark, Option.isSome_none, Bool.or_self, hbody]
  rfl

end Url

end ChannelWatch
