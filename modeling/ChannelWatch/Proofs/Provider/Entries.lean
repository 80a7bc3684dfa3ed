import ChannelWatch.Proofs.Markup.Tree
import ChannelWatch.Proofs.Time.Strict
import ChannelWatch.Provider.YouTube

/-!
# What the elements of an uploads feed say

An author has a name and a link, and an entry a title, a time of publication, a link and an image, each of them once where it belongs,
with any other elements around them (`SaysAuthor`, `SaysEntry`). A field is filled at its element and left alone beside it (`Awaits`), so
an author and an entry are read as they are said (`author_of_says`, `entry_of_says`).
-/

namespace ChannelWatch.YouTube

open Markup

/-! ## What elements say -/

/-- The node is an element with the name, whatever stands before its colon. -/
def IsNamed (key : String) : Node → Prop
  | .element name _ _ => localName name = key.toList
  | _ => False

instance (key : String) : DecidablePred (IsNamed key)
  | .element name _ _ => inferInstanceAs (Decidable (localName name = key.toList))
  | .text _ => .isFalse id
  | .broken => .isFalse id

/-- One of the nodes is an element with the name, and has the content. -/
inductive HasOne (key : String) (P : List Char → List Node → Prop) : List Node → Prop
  | here {name attributes : List Char} {children nodes : List Node} (named : localName name = key.toList)
      (content : P attributes children) (others : ∀ n ∈ nodes, ¬IsNamed key n) :
      HasOne key P (.element name attributes children :: nodes)
  | later {n : Node} {nodes : List Node} (other : ¬IsNamed key n) (rest : HasOne key P nodes) : HasOne key P (n :: nodes)

/-- An element says a text between its tags. -/
def SaysText (value : String) (_attributes : List Char) (children : List Node) : Prop :=
  Says value.toList children

/-- An element says a text in an attribute. -/
def SaysAttribute (key value : String) (attributes : List Char) (_children : List Node) : Prop :=
  ∃ before a after, WritesAttributes (before ++ a :: after) attributes ∧ a.key = key.toList ∧ Escapes value.toList a.value ∧
    ∀ b ∈ before ++ after, b.key ≠ key.toList

/-- A video as it was uploaded, and when, if that is known. -/
structure Upload where
  title : String
  link : String
  image : String
  published : Option Instant

/-- What is written for a time: the time, if it is known, and anything that is no time if it is not. -/
inductive Dates : Option Instant → String → Prop
  | known {t : Instant} {text : String} (written : t.IsWritten text.toList) : Dates (some t) text
  | unknown {text : String} (malformed : ∀ t : Instant, ¬t.IsWritten text.toList) : Dates none text

/-- An entry says a video. -/
structure SaysEntry (u : Upload) (children : List Node) : Prop where
  title : HasOne "title" (SaysText u.title) children
  published : ∃ text, Dates u.published text ∧ HasOne "published" (SaysText text) children
  link : HasOne "link" (SaysAttribute "href" u.link) children
  image : HasOne "group" (fun _ inner => HasOne "thumbnail" (SaysAttribute "url" u.image) inner) children

/-- An element says the author of a feed. -/
structure SaysAuthor (name uri : String) (_attributes : List Char) (children : List Node) : Prop where
  name : HasOne "name" (SaysText name) children
  uri : HasOne "uri" (SaysText uri) children

/-! ## Fields that are filled once -/

theorem ok_bind {α β : Type} (a : α) (f : α → Except MarkupFault β) : (Except.ok a >>= f) = f a :=
  rfl

/-- What comes to an end has had something to go on with. -/
theorem exists_of_bind_eq_ok {α β : Type} {r : Except MarkupFault α} {f : α → Except MarkupFault β} {b : β} (h : (r >>= f) = .ok b) :
    ∃ a, r = .ok a ∧ f a = .ok b := by
  cases r with
  | error => exact nomatch h
  | ok a => exact ⟨a, rfl, h⟩

/-- A field on the way: its element is still to come, or it is filled and no such element comes again. -/
def Awaits {α : Type} (key : String) (P : α → List Char → List Node → Prop) (value : α) (field : Option α) (nodes : List Node) : Prop :=
  field = none ∧ HasOne key (P value) nodes ∨ field = some value ∧ ∀ n ∈ nodes, ¬IsNamed key n

section Awaits

variable {α : Type} {key : String} {P : α → List Char → List Node → Prop} {value : α} {field : Option α} {nodes : List Node}

/-- At the end the field is filled. -/
theorem Awaits.filled (h : Awaits key P value field []) : field = some value := by
  rcases h with ⟨-, h⟩ | ⟨h, -⟩
  · nomatch h
  · exact h

/-- Nothing happens to a field beside its element. -/
theorem Awaits.pass {n : Node} (h : Awaits key P value field (n :: nodes)) (hn : ¬IsNamed key n) : Awaits key P value field nodes := by
  rcases h with ⟨hnone, h⟩ | ⟨hsome, h⟩
  · cases h with
    | here named => exact absurd named hn
    | later _ rest => exact .inl ⟨hnone, rest⟩
  · exact .inr ⟨hsome, fun m hm => h m (List.mem_cons_of_mem n hm)⟩

/-- A field is filled at its element, once. -/
theorem Awaits.fill {name attributes : List Char} {children : List Node} {read : Except MarkupFault α}
    (h : Awaits key P value field (.element name attributes children :: nodes)) (hname : localName name = key.toList)
    (hread : P value attributes children → read = .ok value) :
    once field read = .ok (some value) ∧ Awaits key P value (some value) nodes := by
  rcases h with ⟨rfl, h⟩ | ⟨-, h⟩
  · cases h with
    | here _ content others => exact ⟨by rw [hread content]; rfl, .inr ⟨rfl, others⟩⟩
    | later other => exact absurd hname other
  · exact absurd hname (h _ List.mem_cons_self)

end Awaits

/-- The elements of an element are taken one after another if each of them can be, in a state that goes with the nodes still to come. -/
theorem eachElement_ok {σ : Type} (take : σ → List Char → List Char → List Node → Except MarkupFault σ) (Inv : σ → List Node → Prop)
    (htext : ∀ s chunks nodes, Inv s (.text chunks :: nodes) → Inv s nodes)
    (helement : ∀ s name attributes children nodes, (Node.element name attributes children).IsReadable →
      Inv s (.element name attributes children :: nodes) → ∃ t, take s name attributes children = .ok t ∧ Inv t nodes)
    {nodes : List Node} (hreadable : ∀ n ∈ nodes, n.IsReadable) :
    ∀ s, Inv s nodes → ∃ t, eachElement take s nodes = .ok t ∧ Inv t [] := by
  induction nodes with
  | nil => exact fun s h => ⟨s, rfl, h⟩
  | cons n nodes ih =>
    intro s h
    have ih := ih fun m hm => hreadable m (List.mem_cons_of_mem n hm)
    have hn := hreadable n List.mem_cons_self
    cases hn with
    | text reads =>
      obtain ⟨t, ht, hend⟩ := ih s (htext s _ nodes h)
      exact ⟨t, by rw [eachElement, runValue_of_reads reads, ok_bind, ht], hend⟩
    | element tag content =>
      obtain ⟨next, hnext, hinv⟩ := helement s _ _ _ nodes (.element tag content) h
      obtain ⟨t, ht, hend⟩ := ih next hinv
      exact ⟨t, by rw [eachElement, hnext, ok_bind, ht], hend⟩

/-- The attributes of a tag are read. -/
theorem attributesOf_of_isTag {name attributes : List Char} (h : IsTag name attributes) : ∃ list, attributesOf attributes = .ok list := by
  obtain ⟨-, as, has⟩ := h
  exact ⟨as, by rw [attributesOf, attributes?_of_writes has]⟩

/-! ## Texts and attributes -/

/-- The text of an element is read. -/
theorem stringOf_of_saysText {value : String} {attributes : List Char} {children : List Node} (h : SaysText value attributes children) :
    stringOf children = .ok value := by
  rw [stringOf, textOf_of_says h]
  exact congrArg Except.ok String.ofList_toList

/-- A name without its prefix is part of it. -/
theorem mem_of_mem_localName {name : List Char} {c : Char} (h : c ∈ localName name) : c ∈ name := by
  have hsplit : (name.takeWhile (· ≠ ':')) ++ (name.dropWhile (· ≠ ':')) = name := List.takeWhile_append_dropWhile
  rw [← hsplit]
  simp only [localName, Text.cutAt, List.span_eq_takeWhile_dropWhile] at h
  split at h
  · rename_i heq
    split at heq
    · nomatch (Prod.mk.inj heq).2
    · rename_i hspan
      obtain ⟨rfl, hrest⟩ := Prod.mk.inj heq
      obtain rfl := Option.some.inj hrest
      rw [(Prod.mk.inj hspan).2]
      exact List.mem_append_right _ (List.mem_cons_of_mem _ h)
  · rename_i heq
    split at heq
    · rename_i hspan
      obtain ⟨rfl, -⟩ := Prod.mk.inj heq
      rw [(Prod.mk.inj hspan).1]
      exact List.mem_append_left _ h
    · nomatch (Prod.mk.inj heq).2

/-- The attribute that is asked for is found among the others. -/
theorem foldlM_takeAttribute {key value : String} {before after : List Attribute} {a : Attribute} (ha : a.key = key.toList)
    (hvalue : Escapes value.toList a.value) (hothers : ∀ b ∈ before ++ after, b.key ≠ key.toList) :
    (before ++ a :: after).foldlM (takeAttribute key.toList) none = .ok (some value) := by
  have hpass : ∀ list : List Attribute, (∀ b ∈ list, b.key ≠ key.toList) → ∀ field,
      list.foldlM (takeAttribute key.toList) field = .ok field := by
    intro list
    induction list with
    | nil => exact fun _ _ => rfl
    | cons b list ih =>
      intro hlist field
      have hb : takeAttribute key.toList field b = .ok field := if_neg (hlist b List.mem_cons_self)
      rw [List.foldlM_cons, hb]
      exact ih (fun c hc => hlist c (List.mem_cons_of_mem b hc)) field
  have hfill : takeAttribute key.toList none a = .ok (some value) := by
    rw [takeAttribute, if_pos ha, attributeValue, unescape?_of_escapes hvalue]
    exact congrArg (Except.ok ∘ some) String.ofList_toList
  rw [List.foldlM_append, hpass before fun b hb => hothers b (List.mem_append_left _ hb), ok_bind, List.foldlM_cons, hfill, ok_bind]
  exact hpass after (fun b hb => hothers b (List.mem_append_right _ hb)) (some value)

/-- An attribute's value after one child of its element: the child could hold the value, were it named for it. -/
def takeValue (key : String) (field : Option String) (name _attributes : List Char) (inner : List Node) :
    Except MarkupFault (Option String) :=
  if localName name = '@' :: key.toList then once field ((textOf inner).map String.ofList) else do skip inner; pure field

/-- The value of an attribute comes from the attributes, then from the children. -/
theorem attributeOnly_eq (key : String) (attributes : List Char) (children : List Node) : attributeOnly key attributes children = (do
    let list ← attributesOf attributes
    let field ← list.foldlM (takeAttribute key.toList) none
    let field ← eachElement (takeValue key) field children
    pure (field.getD "")) :=
  rfl

/-- No child holds an attribute's value, for there is no at sign in its name. -/
theorem takeValue_ok {key : String} {name attributes : List Char} {inner : List Node}
    (h : (Node.element name attributes inner).IsReadable) (field : Option String) :
    takeValue key field name attributes inner = .ok field := by
  have hname : localName name ≠ '@' :: key.toList := by
    intro heq
    obtain _ | ⟨tag, _⟩ := h
    exact tag.1.ne (mem_of_mem_localName (heq ▸ List.mem_cons_self)) (by decide) rfl
  rw [takeValue, if_neg hname, skip_of_isReadable h]
  rfl

/-- The attribute of an element is read, whatever the element contains. -/
theorem attributeOnly_of_says {key value : String} {attributes : List Char} {children : List Node}
    (h : SaysAttribute key value attributes children) (hreadable : ∀ n ∈ children, n.IsReadable) :
    attributeOnly key attributes children = .ok value := by
  obtain ⟨before, a, after, hwrites, ha, hvalue, hothers⟩ := h
  have hattributes : attributesOf attributes = .ok (before ++ a :: after) := by rw [attributesOf, attributes?_of_writes hwrites]
  obtain ⟨field, hfield, rfl⟩ := eachElement_ok (takeValue key) (fun field _ => field = some value) (fun _ _ _ h => h)
    (fun field _ _ _ _ hinner h => ⟨field, takeValue_ok hinner field, h⟩) hreadable (some value) rfl
  rw [attributeOnly_eq, hattributes, ok_bind, foldlM_takeAttribute ha hvalue hothers, ok_bind, hfield, ok_bind]
  rfl

/-! ## Authors and images -/

theorem not_isNamed {key other : String} {name attributes : List Char} {children : List Node} (h : localName name = key.toList)
    (hne : key ≠ other) : ¬IsNamed other (.element name attributes children) :=
  fun hother => hne (String.toList_inj.mp (h.symm.trans hother))

/-- An author on the way. -/
structure AwaitsAuthor (name uri : String) (draft : Option String × Option String) (nodes : List Node) : Prop where
  name : Awaits "name" SaysText name draft.1 nodes
  uri : Awaits "uri" SaysText uri draft.2 nodes

/-- An author goes on with each child of its element. -/
theorem takeAuthor_ok {name uri : String} {draft : Option String × Option String} {key attributes : List Char} {inner nodes : List Node}
    (hinner : (Node.element key attributes inner).IsReadable) (h : AwaitsAuthor name uri draft (.element key attributes inner :: nodes)) :
    ∃ t, takeAuthor draft key attributes inner = .ok t ∧ AwaitsAuthor name uri t nodes := by
  by_cases hname : localName key = "name".toList
  · obtain ⟨hfill, hrest⟩ := h.name.fill hname stringOf_of_saysText
    refine ⟨(some name, draft.2), ?_, hrest, h.uri.pass (not_isNamed hname (by decide))⟩
    rw [takeAuthor, if_pos hname, hfill]
    rfl
  by_cases huri : localName key = "uri".toList
  · obtain ⟨hfill, hrest⟩ := h.uri.fill huri stringOf_of_saysText
    refine ⟨(draft.1, some uri), ?_, h.name.pass hname, hrest⟩
    rw [takeAuthor, if_neg hname, if_pos huri, hfill]
    rfl
  · refine ⟨draft, ?_, h.name.pass hname, h.uri.pass huri⟩
    rw [takeAuthor, if_neg hname, if_neg huri, skip_of_isReadable hinner]
    rfl

/-- An author is read. -/
theorem author_of_says {name uri : String} {tag attributes : List Char} {children : List Node}
    (h : SaysAuthor name uri attributes children) (hreadable : (Node.element tag attributes children).IsReadable) :
    author attributes children = .ok (name, uri) := by
  obtain _ | ⟨htag, hchildren⟩ := hreadable
  obtain ⟨list, hlist⟩ := attributesOf_of_isTag htag
  obtain ⟨⟨_, _⟩, hread, hname, huri⟩ := eachElement_ok takeAuthor (AwaitsAuthor name uri)
    (fun _ _ _ h => ⟨h.name.pass id, h.uri.pass id⟩) (fun _ _ _ _ _ hinner h => takeAuthor_ok hinner h) hchildren (none, none)
    ⟨.inl ⟨rfl, h.name⟩, .inl ⟨rfl, h.uri⟩⟩
  obtain rfl := hname.filled
  obtain rfl := huri.filled
  rw [author, hlist, ok_bind, hread]
  rfl

/-- The image of an entry after one child of its group. -/
def takeImage (image : Option String) (name attributes : List Char) (inner : List Node) : Except MarkupFault (Option String) :=
  if localName name = "thumbnail".toList then once image (attributeOnly "url" attributes inner) else do skip inner; pure image

/-- The image of an entry comes from the children of its group. -/
theorem groupImage_eq (attributes : List Char) (children : List Node) : groupImage attributes children = (do
    let _ ← attributesOf attributes
    let image ← eachElement takeImage none children
    pure (image.getD "")) :=
  rfl

/-- The image of an entry goes on with each child of its group. -/
theorem takeImage_ok {image : String} {field : Option String} {name attributes : List Char} {inner nodes : List Node}
    (hinner : (Node.element name attributes inner).IsReadable)
    (h : Awaits "thumbnail" (SaysAttribute "url") image field (.element name attributes inner :: nodes)) :
    ∃ t, takeImage field name attributes inner = .ok t ∧ Awaits "thumbnail" (SaysAttribute "url") image t nodes := by
  by_cases hname : localName name = "thumbnail".toList
  · obtain _ | ⟨_, hnodes⟩ := hinner
    obtain ⟨hfill, hrest⟩ := h.fill hname fun hsaid => attributeOnly_of_says hsaid hnodes
    exact ⟨some image, (if_pos hname).trans hfill, hrest⟩
  · refine ⟨field, ?_, h.pass hname⟩
    rw [takeImage, if_neg hname, skip_of_isReadable hinner]
    rfl

/-- The image of an entry is read. -/
theorem groupImage_of_says {image : String} {tag attributes : List Char} {children : List Node}
    (h : HasOne "thumbnail" (SaysAttribute "url" image) children) (hreadable : (Node.element tag attributes children).IsReadable) :
    groupImage attributes children = .ok image := by
  obtain _ | ⟨htag, hchildren⟩ := hreadable
  obtain ⟨list, hlist⟩ := attributesOf_of_isTag htag
  obtain ⟨_, hread, himage⟩ := eachElement_ok takeImage (Awaits "thumbnail" (SaysAttribute "url") image) (fun _ _ _ h => h.pass id)
    (fun _ _ _ _ _ hinner h => takeImage_ok hinner h) hchildren none (.inl ⟨rfl, h⟩)
  obtain rfl := himage.filled
  rw [groupImage_eq, hlist, ok_bind, hread]
  rfl

/-! ## Entries -/

/-- What was read of a video. -/
structure Upload.IsRead (u : Upload) (e : Entry) : Prop where
  title : e.title = u.title
  link : e.link = u.link
  image : e.image = u.image
  published : Instant.readStrict? e.published = u.published

/-- What is written for a time is read as that time. -/
theorem readStrict?_of_dates {t : Option Instant} {text : String} (h : Dates t text) : Instant.readStrict? text = t := by
  cases h with
  | known written => exact Instant.readStrict?_eq_some_iff.mpr written
  | unknown malformed => exact Option.eq_none_iff_forall_ne_some.mpr fun t ht => malformed t (Instant.readStrict?_eq_some_iff.mp ht)

/-- An entry on the way. -/
structure AwaitsEntry (u : Upload) (time : String) (draft : Entry.Draft) (nodes : List Node) : Prop where
  title : Awaits "title" SaysText u.title draft.title nodes
  published : Awaits "published" SaysText time draft.published nodes
  link : Awaits "link" (SaysAttribute "href") u.link draft.link nodes
  image : Awaits "group" (fun image _ inner => HasOne "thumbnail" (SaysAttribute "url" image) inner) u.image draft.image nodes

/-- An entry goes on with each child of its element. -/
theorem takeEntryPart_ok {u : Upload} {time : String} {draft : Entry.Draft} {name attributes : List Char} {inner nodes : List Node}
    (hinner : (Node.element name attributes inner).IsReadable) (h : AwaitsEntry u time draft (.element name attributes inner :: nodes)) :
    ∃ t, takeEntryPart draft name attributes inner = .ok t ∧ AwaitsEntry u time t nodes := by
  have hnodes : ∀ n ∈ inner, n.IsReadable := by
    obtain _ | ⟨_, hnodes⟩ := hinner
    exact hnodes
  by_cases htitle : localName name = "title".toList
  · obtain ⟨hfill, hrest⟩ := h.title.fill htitle stringOf_of_saysText
    refine ⟨{ draft with title := some u.title }, ?_, hrest, h.published.pass (not_isNamed htitle (by decide)),
      h.link.pass (not_isNamed htitle (by decide)), h.image.pass (not_isNamed htitle (by decide))⟩
    simp only [takeEntryPart, if_pos htitle, hfill]
    rfl
  by_cases hpublished : localName name = "published".toList
  · obtain ⟨hfill, hrest⟩ := h.published.fill hpublished stringOf_of_saysText
    refine ⟨{ draft with published := some time }, ?_, h.title.pass htitle, hrest, h.link.pass (not_isNamed hpublished (by decide)),
      h.image.pass (not_isNamed hpublished (by decide))⟩
    simp only [takeEntryPart, if_neg htitle, if_pos hpublished, hfill]
    rfl
  by_cases hlink : localName name = "link".toList
  · obtain ⟨hfill, hrest⟩ := h.link.fill hlink fun hsaid => attributeOnly_of_says hsaid hnodes
    refine ⟨{ draft with link := some u.link }, ?_, h.title.pass htitle, h.published.pass hpublished, hrest,
      h.image.pass (not_isNamed hlink (by decide))⟩
    simp only [takeEntryPart, if_neg htitle, if_neg hpublished, if_pos hlink, hfill]
    rfl
  by_cases hgroup : localName name = "group".toList
  · obtain ⟨hfill, hrest⟩ := h.image.fill hgroup fun hsaid => groupImage_of_says hsaid hinner
    refine ⟨{ draft with image := some u.image }, ?_, h.title.pass htitle, h.published.pass hpublished, h.link.pass hlink, hrest⟩
    simp only [takeEntryPart, if_neg htitle, if_neg hpublished, if_neg hlink, if_pos hgroup, hfill]
    rfl
  · refine ⟨draft, ?_, h.title.pass htitle, h.published.pass hpublished, h.link.pass hlink, h.image.pass hgroup⟩
    simp only [takeEntryPart, if_neg htitle, if_neg hpublished, if_neg hlink, if_neg hgroup, skip_of_isReadable hinner]
    rfl

/-- An entry is read. -/
theorem entry_of_says {u : Upload} {tag attributes : List Char} {children : List Node} (h : SaysEntry u children)
    (hreadable : (Node.element tag attributes children).IsReadable) : ∃ e, entry attributes children = .ok e ∧ u.IsRead e := by
  obtain _ | ⟨htag, hchildren⟩ := hreadable
  obtain ⟨list, hlist⟩ := attributesOf_of_isTag htag
  obtain ⟨time, hdates, hpublished⟩ := h.published
  obtain ⟨⟨_, _, _, _⟩, hread, hend⟩ := eachElement_ok takeEntryPart (AwaitsEntry u time)
    (fun _ _ _ h => ⟨h.title.pass id, h.published.pass id, h.link.pass id, h.image.pass id⟩)
    (fun _ _ _ _ _ hinner h => takeEntryPart_ok hinner h) hchildren ⟨none, none, none, none⟩
    ⟨.inl ⟨rfl, h.title⟩, .inl ⟨rfl, hpublished⟩, .inl ⟨rfl, h.link⟩, .inl ⟨rfl, h.image⟩⟩
  obtain rfl := hend.title.filled
  obtain rfl := hend.published.filled
  obtain rfl := hend.link.filled
  obtain rfl := hend.image.filled
  refine ⟨⟨u.title, time, u.link, u.image⟩, ?_, rfl, rfl, rfl, readStrict?_of_dates hdates⟩
  rw [entry, hlist, ok_bind, hread]
  rfl

end ChannelWatch.YouTube
