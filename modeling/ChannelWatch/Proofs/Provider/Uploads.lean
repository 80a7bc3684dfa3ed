import ChannelWatch.Proofs.Provider.Entries

/-!
# Uploads are recovered

A document of uploads has an author and entries, one after the other and of the same name in full, with any other elements before and
behind them (`SaysUploads`). Whatever white space, entities, prefixes, comments and offsets it is written with, the items are those of
the videos that it says (`uploads_recovered`). The names do have to be the same in full: a document whose entries have different ones
is not read, whatever else it holds (`not_read_of_fullName_ne`).
-/

namespace ChannelWatch.YouTube

open Markup

/-- The item of a video in a feed with this author; `now` stands for a time that is not known. -/
def Upload.item (name uri : String) (now : Instant) (u : Upload) : VideoItem where
  title := u.title
  url := Link.secure u.link
  author := name
  authorUrl := uri ++ "/videos"
  imageUrl := u.image
  published := u.published.getD now

/-- An element of a feed beside its entries. -/
def IsOther (n : Node) : Prop :=
  ∃ name attributes children, n = .element name attributes children ∧ localName name ≠ "entry".toList

/-- A document says an author and some videos, in this order: its entries stand together, and have the same name in full. -/
inductive SaysUploads (name uri : String) (uploads : List Upload) : Node → Prop
  | intro {root full attributes : List Char} {before entries after : List Node}
      (author : HasOne "author" (SaysAuthor name uri) (before ++ after)) (others : ∀ n ∈ before ++ after, IsOther n)
      (named : localName full = "entry".toList)
      (listed : List.Forall₂ (fun u n => ∃ attributes children, n = .element full attributes children ∧ SaysEntry u children)
        uploads entries) :
      SaysUploads name uri uploads (.element root attributes (before ++ (entries ++ after)))

/-! ## Feeds -/

/-- The elements beside the entries of a feed are taken one after another. -/
theorem takeFeed_others {name uri : String} {nodes : List Node} (hothers : ∀ n ∈ nodes, IsOther n)
    (hreadable : ∀ n ∈ nodes, n.IsReadable) (later rest : List Node) :
    ∀ draft : Uploads.Draft, (∀ full ∈ draft.listed, localName full = "entry".toList) →
      Awaits "author" (fun a => SaysAuthor a.1 a.2) (name, uri) draft.author (nodes ++ later) →
      ∃ t : Uploads.Draft, takeFeed draft (nodes ++ rest) = takeFeed t rest ∧ t.entries = draft.entries ∧
        (draft.listed = none → t.listed = none) ∧ Awaits "author" (fun a => SaysAuthor a.1 a.2) (name, uri) t.author later := by
  induction nodes with
  | nil => exact fun draft _ h => ⟨draft, rfl, rfl, id, h⟩
  | cons n nodes ih =>
    intro draft hlisted h
    have ih := ih (fun m hm => hothers m (List.mem_cons_of_mem n hm)) fun m hm => hreadable m (List.mem_cons_of_mem n hm)
    obtain ⟨full, attributes, children, rfl, hentry⟩ := hothers n List.mem_cons_self
    have hn := hreadable _ List.mem_cons_self
    have hbreak : draft.listed ≠ some full := fun heq => hentry (hlisted full heq)
    by_cases hauthor : localName full = "author".toList
    · obtain ⟨hfill, hrest⟩ := h.fill hauthor fun hsaid => author_of_says hsaid hn
      obtain ⟨t, ht, hentries, hnone, hend⟩ := ih ⟨some (name, uri), draft.entries, none⟩ (fun _ hfull => nomatch hfull) hrest
      refine ⟨t, ?_, hentries, fun _ => hnone rfl, hend⟩
      rw [List.cons_append, takeFeed, if_neg hbreak]
      simp only [takeFeedPart, if_pos hauthor, hfill]
      exact ht
    · obtain ⟨t, ht, hentries, hnone, hend⟩ := ih ⟨draft.author, draft.entries, none⟩ (fun _ hfull => nomatch hfull) (h.pass hauthor)
      refine ⟨t, ?_, hentries, fun _ => hnone rfl, hend⟩
      rw [List.cons_append, takeFeed, if_neg hbreak]
      simp only [takeFeedPart, if_neg hauthor, if_neg hentry, skip_of_isReadable hn]
      exact ht

/-- Entries of one full name are listed one after another. -/
theorem takeFeed_listed {full : List Char} {uploads : List Upload} {nodes : List Node}
    (h : List.Forall₂ (fun u n => ∃ attributes children, n = .element full attributes children ∧ SaysEntry u children) uploads nodes)
    (hreadable : ∀ n ∈ nodes, n.IsReadable) (rest : List Node) :
    ∀ draft : Uploads.Draft, draft.listed = some full → ∃ entries, List.Forall₂ Upload.IsRead uploads entries ∧
      ∃ t : Uploads.Draft, takeFeed draft (nodes ++ rest) = takeFeed t rest ∧ t.author = draft.author ∧ t.listed = some full ∧
        t.entries.getD [] = entries.reverse ++ draft.entries.getD [] := by
  induction h with
  | nil => exact fun draft hlisted => ⟨[], .nil, draft, rfl, rfl, hlisted, rfl⟩
  | @cons u n uploads nodes hn _ ih =>
    intro draft hlisted
    obtain ⟨attributes, children, rfl, hsaid⟩ := hn
    obtain ⟨e, he, hread⟩ := entry_of_says hsaid (hreadable _ List.mem_cons_self)
    obtain ⟨entries, hentries, t, ht, hauthor, hfull, hend⟩ := ih (fun m hm => hreadable m (List.mem_cons_of_mem _ hm))
      { draft with entries := some (e :: draft.entries.getD []) } hlisted
    refine ⟨e :: entries, .cons hread hentries, t, ?_, hauthor, hfull, ?_⟩
    · rw [List.cons_append, takeFeed, if_pos hlisted, he]
      exact ht
    · rw [hend, List.reverse_cons, List.append_assoc]
      rfl

/-- The entries of a feed are listed if none were before. -/
theorem takeFeed_entries {full : List Char} (hfull : localName full = "entry".toList) {uploads : List Upload} {nodes : List Node}
    (h : List.Forall₂ (fun u n => ∃ attributes children, n = .element full attributes children ∧ SaysEntry u children) uploads nodes)
    (hreadable : ∀ n ∈ nodes, n.IsReadable) (rest : List Node) {draft : Uploads.Draft} (hlisted : draft.listed = none)
    (hnone : draft.entries = none) : ∃ entries, List.Forall₂ Upload.IsRead uploads entries ∧
      ∃ t : Uploads.Draft, takeFeed draft (nodes ++ rest) = takeFeed t rest ∧ t.author = draft.author ∧
        (∀ name ∈ t.listed, localName name = "entry".toList) ∧ t.entries.getD [] = entries.reverse := by
  cases h with
  | nil =>
    refine ⟨[], .nil, draft, rfl, rfl, ?_, by rw [hnone]; rfl⟩
    rw [hlisted]
    exact fun _ h => nomatch h
  | @cons u n uploads nodes hn hothers =>
    obtain ⟨attributes, children, rfl, hsaid⟩ := hn
    obtain ⟨e, he, hread⟩ := entry_of_says hsaid (hreadable _ List.mem_cons_self)
    have hauthor : localName full ≠ "author".toList := by rw [hfull]; decide
    obtain ⟨entries, hentries, t, ht, hauthor', hlast, hend⟩ := takeFeed_listed hothers
      (fun m hm => hreadable m (List.mem_cons_of_mem _ hm)) rest ⟨draft.author, some [e], some full⟩ rfl
    refine ⟨e :: entries, .cons hread hentries, t, ?_, hauthor', ?_, by rw [hend, List.reverse_cons]; rfl⟩
    · rw [List.cons_append, takeFeed, if_neg (by rw [hlisted]; exact Option.some_ne_none full ∘ Eq.symm)]
      simp only [takeFeedPart, if_neg hauthor, if_pos hfull, he, hnone]
      exact ht
    · rw [hlast]
      rintro _ ⟨⟩
      exact hfull

/-- A feed is read. -/
theorem ofNodes_of_says {name uri : String} {uploads : List Upload} {root : Node} (h : SaysUploads name uri uploads root)
    (hreadable : root.IsReadable) :
    ∃ entries, Uploads.ofNodes [root] = .ok ⟨name, uri, entries⟩ ∧ List.Forall₂ Upload.IsRead uploads entries := by
  obtain @⟨root, full, attributes, before, entries, after, author, others, named, listed⟩ := h
  obtain _ | ⟨htag, hchildren⟩ := hreadable
  obtain ⟨list, hlist⟩ := attributesOf_of_isTag htag
  obtain ⟨hbefore, hafter⟩ := List.forall_mem_append.mp others
  obtain ⟨hrbefore, hchildren⟩ := List.forall_mem_append.mp hchildren
  obtain ⟨hrentries, hrafter⟩ := List.forall_mem_append.mp hchildren
  obtain ⟨s, hs, hsentries, hslisted, hsauthor⟩ := takeFeed_others hbefore hrbefore after (entries ++ after) ⟨none, none, none⟩
    (fun _ h => nomatch h) (.inl ⟨rfl, author⟩)
  obtain ⟨es, hes, t, ht, htauthor, htlisted, htentries⟩ := takeFeed_entries named listed hrentries after (hslisted rfl) hsentries
  obtain ⟨r, hr, hrentries, -, hrauthor⟩ := takeFeed_others hafter hrafter [] [] t htlisted
    (by rw [htauthor, List.append_nil]; exact hsauthor)
  have hread : takeFeed ⟨none, none, none⟩ (before ++ (entries ++ after)) = .ok r := by
    rw [hs, ht]
    rw [List.append_nil] at hr
    rw [hr, takeFeed]
  refine ⟨es, ?_, hes⟩
  rw [Uploads.ofNodes, hlist, ok_bind, hread, ok_bind, hrauthor.filled, hrentries, htentries, List.reverse_reverse]
  rfl

/-- The items of a feed are those of the videos that were read. -/
theorem items_of_isRead {uploads : List Upload} {feed : Uploads} (h : List.Forall₂ Upload.IsRead uploads feed.entries) (now : Instant) :
    feed.items "" now = uploads.map (Upload.item feed.authorName feed.authorUri now) := by
  have hitem : ∀ {u : Upload} {e : Entry}, u.IsRead e → e.item feed "" now = u.item feed.authorName feed.authorUri now := by
    intro u e hread
    have hlink : videoUrl "" e.link = Link.secure e.link := if_pos rfl
    rw [Entry.item, hlink, hread.title, hread.link, hread.image, hread.published]
    rfl
  rw [Uploads.items]
  generalize feed.entries = entries at h
  induction h with
  | nil => rfl
  | cons hread _ ih => rw [List.map_cons, List.map_cons, ih, hitem hread]

/-- The items of a document's videos, in the order in which the document says them: each has its own title, its own link made secure, its
own image and its own time, or the time of reading where it says none, and the author of them all. -/
theorem uploads_recovered {name uri text : String} {uploads : List Upload} {root : Node} (document : Document root text.toList)
    (readable : root.IsReadable) (h : SaysUploads name uri uploads root) :
    ∃ feed, Uploads.read text = .ok feed ∧ ∀ now, feed.items "" now = uploads.map (Upload.item name uri now) := by
  obtain ⟨entries, hread, hentries⟩ := ofNodes_of_says h readable
  exact ⟨⟨name, uri, entries⟩, by rw [Uploads.read, ofText_of_document document, hread], items_of_isRead hentries⟩

/-! ### A document with prefixes, entities, white space, and elements that nobody asks for -/

namespace Prefixed

/-- An attribute as it is written, in quotation marks after a space. -/
def spelled (name value : String) (text : List Char) : List Char :=
  [' '] ++ (name.toList ++ ([] ++ '=' :: ([] ++ '\x22' :: (value.toList ++ '\x22' :: text))))

/-- An element with a run of text and nothing else. -/
def leaf (name : String) (raw : List Char) : Node :=
  .element name.toList [] (nodesOfRun [.raw raw])

/-- The author's name as it is written. -/
def author : List Char :=
  'A' :: ' ' :: '&' :: ("amp".toList ++ ';' :: [' ', 'B'])

/-- The first title as it is written. -/
def title : List Char :=
  '&' :: '#' :: (['6', '0'] ++ ';' :: ['T'])

/-- The elements before the entries. -/
def before : List Node :=
  [.element "link".toList (spelled "href" "x" []) [], .element "link".toList [] [],
    .element "a:author".toList [] [leaf "name" author, leaf "a:uri" "http://u".toList]]

/-- The children of the first entry. -/
def first : List Node :=
  [leaf "title" title, .element "link".toList (spelled "rel" "alternate" (spelled "href" "http://v" [])) [],
    leaf "published" "2024-03-01T12:00:00.5+02:00".toList,
    .element "m:group".toList [] [leaf "m:title" "t".toList, .element "m:thumbnail".toList (spelled "url" "i" []) []]]

/-- The children of the second entry. -/
def second : List Node :=
  [.element "group".toList [] [.element "thumbnail".toList (spelled "url" "" []) []], leaf "b:published" "soon".toList,
    .element "link".toList (spelled "href" "https://w" []) [], .element "title".toList [] []]

/-- The document's first element. -/
def root : Node :=
  .element "a:feed".toList (spelled "xmlns:a" "u" [])
    (before ++ ([.element "a:entry".toList [] first, .element "a:entry".toList [] second] ++ []))

/-- The characters of the document. -/
def chars : List Char :=
  "<a:feed xmlns:a=\x22u\x22><link href=\x22x\x22/><link/>\n ".toList ++ "<a:author><name>A &amp; B</name>".toList ++
    "<a:uri>http://u</a:uri></a:author>\n ".toList ++ "<a:entry><title>&#60;T</title>".toList ++
    "<link rel=\x22alternate\x22 href=\x22http://v\x22/>".toList ++ "<published>2024-03-01T12:00:00.5+02:00</published>".toList ++
    "<m:group><m:title>t</m:title>".toList ++ "<m:thumbnail url=\x22i\x22/></m:group></a:entry>\n ".toList ++
    "<a:entry><group><thumbnail url=\x22\x22/></group>".toList ++ "<b:published>soon</b:published>".toList ++
    "<link href=\x22https://w\x22/><title></title>".toList ++ "</a:entry></a:feed>".toList

theorem writes_nil : WritesAttributes [] [] :=
  .nil (List.forall_mem_nil _)

theorem writes_spelled {name value : String} {as : List Attribute} {text : List Char} (hname : IsName name.toList)
    (hvalue : '\x22' ∉ value.toList) (hfresh : ∀ b ∈ as, b.name ≠ name.toList) (rest : WritesAttributes as text) :
    WritesAttributes (⟨name.toList, value.toList⟩ :: as) (spelled name value text) :=
  .cons (List.cons_ne_nil _ _) (List.forall_mem_singleton.mpr rfl) hname hfresh (List.forall_mem_nil _) (List.forall_mem_nil _) (.inl rfl) hvalue rest

theorem isTag_bare {name : List Char} (h : IsName name) : IsTag name [] :=
  ⟨h, [], writes_nil⟩

theorem isTag_spelled {tag : List Char} {name value : String} (htag : IsName tag) (hname : IsName name.toList)
    (hvalue : '\x22' ∉ value.toList) : IsTag tag (spelled name value []) :=
  ⟨htag, _, writes_spelled hname hvalue (List.forall_mem_nil _) writes_nil⟩

theorem writes_link : WritesAttributes ([⟨"rel".toList, "alternate".toList⟩] ++ [⟨"href".toList, "http://v".toList⟩])
    (spelled "rel" "alternate" (spelled "href" "http://v" [])) :=
  writes_spelled (by decide) (by decide) (by decide) (writes_spelled (by decide) (by decide) (List.forall_mem_nil _) writes_nil)

theorem writes_leaf {name : String} {raw text : List Char} {nodes : List Node} (hname : IsName name.toList) (hsome : raw ≠ [])
    (hplain : '<' ∉ raw) (rest : Writes nodes text) : Writes (leaf name raw :: nodes)
      ([] ++ '<' :: (name.toList ++ ([] ++ '>' :: (raw ++ '<' :: '/' :: (name.toList ++ '>' :: text))))) :=
  .element (List.forall_mem_nil _) (isTag_bare hname) (.run hsome hplain) rest

/-- The text is a document of the tree. -/
theorem document : Document root chars := by
  have hblank : ∀ c ∈ ([] : List Char), isBlank c = true := List.forall_mem_nil _
  have hspace : ∀ c ∈ ['\n', ' '], isBlank c = true := List.forall_mem_cons.mpr ⟨rfl, List.forall_mem_singleton.mpr rfl⟩
  have hbare : ∀ {name : String}, IsName name.toList → IsTag name.toList [] := isTag_bare
  have hfirst : Writes first _ := writes_leaf (by decide) (by decide) (by decide) (.empty hblank ⟨by decide, _, writes_link⟩
    (writes_leaf (by decide) (by decide) (by decide) (.element hblank (hbare (by decide))
      (writes_leaf (by decide) (by decide) (by decide) (.empty hblank (isTag_spelled (by decide) (by decide) (by decide)) .nil)) .nil)))
  have hsecond : Writes second _ := .element hblank (hbare (by decide))
    (.empty hblank (isTag_spelled (by decide) (by decide) (by decide)) .nil)
    (writes_leaf (by decide) (by decide) (by decide) (.empty hblank (isTag_spelled (by decide) (by decide) (by decide))
      (.element hblank (hbare (by decide)) .nil .nil)))
  have hauthor : Writes [leaf "name" author, leaf "a:uri" "http://u".toList] _ :=
    writes_leaf (by decide) (by decide) (by decide) (writes_leaf (by decide) (by decide) (by decide) .nil)
  have hchildren : Writes (before ++ ([.element "a:entry".toList [] first, .element "a:entry".toList [] second] ++ [])) _ :=
    .empty hblank (isTag_spelled (by decide) (by decide) (by decide)) (.empty hblank (hbare (by decide))
      (.element hspace (hbare (by decide)) hauthor (.element hspace (hbare (by decide)) hfirst
        (.element hspace (hbare (by decide)) hsecond .nil))))
  have htag : IsTag "a:feed".toList (spelled "xmlns:a" "u" []) := isTag_spelled (by decide) (by decide) (by decide)
  refine Eq.mp (congrArg (Document root) ?_) (Document.of_writes htag hchildren)
  decide +kernel

theorem says_leaf {value : String} {raw : List Char} (h : Escapes value.toList raw) (htrimmed : IsTrimmed value.toList) :
    SaysText value [] (nodesOfRun [.raw raw]) := by
  refine .intro ?_ htrimmed
  rw [← List.append_nil value.toList]
  exact .cons (.raw h) .nil

theorem says_self {value : String} (h : '&' ∉ value.toList) (htrimmed : IsTrimmed value.toList) :
    SaysText value [] (nodesOfRun [.raw value.toList]) :=
  says_leaf (escapes_self h) htrimmed

theorem says_author : SaysText "A & B" [] (nodesOfRun [.raw author]) :=
  says_leaf (.plain (by decide) (.plain (by decide) (.named (by decide) (escapes_self (by decide))))) (by decide)

theorem says_title : SaysText "<T" [] (nodesOfRun [.raw title]) := by
  refine says_leaf (.decimal ⟨by decide, [6, 0], ?_, by decide, by decide⟩ (by decide) (escapes_self (by decide))) (by decide)
  exact .cons ⟨by decide, .inl (by decide)⟩ (.cons ⟨by decide, .inl (by decide)⟩ .nil)

/-- An attribute says its value if there is no ampersand in it, whatever attributes come before. -/
theorem says_attribute {key value : String} {before : List Attribute} {attributes : List Char} {children : List Node}
    (hwrites : WritesAttributes (before ++ [⟨key.toList, value.toList⟩]) attributes)
    (hkey : (⟨key.toList, value.toList⟩ : Attribute).key = key.toList) (h : '&' ∉ value.toList)
    (hothers : ∀ b ∈ before, b.key ≠ key.toList) : SaysAttribute key value attributes children :=
  ⟨before, _, [], hwrites, hkey, escapes_self h, by rwa [List.append_nil]⟩

/-- The entries say their videos. -/
theorem says_entries : SaysEntry ⟨"<T", "http://v", "i", some ⟨1709287200, 500000000⟩⟩ first ∧
    SaysEntry ⟨"", "https://w", "", none⟩ second := by
  have hone : ∀ {key value : String} {children : List Node}, IsName key.toList → '"' ∉ value.toList →
      (⟨key.toList, value.toList⟩ : Attribute).key = key.toList → '&' ∉ value.toList →
      SaysAttribute key value (spelled key value []) children := fun hname hvalue hkey h =>
    says_attribute (writes_spelled hname hvalue (List.forall_mem_nil _) writes_nil) hkey h (List.forall_mem_nil _)
  have htime : Dates (some ⟨1709287200, 500000000⟩) "2024-03-01T12:00:00.5+02:00" :=
    .known (Instant.readStrict?_eq_some_iff.mp (by decide +kernel))
  have hsoon : Dates none "soon" := by
    refine .unknown fun t h => ?_
    have hread : Instant.readStrict? "soon" = none := by decide +kernel
    rw [Instant.readStrict?_eq_some_iff.mpr h] at hread
    nomatch hread
  have hlink : SaysAttribute "href" "http://v" (spelled "rel" "alternate" (spelled "href" "http://v" [])) [] :=
    says_attribute writes_link (by decide) (by decide) (by decide)
  constructor
  · exact {
      title := .here (by decide) says_title (by decide)
      published := ⟨_, htime, .later (by decide) (.later (by decide)
        (.here (by decide) (says_self (by decide) (by decide)) (by decide)))⟩
      link := .later (by decide) (.here (by decide) hlink (by decide))
      image := .later (by decide) (.later (by decide) (.later (by decide) (.here (by decide)
        (.later (by decide) (.here (by decide) (hone (by decide) (by decide) (by decide) (by decide)) (by decide))) (by decide)))) }
  · exact {
      title := .later (by decide) (.later (by decide) (.later (by decide) (.here (by decide)
        (.intro .nil (by decide)) (by decide))))
      published := ⟨_, hsoon, .later (by decide) (.here (by decide) (says_self (by decide) (by decide)) (by decide))⟩
      link := .later (by decide) (.later (by decide) (.here (by decide) (hone (by decide) (by decide) (by decide) (by decide))
        (by decide)))
      image := .here (by decide) (.here (by decide) (hone (by decide) (by decide) (by decide) (by decide)) (by decide)) (by decide) }

/-- The tree says an author and two videos. -/
theorem says_uploads :
    SaysUploads "A & B" "http://u" [⟨"<T", "http://v", "i", some ⟨1709287200, 500000000⟩⟩, ⟨"", "https://w", "", none⟩] root := by
  have hauthor : SaysAuthor "A & B" "http://u" [] [leaf "name" author, leaf "a:uri" "http://u".toList] := {
    name := .here (by decide) says_author (by decide)
    uri := .later (by decide) (.here (by decide) (says_self (by decide) (by decide)) (by decide)) }
  refine .intro (.later (by decide) (.later (by decide) (.here (by decide) hauthor (by decide)))) ?_ (by decide)
    (.cons ⟨_, _, rfl, says_entries.1⟩ (.cons ⟨_, _, rfl, says_entries.2⟩ .nil))
  simp only [before, List.append_nil, List.forall_mem_cons]
  exact ⟨⟨_, _, _, rfl, by decide⟩, ⟨_, _, _, rfl, by decide⟩, ⟨_, _, _, rfl, by decide⟩, List.forall_mem_nil _⟩

/-- The tree can be read. -/
theorem isReadable : root.IsReadable := by
  have hempty : ∀ {tag attributes : List Char}, IsTag tag attributes → (Node.element tag attributes []).IsReadable :=
    fun htag => .element htag (List.forall_mem_nil _)
  have hleaf : ∀ {name value : String} {raw : List Char}, IsName name.toList → SaysText value [] (nodesOfRun [.raw raw]) →
      (leaf name raw).IsReadable := fun hname h => .element (isTag_bare hname) h.isReadable
  have hplain : ∀ {name value : String}, IsName name.toList → '&' ∉ value.toList → IsTrimmed value.toList →
      (leaf name value.toList).IsReadable := fun hname h htrimmed => hleaf hname (says_self h htrimmed)
  have hfirst : ∀ n ∈ first, n.IsReadable := by
    simp only [first, List.forall_mem_cons]
    refine ⟨hleaf (by decide) says_title, hempty ⟨by decide, _, writes_link⟩, hplain (by decide) (by decide) (by decide),
      .element (isTag_bare (by decide)) ?_, List.forall_mem_nil _⟩
    simp only [List.forall_mem_cons]
    exact ⟨hplain (by decide) (by decide) (by decide), hempty (isTag_spelled (by decide) (by decide) (by decide)),
      List.forall_mem_nil _⟩
  have hsecond : ∀ n ∈ second, n.IsReadable := by
    simp only [second, List.forall_mem_cons]
    exact ⟨.element (isTag_bare (by decide))
        (List.forall_mem_singleton.mpr (hempty (isTag_spelled (by decide) (by decide) (by decide)))),
      hplain (by decide) (by decide) (by decide), hempty (isTag_spelled (by decide) (by decide) (by decide)),
      hempty (isTag_bare (by decide)), List.forall_mem_nil _⟩
  refine .element (isTag_spelled (by decide) (by decide) (by decide)) ?_
  simp only [before, List.cons_append, List.nil_append, List.append_nil, List.forall_mem_cons]
  refine ⟨hempty (isTag_spelled (by decide) (by decide) (by decide)), hempty (isTag_bare (by decide)),
    .element (isTag_bare (by decide)) ?_, .element (isTag_bare (by decide)) hfirst, .element (isTag_bare (by decide)) hsecond,
    List.forall_mem_nil _⟩
  simp only [List.forall_mem_cons]
  exact ⟨hleaf (by decide) says_author, hplain (by decide) (by decide) (by decide), List.forall_mem_nil _⟩

end Prefixed

/-- The videos of the document are recovered. -/
theorem uploads_recovered_prefixed : ∃ feed, Uploads.read (String.ofList Prefixed.chars) = .ok feed ∧ ∀ now, feed.items "" now = [
    ⟨"<T", "https://v", "A & B", "http://u/videos", "i", ⟨1709287200, 500000000⟩⟩,
    ⟨"", "https://w", "A & B", "http://u/videos", "", now⟩] := by
  have hdocument : Document Prefixed.root (String.ofList Prefixed.chars).toList := String.toList_ofList ▸ Prefixed.document
  obtain ⟨feed, hread, hitems⟩ := uploads_recovered hdocument Prefixed.isReadable Prefixed.says_uploads
  refine ⟨feed, hread, fun now => (hitems now).trans ?_⟩
  have hfirst : Link.secure "http://v" = "https://v" := by decide +kernel
  have hsecond : Link.secure "https://w" = "https://w" := by decide +kernel
  have huri : "http://u" ++ "/videos" = "http://u/videos" := by decide
  simp only [List.map_cons, List.map_nil, Upload.item, hfirst, hsecond, huri, Option.getD_some, Option.getD_none]

/-! ## Entries of different names -/

/-- A field that was filled once was empty. -/
theorem eq_none_of_once {α : Type} {field filled : Option α} {read : Except MarkupFault α} (h : once field read = .ok filled) :
    field = none ∧ filled ≠ none := by
  cases field with
  | some => exact nomatch h
  | none =>
    cases read with
    | error => exact nomatch h
    | ok a =>
      cases h
      exact ⟨rfl, Option.some_ne_none a⟩

/-- What a child does that does not go on with the entries: an entry begins them, if there are none, and all else ends them. -/
theorem takeFeedPart_ok {draft next : Uploads.Draft} {full attributes : List Char} {children : List Node}
    (h : takeFeedPart draft full attributes children = .ok next) :
    localName full = "entry".toList ∧ draft.entries = none ∧ next.entries ≠ none ∧ next.listed = some full ∨
      localName full ≠ "entry".toList ∧ next.entries = draft.entries ∧ next.listed = none := by
  have hkeys : "author".toList ≠ "entry".toList := by decide
  unfold takeFeedPart at h
  simp only at h
  split at h
  · rename_i hauthor
    obtain ⟨author, -, h⟩ := exists_of_bind_eq_ok h
    cases h
    exact .inr ⟨fun hentry => hkeys (hauthor.symm.trans hentry), rfl, rfl⟩
  · split at h
    · rename_i hentry
      obtain ⟨entries, honce, h⟩ := exists_of_bind_eq_ok h
      cases h
      obtain ⟨hnone, hsome⟩ := eq_none_of_once honce
      exact .inl ⟨hentry, hnone, hsome, rfl⟩
    · rename_i hentry
      obtain ⟨-, -, h⟩ := exists_of_bind_eq_ok h
      cases h
      exact .inr ⟨hentry, rfl, rfl⟩

/-- Once there are entries, only those of the name that is listed can follow. -/
theorem listed_of_takeFeed {nodes : List Node} : ∀ {draft t : Uploads.Draft}, takeFeed draft nodes = .ok t → draft.entries ≠ none →
    ∀ {full attributes : List Char} {children : List Node}, .element full attributes children ∈ nodes →
      localName full = "entry".toList → draft.listed = some full := by
  induction nodes with
  | nil => exact fun _ _ _ _ _ hmem => nomatch hmem
  | cons n nodes ih =>
    intro draft t h hsome full attributes children hmem hentry
    cases n with
    | broken => exact nomatch h
    | text chunks =>
      rw [takeFeed] at h
      split at h
      · exact nomatch h
      · obtain ⟨-, -, h⟩ := exists_of_bind_eq_ok h
        exact ih h hsome ((List.mem_cons.mp hmem).resolve_left (fun heq => nomatch heq)) hentry
    | element name attributes' children' =>
      rw [takeFeed] at h
      split at h
      · rename_i hlisted
        obtain ⟨e, -, h⟩ := exists_of_bind_eq_ok h
        obtain heq | hmem := List.mem_cons.mp hmem
        · cases heq
          exact hlisted
        · exact ih h (Option.some_ne_none _) hmem hentry
      · obtain ⟨next, hnext, h⟩ := exists_of_bind_eq_ok h
        obtain ⟨-, hnone, -⟩ | ⟨hother, hentries, hlisted⟩ := takeFeedPart_ok hnext
        · exact absurd hnone hsome
        · obtain heq | hmem := List.mem_cons.mp hmem
          · cases heq
            exact absurd hentry hother
          · exact nomatch hlisted.symm.trans (ih h (hentries ▸ hsome) hmem hentry)

/-- All entries of a feed that was read have one name in full. -/
theorem fullName_unique_of_takeFeed {nodes : List Node} : ∀ {draft t : Uploads.Draft}, takeFeed draft nodes = .ok t →
    draft.entries = none → draft.listed = none → ∃ full, ∀ {name attributes : List Char} {children : List Node},
      .element name attributes children ∈ nodes → localName name = "entry".toList → name = full := by
  induction nodes with
  | nil => exact fun _ _ _ => ⟨[], fun hmem => nomatch hmem⟩
  | cons n nodes ih =>
    intro draft t h hnone hlisted
    cases n with
    | broken => exact nomatch h
    | text chunks =>
      rw [takeFeed, hlisted] at h
      obtain ⟨-, -, h⟩ := exists_of_bind_eq_ok h
      obtain ⟨full, hfull⟩ := ih h hnone hlisted
      exact ⟨full, fun hmem => hfull ((List.mem_cons.mp hmem).resolve_left fun heq => nomatch heq)⟩
    | element name attributes children =>
      rw [takeFeed, if_neg (by rw [hlisted]; exact Option.some_ne_none name ∘ Eq.symm)] at h
      obtain ⟨next, hnext, h⟩ := exists_of_bind_eq_ok h
      obtain ⟨-, -, hsome, hfull⟩ | ⟨hother, hentries, hlisted⟩ := takeFeedPart_ok hnext
      · refine ⟨name, fun hmem hentry => ?_⟩
        obtain heq | hmem := List.mem_cons.mp hmem
        · cases heq
          rfl
        · exact Option.some.inj ((listed_of_takeFeed h hsome hmem hentry).symm.trans hfull)
      · obtain ⟨full, hfull⟩ := ih h (hentries.trans hnone) hlisted
        refine ⟨full, fun hmem hentry => ?_⟩
        obtain heq | hmem := List.mem_cons.mp hmem
        · cases heq
          exact absurd hentry hother
        · exact hfull hmem hentry

/-- A document with two entries whose names in full differ, in their prefixes, is not read. -/
theorem not_read_of_fullName_ne {text : String} {root attributes : List Char} {children : List Node}
    (document : Document (.element root attributes children) text.toList) {full full' as as' : List Char} {inner inner' : List Node}
    (hmem : .element full as inner ∈ children) (hmem' : .element full' as' inner' ∈ children) (hentry : localName full = "entry".toList)
    (hentry' : localName full' = "entry".toList) (hne : full ≠ full') (feed : Uploads) : Uploads.read text ≠ .ok feed := by
  intro h
  rw [Uploads.read, ofText_of_document document, Uploads.ofNodes] at h
  obtain ⟨-, -, h⟩ := exists_of_bind_eq_ok h
  obtain ⟨draft, hdraft, -⟩ := exists_of_bind_eq_ok h
  obtain ⟨name, hname⟩ := fullName_unique_of_takeFeed hdraft rfl rfl
  exact hne ((hname hmem hentry).trans (hname hmem' hentry').symm)

/-- The characters of a feed with two entries, given the prefixes of their names, which stand for one namespace, and what is written for
their time. -/
def listing (first second time : String) : List Char :=
  "<feed xmlns=\x22http://www.w3.org/2005/Atom\x22 ".toList ++ "xmlns:a=\x22http://www.w3.org/2005/Atom\x22 ".toList ++
    "xmlns:b=\x22http://www.w3.org/2005/Atom\x22 ".toList ++ "xmlns:media=\x22http://search.yahoo.com/mrss/\x22>".toList ++
    "<author><name>A</name><uri>https://c</uri></author>".toList ++
    ('<' :: first.toList) ++ ":entry><title>1</title>".toList ++ "<link href=\x22https://v\x22/>".toList ++
    "<published>".toList ++ time.toList ++ "</published>".toList ++ "<media:group><media:thumbnail url=\x22i\x22/>".toList ++
    "</media:group></".toList ++ first.toList ++ ":entry>".toList ++
    ('<' :: second.toList) ++ ":entry><title>2</title>".toList ++ "<link href=\x22https://w\x22/>".toList ++
    "<published>".toList ++ time.toList ++ "</published>".toList ++ "<media:group><media:thumbnail url=\x22j\x22/>".toList ++
    "</media:group></".toList ++ second.toList ++ ":entry></feed>".toList

/-- Entries with different prefixes, though of one local name, are not recovered, and a time that is not in RFC 3339 may be taken for one:
here the minus sign is not a hyphen. -/
theorem uploads_not_recovered :
    (Uploads.read (String.ofList (listing "a" "b" "2024-03-01T12:00:00Z"))).toOption = none ∧
      (Uploads.read (String.ofList (listing "a" "a" "2024-03-01T12:00:00\u221202:00"))).toOption.map (fun feed =>
        (feed.items "" ⟨0, 0⟩).map (·.published)) = some [⟨1709301600, 0⟩, ⟨1709301600, 0⟩] := by
  simp only [Uploads.read, String.toList_ofList]
  constructor <;> decide +kernel

end ChannelWatch.YouTube
