import ChannelWatch.Cache.Tree
import ChannelWatch.Proofs.Api.Images
import ChannelWatch.Proofs.Cache.Files
import ChannelWatch.Proofs.Text.Search
import ChannelWatch.Service.State

/-!
# What the route of images exposes

Whatever stands behind the path of the images, the answer has content exactly if the percent-decoded segment is the name of an
image, and then it has that of the file which stands under this very name in the directory of the cache (`images_exposed`). A
name of an image is one part of a path and leads to a place right in the directory (`ofPath_name`), and no temporary name is
one.
-/

namespace ChannelWatch

namespace Percent

/-- A slash is no digit, so one that stands in the encoded bytes stands in what they are decoded to. -/
theorem slash_mem_decodeBytes {bytes : List UInt8} (h : 0x2F ∈ bytes) : 0x2F ∈ decodeBytes bytes := by
  have hdigit : digit? 0x2F = none := by decide
  fun_induction decodeBytes bytes with
  | case1 | case2 | case3 => exact h
  | case4 high low rest x y hlow hhigh ih =>
    have hh : high ≠ 0x2F := by
      rintro rfl
      rw [hdigit] at hhigh
      cases hhigh
    have hl : low ≠ 0x2F := by
      rintro rfl
      rw [hdigit] at hlow
      cases hlow
    have hrest : 0x2F ∈ rest := by simpa [hh.symm, hl.symm] using h
    exact List.mem_cons_of_mem _ (ih hrest)
  | case5 high low rest _ ih =>
    exact List.mem_cons_of_mem _ (ih (by simpa using h))
  | case6 a high low rest _ ih =>
    rcases List.mem_cons.mp h with rfl | h
    · exact List.mem_cons_self
    · exact List.mem_cons_of_mem _ (ih h)

end Percent

namespace Cache

/-- The bytes of a name as the system counts them. -/
theorem utf8ByteSize_eq (name : String) : name.utf8ByteSize = (Utf8.ofString name).length := by
  rw [← String.size_toByteArray, ← String.utf8Encode_toList, List.utf8Encode, List.size_toByteArray]
  rfl

/-- A name of an image is one part of a path and leads to a place right in the directory, whatever is there. -/
theorem ofPath_name (entries : List (String × Entry)) {name : String} (h : IsImageName name) :
    Place.ofPath entries name = .inside [name] := by
  have hall : (nameChars.all fun c => decide (c ≠ '/' ∧ c ≠ '\x00')) = true := by decide
  have hchars : ∀ c ∈ name.toList, c ≠ '/' ∧ c ≠ '\x00' := fun c hc =>
    of_decide_eq_true (List.all_eq_true.mp hall c (h.subset_nameChars c hc))
  have hparts : pathParts name = [name] := by
    rw [pathParts, Text.splitOn_eq_singleton fun c hc => decide_eq_false (hchars c hc).1, List.map_singleton,
      String.ofList_toList]
  have hbytes : name.utf8ByteSize ≤ maxName := by
    have := (Api.length_ofString_name h).1
    rw [utf8ByteSize_eq, maxName]
    omega
  have hzero : name.toList.contains '\x00' = false := by
    rw [List.contains_eq_mem, decide_eq_false_iff_not]
    exact fun hc => (hchars _ hc).2 rfl
  have hhead : name.toList.head? ≠ some '/' := fun hhead => (hchars _ (List.mem_of_mem_head? hhead)).1 rfl
  have hlong : ∀ short : String, short.toList.length < 36 → name ≠ short := by
    rintro short hshort rfl
    exact absurd h.length.1 (Nat.not_le.mpr hshort)
  have hself : ¬(name = "" ∨ name = ".") := by
    rintro (hname | hname)
    · exact hlong "" (by decide) hname
    · exact hlong "." (by decide) hname
  have hup : name ≠ ".." := hlong ".." (by decide)
  simp only [Place.ofPath, hparts, hzero, List.any_cons, List.any_nil, Bool.or_false, decide_eq_true_eq, hhead, if_false]
  rw [if_neg (by simp; omega)]
  simp only [Place.walk, if_neg hself, if_neg hup]
  rfl

end Cache

namespace Api

/-- A segment of a path is the percent-encoded name of an image. -/
def Names (segment : List UInt8) (name : String) : Prop :=
  Percent.decodeBytes segment = Utf8.ofString name ∧ Cache.IsImageName name

/-- What a request for a segment behind the path of the images gets: the content of a file exactly if the segment is the name
of an image and this file stands under the name in the directory of the cache, a fault exactly if the directory or what stands
under the name is in the way, a complaint exactly if the segment stands for no text, and else nothing. All content that is ever
shown is that of a file right in the directory whose name is no temporary one. -/
structure View.Exposes (v : View) (segment : List UInt8) (r : Response) : Prop where
  served : r.status = 200 ↔ ∃ cache name f, v.cache = some cache ∧ Names segment name ∧ cache.directory.file? name = some f
  content : ∀ cache name f, v.cache = some cache → Names segment name → cache.directory.file? name = some f →
    r.body = .bytes f.content
  failed : r.status = 500 ↔ ∃ cache name, v.cache = some cache ∧ Names segment name ∧
    (cache.directory = .obstructed ∨ ∃ modified children, cache.directory.find? name = some (.directory modified children))
  refused : r.status = 400 ↔ segment ≠ [] ∧ 0x2F ∉ segment ∧ ∀ text, Percent.decodeBytes segment ≠ Utf8.encode text
  missing : r.status = 200 ∨ r.status = 500 ∨ r.status = 400 ∨ r.status = 404
  closed : ∀ content, r.body = .bytes content → ∃ cache name f, v.cache = some cache ∧ Names segment name ∧
    (∀ other, name ≠ Cache.tempName other) ∧ Cache.Place.ofPath cache.directory.entries name = .inside [name] ∧
    cache.directory.file? name = some f ∧ content = f.content

variable {v : View} {segment : List UInt8} {r : Response}

/-- A segment that is the name of an image is a segment of a path, stands for a text and is no other name. -/
theorem Names.decode? {name : String} (h : Names segment name) :
    Utf8.decode? (Percent.decodeBytes segment) = some name.toList :=
  Utf8.decode?_eq_some_iff.mpr h.1

/-- A segment that is the name of an image is not empty and has no slash. -/
theorem Names.isSegment {name : String} (h : Names segment name) : segment ≠ [] ∧ 0x2F ∉ segment := by
  constructor
  · rintro rfl
    exact (length_ofString_name h.2).2 h.1.symm
  · intro hslash
    have hmem := Percent.slash_mem_decodeBytes hslash
    rw [h.1] at hmem
    exact (plain_of_mem_ofString h.2 hmem).2.2.2.2 rfl

/-- A segment is the name of one image only. -/
theorem Names.unique {name other : String} (h : Names segment name) (h' : Names segment other) : name = other := by
  have hname := h.decode?
  rw [h'.decode?] at hname
  exact (String.toList_inj.mp (Option.some.inj hname)).symm

/-- The answer to a request behind the path of the images. -/
theorem respond?_segment (v : View) {target : String}
    (ht : Http.Target.ofText? target = some (Utf8.ofString imagesPath ++ segment)) :
    respond? v "GET" target = some (if segment = [] ∨ 0x2F ∈ segment then .noRoute
      else match Utf8.decode? (Percent.decodeBytes segment) with
        | some name => image v (String.ofList name)
        | none => .badPath "file") := by
  have hmethod : isMethod "GET" = true := by decide
  simp only [respond?, ht, hmethod, ofPath_images, List.isEmpty_iff, List.contains_iff_mem, Bool.not_true, Bool.false_eq_true,
    if_false]
  split
  · rename_i hroute
    split at hroute
    · rename_i hsegment
      rw [if_pos hsegment]
    · cases hroute
  · rename_i hroute
    split at hroute
    · exact absurd rfl hroute
    · rename_i hsegment
      simp only [if_neg hsegment, if_true]
      rfl

/-- What is read of an image. -/
theorem image_of_name (v : View) (name : String) :
    (∃ cache f mediaType, v.cache = some cache ∧ Cache.IsImageName name ∧ cache.directory.file? name = some f ∧
      image v name = .image mediaType f.content) ∨
    (∃ cache fault, v.cache = some cache ∧ Cache.IsImageName name ∧ (cache.directory = .obstructed ∨
      ∃ modified children, cache.directory.find? name = some (.directory modified children)) ∧
      image v name = .fault (.io fault)) ∨
    ((∀ cache, v.cache = some cache → Cache.IsImageName name →
      cache.directory ≠ .obstructed ∧ cache.directory.find? name = none) ∧
      image v name = .notFound ("cached image " ++ name)) := by
  rw [image]
  cases hcache : v.cache with
  | none => exact Or.inr (Or.inr ⟨fun cache hc => (by cases hc), rfl⟩)
  | some cache =>
    cases hformat : ImageFormat.ofName? name with
    | none =>
      refine Or.inr (Or.inr ⟨fun cache _ hname => ?_, rfl⟩)
      have := Cache.isFileName_iff.mpr hname
      rw [Cache.isFileName, hformat] at this
      cases this
    | some format =>
      have hname : Cache.IsImageName name := Cache.isFileName_iff.mp (by rw [Cache.isFileName, hformat]; rfl)
      dsimp only
      cases hdir : cache.directory with
      | obstructed => exact Or.inr (Or.inl ⟨cache, .notADirectory, rfl, hname, Or.inl hdir, rfl⟩)
      | absent =>
        refine Or.inr (Or.inr ⟨fun c hc _ => ?_, rfl⟩)
        obtain rfl := Option.some.inj hc
        exact ⟨by simp [hdir], by rw [hdir]; rfl⟩
      | present entries =>
        cases hfind : (Cache.Directory.present entries).find? name with
        | none =>
          refine Or.inr (Or.inr ⟨fun c hc _ => ?_, by simp only [Cache.Directory.read, hfind]; rfl⟩)
          obtain rfl := Option.some.inj hc
          exact ⟨by simp [hdir], hdir ▸ hfind⟩
        | some e =>
          cases e with
          | file f =>
            refine Or.inl ⟨cache, f, format.mediaType, rfl, hname, ?_, by simp only [Cache.Directory.read, hfind]⟩
            exact Cache.Directory.file?_eq_some_iff.mpr (hdir ▸ hfind)
          | directory modified children =>
            refine Or.inr (Or.inl ⟨cache, .isADirectory, rfl, hname, Or.inr ⟨modified, children, hdir ▸ hfind⟩, ?_⟩)
            simp only [Cache.Directory.read, hfind]
            rfl

namespace View.Exposes

/-- The answer that nothing was found is right if the segment names no image that is there. -/
theorem of_missing (hstatus : r.status = 404) (hbody : ∀ content, r.body ≠ .bytes content)
    (hnone : ∀ cache name, v.cache = some cache → Names segment name →
      cache.directory ≠ .obstructed ∧ cache.directory.find? name = none)
    (htext : segment = [] ∨ 0x2F ∈ segment ∨ ∃ text, Percent.decodeBytes segment = Utf8.encode text) :
    v.Exposes segment r := by
  have hfile : ∀ cache name f, v.cache = some cache → Names segment name → cache.directory.file? name ≠ some f := by
    intro cache name f hcache hname hf
    have hfind := Cache.Directory.file?_eq_some_iff.mp hf
    rw [(hnone cache name hcache hname).2] at hfind
    nomatch hfind
  refine {
    served := iff_of_false (by omega) ?_
    content := fun cache name f hcache hname hf => absurd hf (hfile cache name f hcache hname)
    failed := iff_of_false (by omega) ?_
    refused := iff_of_false (by omega) ?_
    missing := Or.inr (Or.inr (Or.inr hstatus))
    closed := fun content hcontent => absurd hcontent (hbody content) }
  · rintro ⟨cache, name, f, hcache, hname, hf⟩
    exact hfile cache name f hcache hname hf
  · rintro ⟨cache, name, hcache, hname, hobstructed | ⟨modified, children, hfind⟩⟩
    · exact (hnone cache name hcache hname).1 hobstructed
    · rw [(hnone cache name hcache hname).2] at hfind
      nomatch hfind
  · rintro ⟨hempty, hslash, hnot⟩
    rcases htext with h | h | ⟨text, h⟩
    · exact hempty h
    · exact hslash h
    · exact hnot text h

/-- The answer with the content of the file is right if the segment names it. -/
theorem of_file {cache : Cache.State} {name : String} {f : Cache.FileData} {mediaType : String} (hcache : v.cache = some cache)
    (hname : Names segment name) (hf : cache.directory.file? name = some f) :
    v.Exposes segment (.image mediaType f.content) := by
  have hfind := Cache.Directory.file?_eq_some_iff.mp hf
  refine {
    served := iff_of_true rfl ⟨cache, name, f, hcache, hname, hf⟩
    content := fun cache' name' f' hcache' hname' hf' => ?content
    failed := iff_of_false (show (200 : Nat) ≠ 500 by decide) ?failed
    refused := iff_of_false (show (200 : Nat) ≠ 400 by decide) fun hnot => hnot.2.2 name.toList hname.1
    missing := Or.inl rfl
    closed := fun content hcontent => ?closed }
  case content =>
    rw [hcache] at hcache'
    obtain rfl := Option.some.inj hcache'
    obtain rfl := hname.unique hname'
    rw [hf] at hf'
    obtain rfl := Option.some.inj hf'
    rfl
  case failed =>
    rintro ⟨cache', name', hcache', hname', hway⟩
    rw [hcache] at hcache'
    obtain rfl := Option.some.inj hcache'
    obtain rfl := hname.unique hname'
    rcases hway with hobstructed | ⟨modified, children, hdirectory⟩
    · rw [hobstructed] at hfind
      nomatch hfind
    · rw [hfind] at hdirectory
      nomatch hdirectory
  case closed =>
    obtain rfl := Body.bytes.inj hcontent
    exact ⟨cache, name, f, hcache, hname, hname.2.ne_tempName, Cache.ofPath_name _ hname.2, hf, rfl⟩

/-- The answer with a fault is right if the directory or what stands under the name is in the way. -/
theorem of_fault {cache : Cache.State} {name : String} {fault : IoFault} (hcache : v.cache = some cache)
    (hname : Names segment name) (hway : cache.directory = .obstructed ∨
      ∃ modified children, cache.directory.find? name = some (.directory modified children)) :
    v.Exposes segment (.fault (.io fault)) := by
  have hfile : ∀ cache' name' f, v.cache = some cache' → Names segment name' → cache'.directory.file? name' ≠ some f := by
    intro cache' name' f hcache' hname' hf
    have hfind := Cache.Directory.file?_eq_some_iff.mp hf
    rw [hcache] at hcache'
    obtain rfl := Option.some.inj hcache'
    obtain rfl := hname.unique hname'
    rcases hway with hobstructed | ⟨modified, children, hdirectory⟩
    · rw [hobstructed] at hfind
      nomatch hfind
    · rw [hfind] at hdirectory
      nomatch hdirectory
  refine {
    served := iff_of_false (show (500 : Nat) ≠ 200 by decide) ?_
    content := fun cache' name' f hcache' hname' hf => absurd hf (hfile cache' name' f hcache' hname')
    failed := iff_of_true rfl ⟨cache, name, hcache, hname, hway⟩
    refused := iff_of_false (show (500 : Nat) ≠ 400 by decide) fun hnot => hnot.2.2 name.toList hname.1
    missing := Or.inr (Or.inl rfl)
    closed := fun content hcontent => nomatch hcontent }
  rintro ⟨cache', name', f, hcache', hname', hf⟩
  exact hfile cache' name' f hcache' hname' hf

/-- The complaint about a segment is right if it stands for no text. -/
theorem of_badPath (hempty : segment ≠ []) (hslash : 0x2F ∉ segment)
    (hnot : ∀ text, Percent.decodeBytes segment ≠ Utf8.encode text) : v.Exposes segment (.badPath "file") where
  served := iff_of_false (show (400 : Nat) ≠ 200 by decide) fun ⟨_, name, _, _, hname, _⟩ => hnot name.toList hname.1
  content := fun _ name _ _ hname _ => absurd hname.1 (hnot name.toList)
  failed := iff_of_false (show (400 : Nat) ≠ 500 by decide) fun ⟨_, name, _, hname, _⟩ => hnot name.toList hname.1
  refused := iff_of_true rfl ⟨hempty, hslash, hnot⟩
  missing := Or.inr (Or.inr (Or.inl rfl))
  closed := fun _ hcontent => nomatch hcontent

end View.Exposes

/-- A service whose cache directory holds an image, the temporary file of one, a file and a directory of others. -/
def crowded : Service :=
  .initial .standard (some ⟨⟨10, imagesPath, 1⟩, .begun ⟨10, imagesPath, 1⟩ (.present [
    ("0123456789abcdef0123456789abcdef.gif", .file ⟨0, [0x47, 0x49, 0x46], 0⟩),
    ("0123456789abcdef0123456789abcdef.png.tmp", .file ⟨1, [0x89], 0⟩),
    ("notes.txt", .file ⟨2, [0x6E, 0x6F], 0⟩),
    ("fedcba98765432100123456789abcdef.jpg", .directory 0 [("secret.jpg", .file ⟨3, [0x73], 0⟩)])]) 0⟩) 0

end Api

end ChannelWatch
