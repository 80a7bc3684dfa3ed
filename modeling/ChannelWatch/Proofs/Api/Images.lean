import ChannelWatch.Api.Route
import ChannelWatch.Proofs.Cache.Names
import ChannelWatch.Proofs.Text.Utf8
import Mathlib.Data.List.Basic
import Mathlib.Data.List.TakeWhile

/-!
# The route of an image

A request for the file of an image by its name reaches that file: the name is made of few ASCII characters (`nameChars`), so it
stands in a path as it is, percent-decoding and UTF-8 leave it alone, and the route recognises it and its format.
-/

namespace ChannelWatch

/-! ## Characters of a file name -/

namespace Cache

/-- The characters that occur in the names of finished files. -/
def nameChars : List Char :=
  "0123456789abcdef.pngwifj".toList

theorem isLower_lowerDigit : ∀ n < 16, Hex.isLower (Hex.lowerDigit n) = true := by
  decide

/-- A digest is written with lowercase digits. -/
theorem isLower_of_mem_lower (bytes : List UInt8) : ∀ c ∈ Hex.lower bytes, Hex.isLower c = true := by
  intro c hc
  obtain ⟨b, -, hb⟩ := List.mem_flatMap.mp hc
  have hlt := b.toNat_lt
  simp only [Hex.lowerByte, List.mem_cons, List.not_mem_nil, or_false] at hb
  rcases hb with rfl | rfl
  · exact isLower_lowerDigit _ (by omega)
  · exact isLower_lowerDigit _ (by omega)

/-- The format of an image is read off the name of its file. -/
theorem ofName?_fileName (url : String) : ImageFormat.ofName? (fileName url) = some (ImageFormat.ofUrl url) := by
  have hlen := length_hexDigest (Utf8.ofString url)
  have hdigits : (Md5.hexDigest (Utf8.ofString url)).all Hex.isLower = true :=
    List.all_eq_true.mpr fun c hc => isLower_of_mem_lower _ c hc
  have hext : ∀ format : ImageFormat, ImageFormat.ofExtension? format.extension.toList = some format := by
    intro format
    cases format <;> decide
  simp only [ImageFormat.ofName?, fileName, String.toList_ofList]
  rw [List.take_append_of_le_length (Nat.le_of_eq hlen.symm), List.take_of_length_le (Nat.le_of_eq hlen),
    if_pos ⟨hlen, hdigits⟩, ← hlen, List.drop_left]
  exact hext _

/-- The name of a finished file is recognised. -/
theorem isImageName_fileName (url : String) : IsImageName (fileName url) :=
  isFileName_iff.mp (by rw [isFileName, ofName?_fileName]; rfl)

/-- The names that are recognised have no other characters. -/
theorem IsImageName.subset_nameChars {name : String} (h : IsImageName name) : ∀ c ∈ name.toList, c ∈ nameChars := by
  obtain ⟨digits, extension, hname, -, hdigits, hext⟩ := h
  have hdigit : ("0123456789abcdef".toList.all fun c => decide (c ∈ nameChars)) = true := by decide
  have hexts : (([".jpg", ".png", ".webp", ".gif"].map (·.toList)).all fun e => e.all fun c => decide (c ∈ nameChars)) = true := by
    decide
  intro c hc
  rw [hname] at hc
  rcases List.mem_append.mp hc with hc | hc
  · exact of_decide_eq_true (List.all_eq_true.mp hdigit c (hdigits c hc))
  · exact of_decide_eq_true (List.all_eq_true.mp (List.all_eq_true.mp hexts extension hext) c hc)

theorem IsImageName.length {name : String} (h : IsImageName name) : 36 ≤ name.toList.length ∧ name.toList.length ≤ 37 := by
  obtain ⟨digits, extension, hname, hlen, -, hext⟩ := h
  have hexts : (([".jpg", ".png", ".webp", ".gif"].map (·.toList)).all fun e => decide (4 ≤ e.length ∧ e.length ≤ 5)) = true := by
    decide
  have hextension := of_decide_eq_true (List.all_eq_true.mp hexts extension hext)
  rw [hname, List.length_append]
  omega

end Cache

/-! ## Bytes that stand for themselves -/

namespace Percent

/-- Bytes without a percent sign stand for themselves. -/
theorem decodeBytes_of_plain {bytes : List UInt8} (h : ∀ b ∈ bytes, b ≠ 0x25) : decodeBytes bytes = bytes := by
  fun_induction decodeBytes bytes with
  | case1 | case2 | case3 => rfl
  | case4 => exact absurd rfl (h _ List.mem_cons_self)
  | case5 => exact absurd rfl (h _ List.mem_cons_self)
  | case6 a high low rest _ ih => rw [ih fun b hb => h b (List.mem_cons_of_mem a hb)]

end Percent

namespace Http.Target

/-- The path of a target that is nothing but a path is the target itself. -/
theorem parse?_of_plain {rest : List UInt8} (hlen : rest.length < maxLength)
    (h : ∀ b ∈ 0x2F :: rest, inPath b = true ∧ b ≠ 0x3F ∧ b ≠ 0x23) : parse? (0x2F :: rest) = some (0x2F :: rest) := by
  have htake : ((0x2F :: rest).takeWhile fun b => b ≠ 0x3F && b ≠ 0x23) = 0x2F :: rest := by
    rw [List.takeWhile_eq_self_iff]
    intro b hb
    simp [(h b hb).2]
  have hall : (0x2F :: rest).all inPath = true := List.all_eq_true.mpr fun b hb => (h b hb).1
  have hnot : ¬maxLength < (0x2F :: rest).length := by
    rw [List.length_cons]
    omega
  simp only [parse?, hnot, if_false, path?, htake, List.drop_length]
  simp [hall]

end Http.Target

/-! ## The route -/

namespace Api

theorem after?_append (start rest : List UInt8) : after? start (start ++ rest) = some rest := by
  induction start with
  | nil => rfl
  | cons b start ih => simp [after?, ih]

/-- The byte that an ASCII character is. -/
def byteOf (c : Char) : UInt8 :=
  UInt8.ofNat c.toNat

/-- A character of names is one byte, and this byte stands for itself wherever it occurs in a path. -/
theorem byteOf_of_mem_nameChars : ∀ c ∈ Cache.nameChars, String.utf8EncodeChar c = [byteOf c] ∧
    Http.Target.inPath (byteOf c) = true ∧ byteOf c ≠ 0x3F ∧ byteOf c ≠ 0x23 ∧ byteOf c ≠ 0x25 ∧ byteOf c ≠ 0x2F := by
  have hall : (Cache.nameChars.all fun c => decide (String.utf8EncodeChar c = [byteOf c] ∧
      Http.Target.inPath (byteOf c) = true ∧ byteOf c ≠ 0x3F ∧ byteOf c ≠ 0x23 ∧ byteOf c ≠ 0x25 ∧ byteOf c ≠ 0x2F)) = true := by
    decide
  exact fun c hc => of_decide_eq_true (List.all_eq_true.mp hall c hc)

section

variable {name : String} (h : Cache.IsImageName name)
include h

/-- The bytes of an image's name are those of its characters. -/
theorem ofString_name : Utf8.ofString name = name.toList.map byteOf := by
  rw [Utf8.ofString, Utf8.encode, List.map_eq_flatMap]
  exact List.flatMap_congr fun c hc => (byteOf_of_mem_nameChars c (h.subset_nameChars c hc)).1

/-- Each byte of an image's name stands for itself. -/
theorem plain_of_mem_ofString {b : UInt8} (hb : b ∈ Utf8.ofString name) :
    Http.Target.inPath b = true ∧ b ≠ 0x3F ∧ b ≠ 0x23 ∧ b ≠ 0x25 ∧ b ≠ 0x2F := by
  rw [ofString_name h] at hb
  obtain ⟨c, hc, rfl⟩ := List.mem_map.mp hb
  exact (byteOf_of_mem_nameChars c (h.subset_nameChars c hc)).2

/-- An image's name is what its bytes stand for. -/
theorem decodeBytes_name : Percent.decodeBytes (Utf8.ofString name) = Utf8.ofString name :=
  Percent.decodeBytes_of_plain fun _ hb => (plain_of_mem_ofString h hb).2.2.2.1

/-- An image's name has at most thirty-seven bytes, and some. -/
theorem length_ofString_name : (Utf8.ofString name).length ≤ 37 ∧ Utf8.ofString name ≠ [] := by
  have hlen := h.length
  rw [ofString_name h]
  refine ⟨by rw [List.length_map]; exact hlen.2, fun hnil => ?_⟩
  rw [List.map_eq_nil_iff.mp hnil, List.length_nil] at hlen
  omega

end

/-- The path of the images leads to what follows it, if that is one segment and not empty. -/
theorem ofPath_images (segment : List UInt8) : Route.ofPath (Utf8.ofString imagesPath ++ segment) =
    if segment.isEmpty ∨ segment.contains 0x2F then .nowhere else .image segment := by
  have hhealth : Utf8.ofString imagesPath ++ segment ≠ Utf8.ofString "/health" := by
    intro h
    have := congrArg (·[1]?) h
    nomatch this
  have hvideos : Utf8.ofString imagesPath ++ segment ≠ Utf8.ofString "/api/videos" := by
    intro h
    have := congrArg (·[1]?) h
    nomatch this
  simp only [Route.ofPath, if_neg hhealth, if_neg hvideos, after?_append]

/-- The path of an image's name leads to the image. -/
theorem ofPath_image {name : String} (h : Cache.IsImageName name) :
    Route.ofPath (Utf8.ofString imagesPath ++ Utf8.ofString name) = .image (Utf8.ofString name) := by
  rw [ofPath_images, if_neg]
  rintro (hempty | hslash)
  · exact (length_ofString_name h).2 (List.isEmpty_iff.mp hempty)
  · exact (plain_of_mem_ofString h (List.contains_iff_mem.mp hslash)).2.2.2.2 rfl

/-- A request for the image of a name reaches it. -/
theorem respond?_name (v : View) {name : String} (h : Cache.IsImageName name) :
    respond? v "GET" (imagesPath ++ name) = some (image v name) := by
  have hbytes : Utf8.ofString (imagesPath ++ name) = Utf8.ofString imagesPath ++ Utf8.ofString name := by
    simp only [Utf8.ofString, Utf8.encode, String.toList_append, List.flatMap_append]
  have hpath : ∀ b ∈ Utf8.ofString imagesPath, Http.Target.inPath b = true ∧ b ≠ 0x3F ∧ b ≠ 0x23 := by
    have hall : ((Utf8.ofString imagesPath).all fun b => decide (Http.Target.inPath b = true ∧ b ≠ 0x3F ∧ b ≠ 0x23)) = true := by
      decide
    exact fun b hb => of_decide_eq_true (List.all_eq_true.mp hall b hb)
  obtain ⟨start, hstart, hlength⟩ : ∃ start, Utf8.ofString imagesPath = 0x2F :: start ∧ start.length = 13 := ⟨_, rfl, rfl⟩
  have htarget : Http.Target.ofText? (imagesPath ++ name) = some (Utf8.ofString imagesPath ++ Utf8.ofString name) := by
    rw [Http.Target.ofText?, hbytes]
    rw [hstart] at hpath ⊢
    rw [List.cons_append]
    apply Http.Target.parse?_of_plain
    · have hlen := (length_ofString_name h).1
      rw [List.length_append, hlength, Http.Target.maxLength]
      omega
    · intro b hb
      rw [← List.cons_append] at hb
      rcases List.mem_append.mp hb with hb | hb
      · exact hpath b hb
      · obtain ⟨hin, hquery, hfragment, -⟩ := plain_of_mem_ofString h hb
        exact ⟨hin, hquery, hfragment⟩
  have hmethod : isMethod "GET" = true := by decide
  have hname : Utf8.decode? (Percent.decodeBytes (Utf8.ofString name)) = some name.toList := by
    rw [decodeBytes_name h]
    exact Utf8.decode?_eq_some_iff.mpr rfl
  simp only [respond?, htarget, hmethod, ofPath_image h, Bool.not_true, Bool.false_eq_true, if_false, if_true, Route.answer,
    hname, String.ofList_toList]

/-- A request for the file of an image reaches it. -/
theorem respond?_image (v : View) (url : String) :
    respond? v "GET" (imagesPath ++ Cache.fileName url) = some (image v (Cache.fileName url)) :=
  respond?_name v (Cache.isImageName_fileName url)

/-- A request for the file of an image is answered with the file that stands under its name; where nothing stands there, with a
report that there is nothing. -/
theorem respond?_fileName {v : View} {state : Cache.State} (hc : v.cache = some state) (hd : state.directory ≠ .obstructed)
    (url : String) : respond? v "GET" (imagesPath ++ Cache.fileName url) =
      some (match state.directory.find? (Cache.fileName url) with
        | some (.file f) => .image (ImageFormat.ofUrl url).mediaType f.content
        | some (.directory _ _) => .fault (.io .isADirectory)
        | none => .notFound ("cached image " ++ Cache.fileName url)) := by
  rw [respond?_image]
  simp only [image, hc, Cache.ofName?_fileName]
  cases hdirectory : state.directory with
  | obstructed => exact absurd hdirectory hd
  | absent => rfl
  | present entries =>
    simp only [Cache.Directory.read]
    rcases (Cache.Directory.present entries).find? (Cache.fileName url) with _ | (f | ⟨modified, children⟩)
    · rfl
    · rfl
    · rfl

end Api

end ChannelWatch
