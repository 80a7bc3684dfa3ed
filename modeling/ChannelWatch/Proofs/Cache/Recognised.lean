import ChannelWatch.Proofs.Api.Images
import ChannelWatch.Proofs.Text.Divided
import ChannelWatch.Proofs.Text.Search
import ChannelWatch.Proofs.Url.Percent

/-!
# The names that are recognised

A name is recognised exactly if it is thirty-two digits and an extension. Characters and bytes come to the same here
(`isFileNameInBytes_eq`): a digit is one byte, and a name that cannot be divided behind its thirty-second byte is none of the cache's.
Every name that the cache gives is recognised, and which extension it has is said by the text of the URL (`GivesExtension`). No temporary
name is recognised, and no path (`names_recognised`).
-/

namespace ChannelWatch.Cache

/-! ## Digits among bytes -/

/-- A byte that is a lowercase hexadecimal digit. -/
def isDigitByte (b : UInt8) : Bool :=
  (0x30 ≤ b && b ≤ 0x39) || (0x61 ≤ b && b ≤ 0x66)

/-- A character that is not of ASCII has a byte that is no digit. -/
theorem exists_byte_of_not_ascii {c : Char} (h : 0x80 ≤ c.toNat) : ∃ b ∈ String.utf8EncodeChar c, ¬isDigitByte b = true := by
  have hlast : ¬isDigitByte (UInt8.ofNat (c.val.toNat % 64 + 128)) = true := by
    have hall : ∀ n < 64, ¬isDigitByte (UInt8.ofNat (n + 128)) = true := by decide
    exact hall _ (Nat.mod_lt _ (by decide))
  refine ⟨UInt8.ofNat (c.val.toNat % 64 + 128), ?_, hlast⟩
  have hval : ¬c.val.toNat ≤ 127 := Nat.not_le.mpr h
  simp only [String.utf8EncodeChar, if_neg hval]
  split_ifs <;> simp only [List.mem_cons, true_or, or_true]

/-- The bytes of a character are digits exactly if it is one. -/
theorem all_isDigitByte_encodeChar (c : Char) : (String.utf8EncodeChar c).all isDigitByte = Hex.isLower c := by
  have hascii : ∀ n < 0x80, isDigitByte (UInt8.ofNat n) = Hex.isLower (Char.ofNat n) := by decide +kernel
  rcases Nat.lt_or_ge c.toNat 0x80 with hlt | hge
  · have hone : String.utf8EncodeChar c ++ [] = [UInt8.ofNat c.toNat] := Utf8.encode_cons_of_ascii hlt []
    rw [List.append_nil] at hone
    rw [hone, List.all_cons, List.all_nil, Bool.and_true, hascii _ hlt, Char.ofNat_toNat]
  · have hbytes : (String.utf8EncodeChar c).all isDigitByte = false := List.all_eq_false.mpr (exists_byte_of_not_ascii hge)
    have hlower : Hex.isLower c = false := Bool.eq_false_iff.mpr fun h => Nat.not_lt.mpr hge (toNat_lt_of_isLower h)
    rw [hbytes, hlower]

/-- The bytes of a text are digits exactly if its characters are. -/
theorem all_isDigitByte_encode (text : List Char) : (Utf8.encode text).all isDigitByte = text.all Hex.isLower := by
  rw [Utf8.encode, List.all_flatMap]
  exact congrArg (List.all text) (funext all_isDigitByte_encodeChar)

/-- Digits are one byte each. -/
theorem length_encode_of_all_isLower {text : List Char} (h : text.all Hex.isLower = true) : (Utf8.encode text).length = text.length := by
  induction text with
  | nil => rfl
  | cons c cs ih =>
    obtain ⟨hc, hcs⟩ := Bool.and_eq_true_iff.mp (List.all_cons.symm.trans h)
    rw [Utf8.encode_cons_of_ascii (toNat_lt_of_isLower hc), List.length_cons, List.length_cons, ih hcs]

/-- The text is recognised by its bytes: it can be divided behind the thirty-second, the bytes before that are digits, and the rest is an
extension. -/
def isFileNameInBytes (name : String) : Bool :=
  match Utf8.splitAt? 32 name.toList with
  | some (digits, extension) => (Utf8.encode digits).all isDigitByte && (ImageFormat.ofExtension? extension).isSome
  | none => false

/-- Names are recognised by their bytes as by their characters. -/
theorem isFileNameInBytes_eq (name : String) : isFileNameInBytes name = isFileName name := by
  rw [Bool.eq_iff_iff, isFileName_iff]
  constructor
  · intro h
    unfold isFileNameInBytes at h
    split at h
    · rename_i digits extension hsplit
      obtain ⟨hname, hlength⟩ := Utf8.splitAt?_eq_some_iff.mp hsplit
      rw [Bool.and_eq_true, all_isDigitByte_encode] at h
      obtain ⟨hdigits, hextension⟩ := h
      rw [length_encode_of_all_isLower hdigits] at hlength
      exact ⟨digits, extension, hname, hlength, fun c hc => isLower_iff.mp (List.all_eq_true.mp hdigits c hc),
        isSome_ofExtension?_iff.mp hextension⟩
    · nomatch h
  · rintro ⟨digits, extension, hname, hlength, hmem, hextension⟩
    have hdigits : digits.all Hex.isLower = true := List.all_eq_true.mpr fun c hc => isLower_iff.mpr (hmem c hc)
    have hsplit : Utf8.splitAt? 32 name.toList = some (digits, extension) :=
      Utf8.splitAt?_eq_some_iff.mpr ⟨hname, (length_encode_of_all_isLower hdigits).trans hlength⟩
    simp only [isFileNameInBytes, hsplit, all_isDigitByte_encode, hdigits, isSome_ofExtension?_iff.mpr hextension, Bool.and_self]

/-- A name whose thirty-second byte is followed by the inside of a character is not recognised. -/
theorem isFileName_of_inside {name : String} {before after : List Char} {c : Char} (hname : name.toList = before ++ c :: after)
    (hbefore : (Utf8.encode before).length < 32) (hafter : 32 < (Utf8.encode (before ++ [c])).length) :
    Utf8.splitAt? 32 name.toList = none ∧ isFileName name = false := by
  have hsplit : Utf8.splitAt? 32 name.toList = none := by
    rw [hname]
    exact Utf8.splitAt?_eq_none_of_inside hbefore hafter
  rw [← isFileNameInBytes_eq, isFileNameInBytes, hsplit]
  exact ⟨rfl, rfl⟩

/-! ## The extension of a URL -/

/-- A URL gives an extension: the first of the three that occurs anywhere in it, or that of JPEG if none of them does. -/
inductive GivesExtension (url : String) : String → Prop
  | first {before after : List String} {extension : String} (order : [".png", ".webp", ".gif"] = before ++ extension :: after)
      (occurs : extension.toList <:+: url.toList) (earlier : ∀ e ∈ before, ¬e.toList <:+: url.toList) : GivesExtension url extension
  | otherwise (absent : ∀ e ∈ [".png", ".webp", ".gif"], ¬e.toList <:+: url.toList) : GivesExtension url ".jpg"

/-- The extension of a URL is looked for in this order. -/
theorem extension_ofUrl (url : String) : (ImageFormat.ofUrl url).extension =
    ([".png", ".webp", ".gif"].find? fun e => Text.contains e.toList url.toList).getD ".jpg" := by
  have hextensions : [".png", ".webp", ".gif"] = ImageFormat.known.map ImageFormat.extension := rfl
  rw [hextensions, List.find?_map, ImageFormat.ofUrl]
  exact (Option.getD_map _ _ _).symm

/-- The extension of a URL is the only one that it gives. -/
theorem givesExtension_iff {url extension : String} :
    GivesExtension url extension ↔ (ImageFormat.ofUrl url).extension = extension := by
  rw [extension_ofUrl]
  constructor
  · intro h
    cases h with
    | first order occurs earlier =>
      have hfind : [".png", ".webp", ".gif"].find? (fun e => Text.contains e.toList url.toList) = some extension := by
        refine List.find?_eq_some_iff_append.mpr ⟨Text.contains_iff.mpr occurs, _, _, order, fun e he => ?_⟩
        rw [Bool.not_eq_true', ← Bool.not_eq_true, Text.contains_iff]
        exact earlier e he
      rw [hfind, Option.getD_some]
    | otherwise absent =>
      rw [List.find?_eq_none.mpr fun e he hoccurs => absent e he (Text.contains_iff.mp hoccurs), Option.getD_none]
  · rintro rfl
    cases hfind : [".png", ".webp", ".gif"].find? fun e => Text.contains e.toList url.toList with
    | none => exact .otherwise fun e he hoccurs => List.find?_eq_none.mp hfind e he (Text.contains_iff.mpr hoccurs)
    | some e =>
      obtain ⟨hoccurs, before, after, horder, hearlier⟩ := List.find?_eq_some_iff_append.mp hfind
      refine .first horder (Text.contains_iff.mp hoccurs) fun e he hcontained => ?_
      have hnot := hearlier e he
      rw [Text.contains_iff.mpr hcontained] at hnot
      nomatch hnot

/-! ## The names of the cache -/

/-- What is behind the digits of a name that the cache gives is the extension of the URL. -/
theorem drop_fileName (url : String) : (fileName url).toList.drop 32 = (ImageFormat.ofUrl url).extension.toList := by
  rw [fileName, String.toList_ofList, ← length_hexDigest (Utf8.ofString url), List.drop_left]

/-- A name that is recognised has no character that divides the parts of a path. -/
theorem IsImageName.not_mem {name : String} (h : IsImageName name) : '/' ∉ name.toList ∧ '\\' ∉ name.toList := by
  have hnone : '/' ∉ nameChars ∧ '\\' ∉ nameChars := by decide
  exact ⟨fun hmem => hnone.1 (h.subset_nameChars _ hmem), fun hmem => hnone.2 (h.subset_nameChars _ hmem)⟩

/-- The names that are recognised are those of thirty-two digits and an extension, told by characters or by bytes, so that a name is none
of them where a character lies across the end of its thirty-second byte. Every name that the cache gives is recognised, and its extension
is the one that the URL gives. No name that ends like a temporary one and no path is recognised, and no temporary name is that of an
image. -/
theorem names_recognised :
    (∀ name, isFileName name = true ↔ IsImageName name) ∧
    (∀ name, isFileNameInBytes name = isFileName name) ∧
    (∀ (name : String) before c after, name.toList = before ++ c :: after → (Utf8.encode before).length < 32 →
      32 < (Utf8.encode (before ++ [c])).length → Utf8.splitAt? 32 name.toList = none ∧ isFileName name = false) ∧
    (∀ url, isFileName (fileName url) = true ∧
      ∀ extension : String, (fileName url).toList.drop 32 = extension.toList ↔ GivesExtension url extension) ∧
    (∀ name, isFileName (name ++ ".tmp") = false) ∧
    (∀ name, '/' ∈ name.toList ∨ '\\' ∈ name.toList → isFileName name = false) ∧
    ∀ name url, tempName name ≠ fileName url := by
  refine ⟨fun _ => isFileName_iff, isFileNameInBytes_eq, fun _ _ _ _ => isFileName_of_inside, ?_, isFileName_tempName, ?_, ?_⟩
  · intro url
    refine ⟨isFileName_iff.mpr (isImageName_fileName url), fun extension => ?_⟩
    rw [drop_fileName, givesExtension_iff, String.toList_inj]
  · intro name hpath
    rw [← Bool.not_eq_true, isFileName_iff]
    exact fun h => hpath.elim h.not_mem.1 h.not_mem.2
  · exact fun name url h => fileName_ne_tempName url name h.symm

/-- A name with a character of two bytes across the end of its thirty-second byte and a path of the right length are not recognised, and
the extension that stands first among the three is given where another one stands before it in the URL. -/
theorem names_recognised_awkward :
    Utf8.splitAt? 32 "0123456789abcdef0123456789abcdeé.jpg".toList = none ∧
    isFileName "0123456789abcdef0123456789abcdeé.jpg" = false ∧
    isFileName "0123456789abcdef/0123456789abcde.jpg" = false ∧
    isFileName (fileName "https://x/a.webp#.png") = true ∧
    (fileName "https://x/a.webp#.png").toList.drop 32 = ".png".toList := by
  obtain ⟨-, -, hinside, hgiven, -, hpath, -⟩ := names_recognised
  have hdivided := hinside "0123456789abcdef0123456789abcdeé.jpg" "0123456789abcdef0123456789abcde".toList 'é' ".jpg".toList
    (by decide) (by decide) (by decide)
  have hslash := hpath "0123456789abcdef/0123456789abcde.jpg" (.inl (by decide))
  have hoccurs : ".png".toList <:+: "https://x/a.webp#.png".toList := ⟨"https://x/a.webp#".toList, [], by decide⟩
  have hpng : GivesExtension "https://x/a.webp#.png" ".png" :=
    @GivesExtension.first _ [] [".webp", ".gif"] ".png" rfl hoccurs (List.forall_mem_nil _)
  obtain ⟨hrecognised, hextension⟩ := hgiven "https://x/a.webp#.png"
  exact ⟨hdivided.1, hdivided.2, hslash, hrecognised, (hextension ".png").mpr hpng⟩

end ChannelWatch.Cache
