import ChannelWatch.Cache.State
import ChannelWatch.Proofs.Link

/-!
# Finished and temporary names

Statements about `fileName` and `tempName`: the names that are recognised are those of thirty-two digits and an extension
(`IsImageName`), a temporary name is never one of them, two names have different temporary names, and URLs whose digests do
not collide have different file names (`NamesApart`).
-/

namespace ChannelWatch.Cache

/-- A name of thirty-two lowercase hexadecimal digits and one of the four extensions. -/
def IsImageName (name : String) : Prop :=
  ∃ digits extension : List Char, name.toList = digits ++ extension ∧ digits.length = 32 ∧
    (∀ c ∈ digits, c ∈ "0123456789abcdef".toList) ∧ extension ∈ [".jpg", ".png", ".webp", ".gif"].map (·.toList)

/-- A lowercase digit is of ASCII. -/
theorem toNat_lt_of_isLower {c : Char} (h : Hex.isLower c = true) : c.toNat < 0x80 := by
  simp only [Hex.isLower, Bool.or_eq_true, Bool.and_eq_true, decide_eq_true_eq] at h
  rcases h with ⟨-, hle⟩ | ⟨-, hle⟩
  · exact Nat.lt_of_le_of_lt (show c.toNat ≤ '9'.toNat from hle) (by decide)
  · exact Nat.lt_of_le_of_lt (show c.toNat ≤ 'f'.toNat from hle) (by decide)

/-- A lowercase digit is one of sixteen characters. -/
theorem isLower_iff {c : Char} : Hex.isLower c = true ↔ c ∈ "0123456789abcdef".toList := by
  have hascii : ∀ n < 0x80, Hex.isLower (Char.ofNat n) = true → Char.ofNat n ∈ "0123456789abcdef".toList := by
    decide +kernel
  have hall : ("0123456789abcdef".toList.all Hex.isLower) = true := by decide
  refine ⟨fun h => ?_, List.all_eq_true.mp hall c⟩
  have hlt := toNat_lt_of_isLower h
  rw [← Char.ofNat_toNat c] at h ⊢
  exact hascii c.toNat hlt h

/-- An extension that is recognised is one of the four. -/
theorem isSome_ofExtension?_iff {text : List Char} :
    (ImageFormat.ofExtension? text).isSome = true ↔ text ∈ [".jpg", ".png", ".webp", ".gif"].map (·.toList) := by
  have hextensions : (ImageFormat.jpeg :: ImageFormat.known).map (·.extension.toList) =
      [".jpg", ".png", ".webp", ".gif"].map (·.toList) := rfl
  rw [ImageFormat.ofExtension?, List.find?_isSome, ← hextensions, List.mem_map]
  simp only [decide_eq_true_eq]

/-- The names that are recognised are those of thirty-two digits and an extension. -/
theorem isFileName_iff {name : String} : isFileName name = true ↔ IsImageName name := by
  rw [isFileName, ImageFormat.ofName?]
  constructor
  · intro h
    split at h
    · rename_i hdigits
      exact ⟨name.toList.take 32, name.toList.drop 32, (List.take_append_drop 32 _).symm, hdigits.1,
        fun c hc => isLower_iff.mp (List.all_eq_true.mp hdigits.2 c hc), isSome_ofExtension?_iff.mp h⟩
    · nomatch h
  · rintro ⟨digits, extension, hname, hlen, hdigits, hext⟩
    have htake : name.toList.take 32 = digits := by rw [hname, ← hlen, List.take_left]
    have hdrop : name.toList.drop 32 = extension := by rw [hname, ← hlen, List.drop_left]
    have hall : digits.all Hex.isLower = true := List.all_eq_true.mpr fun c hc => isLower_iff.mpr (hdigits c hc)
    rw [htake, hdrop, if_pos ⟨hlen, hall⟩]
    exact isSome_ofExtension?_iff.mpr hext

/-- An extension never ends like a temporary name. -/
theorem extension_append_ne (f : ImageFormat) (a b : List Char) : a ++ f.extension.toList ≠ b ++ tempSuffix.toList := by
  intro h
  have hr := congrArg List.reverse h
  cases f <;> simp [ImageFormat.extension, tempSuffix] at hr

/-- The name of a finished file is no temporary name. -/
theorem fileName_ne_tempName (url name : String) : fileName url ≠ tempName name := by
  intro h
  have hl := congrArg String.toList h
  simp only [fileName, tempName, String.toList_ofList, String.toList_append] at hl
  exact extension_append_ne _ _ _ hl

/-- A temporary name is not taken for that of a finished file. -/
theorem isFileName_tempName (name : String) : isFileName (tempName name) = false := by
  simp only [isFileName, ImageFormat.ofName?, ImageFormat.ofExtension?]
  split
  · rw [Option.isSome_eq_false_iff, Option.isNone_iff_eq_none, List.find?_eq_none]
    intro format _ hf
    have hl := List.take_append_drop 32 (tempName name).toList
    rw [← of_decide_eq_true hf, tempName, String.toList_append] at hl
    exact extension_append_ne format _ _ hl
  · rfl

/-- A name that is recognised is no temporary name. -/
theorem IsImageName.ne_tempName {name : String} (h : IsImageName name) (other : String) : name ≠ tempName other := by
  rintro rfl
  have := isFileName_iff.mpr h
  rw [isFileName_tempName] at this
  nomatch this

/-- Different names have different temporary names. -/
theorem tempName_inj {a b : String} : tempName a = tempName b ↔ a = b := by
  constructor
  · intro h
    have hl := congrArg String.toList h
    simp only [tempName, String.toList_append] at hl
    exact String.toList_inj.mp (List.append_cancel_right hl)
  · rintro rfl
    rfl

/-- Some URLs have different file names: no digest of one is that of another. -/
def NamesApart (urls : List String) : Prop :=
  ∀ a ∈ urls, ∀ b ∈ urls, fileName a = fileName b → a = b

theorem NamesApart.mono {urls fewer : List String} (h : NamesApart urls) (hsub : fewer ⊆ urls) : NamesApart fewer :=
  fun a ha b hb hab => h a (hsub ha) b (hsub hb) hab

/-! ## Digests -/

theorem lowerDigit_inj : ∀ n < 16, ∀ m < 16, Hex.lowerDigit n = Hex.lowerDigit m → n = m := by
  decide

/-- Different bytes are written with different digits. -/
theorem lowerByte_inj {a b : UInt8} (h : Hex.lowerByte a = Hex.lowerByte b) : a = b := by
  obtain ⟨hhigh, htail⟩ := List.cons.inj h
  obtain ⟨hlow, -⟩ := List.cons.inj htail
  have ha := a.toNat_lt
  have hb := b.toNat_lt
  have h1 := lowerDigit_inj _ (by omega) _ (by omega) hhigh
  have h2 := lowerDigit_inj _ (by omega) _ (by omega) hlow
  exact UInt8.toNat_inj.mp (by omega)

/-- Different byte strings are written with different digits. -/
theorem lower_inj {as bs : List UInt8} (h : Hex.lower as = Hex.lower bs) : as = bs := by
  induction as generalizing bs with
  | nil =>
    cases bs with
    | nil => rfl
    | cons b bs => nomatch h
  | cons a as ih =>
    cases bs with
    | nil => nomatch h
    | cons b bs =>
      obtain ⟨hbyte, hrest⟩ := List.append_inj (h : Hex.lowerByte a ++ Hex.lower as = Hex.lowerByte b ++ Hex.lower bs) rfl
      rw [lowerByte_inj hbyte, ih hrest]

/-- A byte is written with two digits. -/
theorem length_lower (bytes : List UInt8) : (Hex.lower bytes).length = 2 * bytes.length := by
  induction bytes with
  | nil => rfl
  | cons b bytes ih =>
    rw [Hex.lower, List.flatMap_cons, List.length_append, ← Hex.lower, ih, List.length_cons]
    exact (Nat.add_comm 2 _).trans (Nat.mul_succ 2 _).symm

/-- A digest has thirty-two digits. -/
theorem length_hexDigest (message : List UInt8) : (Md5.hexDigest message).length = 32 := by
  simp [Md5.hexDigest, length_lower, Md5.digest, Md5.littleEndian]

/-- URLs of which no two have the same digest are told apart by their file names. -/
theorem namesApart_of_digests {urls : List String}
    (h : ∀ a ∈ urls, ∀ b ∈ urls, Md5.digest (Utf8.ofString a) = Md5.digest (Utf8.ofString b) → a = b) : NamesApart urls := by
  intro a ha b hb hab
  have hl := congrArg String.toList hab
  simp only [fileName, String.toList_ofList] at hl
  have hhex := (List.append_inj hl (by rw [length_hexDigest, length_hexDigest])).1
  exact h a ha b hb (lower_inj hhex)

end ChannelWatch.Cache
