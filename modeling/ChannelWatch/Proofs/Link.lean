import ChannelWatch.Link
import ChannelWatch.Proofs.Text.Search

/-!
# Secure links

Statements about `Link.secure`: a secured link never begins with `http://`, only the empty link is secured to the empty link, and
what is looked for behind the scheme is found there as before.
-/

namespace ChannelWatch

namespace Link

/-- A link begins with `http://`. -/
def IsInsecure (link : String) : Prop :=
  "http://".toList <+: link.toList

/-- A link that is not insecure is left as it is. -/
theorem secure_of_not_isInsecure {link : String} (h : ¬IsInsecure link) : secure link = link := by
  unfold secure
  rw [Text.stripStart?_eq_none_iff.mpr h]

/-- A secured link is never insecure. -/
theorem not_isInsecure_secure (link : String) : ¬IsInsecure (secure link) := by
  unfold secure
  split
  · rintro ⟨rest, h⟩
    simp at h
  · rename_i h
    exact Text.stripStart?_eq_none_iff.mp h

/-- Only no link at all is secured to no link. -/
theorem secure_eq_empty_iff {link : String} : secure link = "" ↔ link = "" := by
  constructor
  · intro h
    unfold secure at h
    split at h
    · simp [← String.toList_inj] at h
    · exact h
  · rintro rfl
    rfl

/-- Securing a link neither adds a pattern to it nor takes one away that begins with no character of `https://`. -/
theorem infix_secure_iff {c : Char} {pattern : List Char} (h : c ∉ "https://".toList) (link : String) :
    c :: pattern <:+: (secure link).toList ↔ c :: pattern <:+: link.toList := by
  have hsub : "http://".toList ⊆ "https://".toList := by decide
  unfold secure
  split
  · rename_i rest hs
    rw [Text.eq_append_of_stripStart? hs, String.toList_ofList, Text.infix_append_iff_of_not_mem h,
      Text.infix_append_iff_of_not_mem fun hc => h (hsub hc)]
  · rfl

end Link

end ChannelWatch
