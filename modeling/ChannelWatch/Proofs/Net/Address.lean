import ChannelWatch.Net.Address
import ChannelWatch.Proofs.Json.Literal
import ChannelWatch.Proofs.Text.Digits
import Mathlib.Algebra.GroupWithZero.Nat
import Mathlib.Data.List.Induction

/-!
# Addresses are read back

An address that was read has four octets or eight groups, a zone and a port in range (`SocketAddress.isValid_of_read?`), and every such
address is read back from what is written for it (`SocketAddress.read?_render`), whichever zeros are left out.
-/

namespace ChannelWatch

/-- The octets or groups are as many as the version has, and in range. -/
def IpAddress.IsValid : IpAddress → Prop
  | v4 octets => octets.length = 4 ∧ ∀ o ∈ octets, o < 256
  | v6 groups zone => (groups.length = 8 ∧ ∀ g ∈ groups, g < 65536) ∧ zone < Nat.pow 2 32

/-- The address is of one of the two versions and the port in range. -/
def SocketAddress.IsValid (a : SocketAddress) : Prop :=
  a.ip.IsValid ∧ a.port < 65536

namespace Net

/-- The text does not go on with a character of a class. -/
def Stops (p : Char → Bool) (rest : List Char) : Prop :=
  ∀ c ∈ rest.head?, p c = false

theorem takeWhile_append {p : Char → Bool} {start rest : List Char} (hstart : ∀ c ∈ start, p c = true) (hrest : Stops p rest) :
    (start ++ rest).takeWhile p = start := by
  have hnone : rest.takeWhile p = [] := by
    cases rest with
    | nil => rfl
    | cons c rest => exact List.takeWhile_cons_of_neg (by rw [hrest c rfl]; exact Bool.false_ne_true)
  rw [List.takeWhile_append_of_pos hstart, hnone, List.append_nil]

/-! ## Version 4 -/

theorem decimal?_ofNat {n bound : Nat} {rest : List Char} (hn : n < bound) (hrest : Stops Text.isDigit rest) :
    decimal? bound (Text.ofNat n ++ rest) = some (n, rest) := by
  have hdigits := takeWhile_append (fun _ hc => Text.isDigit_of_mem_ofNat (n := n) hc) hrest
  have hsome : ¬((Text.ofNat n).isEmpty = true ∨ bound ≤ n) := by
    rw [List.isEmpty_iff, not_or]
    exact ⟨Text.ofNat_ne_nil n, by omega⟩
  simp only [decimal?, hdigits, Text.decimal_ofNat, if_neg hsome, List.drop_left]

/-- An octet is read up to where its digits stop. -/
theorem octet?_ofNat {n : Nat} {rest : List Char} (hn : n < 256) (hrest : Stops Text.isDigit rest) :
    octet? (Text.ofNat n ++ rest) = some (n, rest) := by
  have hdigits := takeWhile_append (fun _ hc => Text.isDigit_of_mem_ofNat (n := n) hc) hrest
  have hlength : (Text.ofNat n).length ≤ 3 := (Text.length_ofNat_le_iff (by decide)).mpr (by omega)
  have hshort : ¬(3 < (Text.ofNat n).length ∨ 1 < (Text.ofNat n).length ∧ (Text.ofNat n).head? = some '0') := by
    rintro (hlong | ⟨hlong, hzero⟩)
    · omega
    · rcases Nat.eq_zero_or_pos n with rfl | hpos
      · exact absurd hlong (by decide)
      · obtain ⟨d, ds, hds, hd⟩ := Text.ofNat_of_ne_zero (Nat.pos_iff_ne_zero.mp hpos)
        rw [hds] at hzero
        exact hd (Option.some.inj hzero)
  simp only [octet?, hdigits, if_neg hshort]
  exact decimal?_ofNat hn hrest

/-- Four octets are read. -/
theorem octets?_renderOctets {a b c d : Nat} {rest : List Char} (ha : a < 256) (hb : b < 256) (hc : c < 256) (hd : d < 256)
    (hrest : Stops Text.isDigit rest) : octets? (renderOctets [a, b, c, d] ++ rest) = some ([a, b, c, d], rest) := by
  have htext : renderOctets [a, b, c, d] ++ rest = Text.ofNat a ++ '.' :: (Text.ofNat b ++ '.' :: (Text.ofNat c ++
      '.' :: (Text.ofNat d ++ rest))) := by
    simp only [renderOctets, List.map_cons, List.map_nil, List.intercalate, List.intersperse_cons_cons, List.intersperse_singleton,
      List.flatten_cons, List.flatten_nil, List.append_nil, List.append_assoc, List.nil_append, List.cons_append]
  have hpoint : ∀ text, Stops Text.isDigit ('.' :: text) := fun _ c hc => Option.some.inj hc ▸ rfl
  simp only [htext, octets?, octet?_ofNat ha (hpoint _), octet?_ofNat hb (hpoint _), octet?_ofNat hc (hpoint _),
    octet?_ofNat hd hrest, expect?, if_true, Option.bind_eq_bind, Option.bind_some]

theorem port?_ofNat {port : Nat} (h : port < 65536) : port? (':' :: Text.ofNat port) = some port := by
  have hread : decimal? 65536 (Text.ofNat port ++ []) = some (port, []) := decimal?_ofNat h nofun
  rw [List.append_nil] at hread
  simp only [port?, expect?, if_true, Option.bind_eq_bind, Option.bind_some, hread, List.isEmpty_nil]

/-! ## Version 6 -/

/-- Leading zeros do not count. -/
theorem foldl_dropWhile_zero (ds : List Nat) :
    (ds.dropWhile (· = 0)).foldl (fun n d => n * 16 + d) 0 = ds.foldl (fun n d => n * 16 + d) 0 := by
  induction ds with
  | nil => rfl
  | cons d ds ih =>
    by_cases hd : d = 0
    · rw [List.dropWhile_cons, if_pos (decide_eq_true hd), ih, hd]
      rfl
    · rw [List.dropWhile_cons, if_neg (by simpa using hd)]

/-- The digits of a group: not none, at most four, and with the group as their value. -/
theorem renderGroup_eq {g : Nat} (h : g < 65536) :
    ∃ ds : List Nat, renderGroup g = ds.map Hex.lowerDigit ∧ (∀ d ∈ ds, d < 16) ∧ ds ≠ [] ∧ ds.length ≤ 4 ∧
      ds.foldl (fun n d => n * 16 + d) 0 = g := by
  obtain ⟨all, hall⟩ : ∃ all, all = [g / 4096 % 16, g / 256 % 16, g / 16 % 16, g % 16] := ⟨_, rfl⟩
  have hlt : ∀ d ∈ all, d < 16 := by
    rw [hall]
    simp only [List.forall_mem_cons]
    exact ⟨by omega, by omega, by omega, by omega, List.forall_mem_nil _⟩
  have hvalue : (all.dropWhile (· = 0)).foldl (fun n d => n * 16 + d) 0 = g := by
    rw [foldl_dropWhile_zero, hall]
    simp only [List.foldl_cons, List.foldl_nil]
    omega
  have hlength : (all.dropWhile (· = 0)).length ≤ 4 := by
    have hle := (all.dropWhile_sublist (· = 0)).length_le
    rwa [show all.length = 4 by rw [hall]; rfl] at hle
  rw [renderGroup, ← hall]
  by_cases hempty : all.dropWhile (· = 0) = []
  · rw [hempty] at hvalue ⊢
    exact ⟨[0], rfl, by decide, by decide, by decide, hvalue⟩
  · refine ⟨all.dropWhile (· = 0), ?_, fun d hd => hlt d ((all.dropWhile_sublist _).subset hd), hempty, hlength, hvalue⟩
    rw [if_neg fun h => hempty (List.isEmpty_iff.mp h)]

theorem value?_lowerDigit {d : Nat} (h : d < 16) : Hex.value? (Hex.lowerDigit d) = some d :=
  Hex.value?_of_isDigit ⟨h, .inl rfl⟩

/-- A character that may stand in an IPv6 address behind a group. -/
def IsGroupEnd (c : Char) : Prop :=
  c = ':' ∨ c = '%' ∨ c = ']'

/-- A text that goes on with such a character. -/
def EndsGroup (rest : List Char) : Prop :=
  ∃ c text, rest = c :: text ∧ IsGroupEnd c

/-- A group is read up to where it ends. -/
theorem group?_renderGroup {g : Nat} {rest : List Char} (h : g < 65536) (hrest : EndsGroup rest) :
    group? (renderGroup g ++ rest) = some (g, rest) := by
  obtain ⟨ds, hds, hlt, hne, hlength, hvalue⟩ := renderGroup_eq h
  obtain ⟨c, text, rfl, hc⟩ := hrest
  have hchars : ∀ e ∈ ds.map Hex.lowerDigit, (Hex.value? e).isSome = true := by
    intro e he
    obtain ⟨d, hd, rfl⟩ := List.mem_map.mp he
    rw [value?_lowerDigit (hlt d hd)]
    rfl
  have hstop : Stops (fun c => (Hex.value? c).isSome) (c :: text) := by
    intro e he
    obtain rfl := Option.some.inj he
    rcases hc with rfl | rfl | rfl <;> decide
  have hfold : (ds.map Hex.lowerDigit).foldl (fun n c => n * 16 + (Hex.value? c).getD 0) 0 = g := by
    rw [List.foldl_map, ← hvalue]
    refine List.foldl_ext _ _ _ fun n d hd => ?_
    rw [value?_lowerDigit (hlt d hd), Option.getD_some]
  have hsome : ¬((ds.map Hex.lowerDigit).isEmpty = true ∨ 4 < (ds.map Hex.lowerDigit).length) := by
    rw [List.isEmpty_iff, List.map_eq_nil_iff, List.length_map, not_or]
    exact ⟨hne, by omega⟩
  simp only [group?, hds, takeWhile_append hchars hstop, if_neg hsome, hfold, List.drop_left]

/-- A run of characters of a class ends before a character outside it. -/
theorem length_takeWhile_append_le {p : Char → Bool} {c : Char} (hc : p c = false) (start text : List Char) :
    ((start ++ c :: text).takeWhile p).length ≤ start.length := by
  induction start with
  | nil => simp [hc]
  | cons d start ih =>
    rw [List.cons_append, List.takeWhile_cons]
    split
    · exact Nat.succ_le_succ ih
    · exact Nat.zero_le _

/-- An octet is below its bound, and what follows it is what follows the digits. -/
theorem octet?_eq_some {text rest : List Char} {n : Nat} (h : octet? text = some (n, rest)) :
    n < 256 ∧ rest = text.drop (text.takeWhile Text.isDigit).length := by
  simp only [octet?, decimal?] at h
  split_ifs at h with hshort hnone
  obtain ⟨rfl, rfl⟩ := Prod.mk.inj (Option.some.inj h)
  exact ⟨by omega, rfl⟩

/-- No address of version 4 begins with a group: there is no point behind it. -/
theorem octets?_renderGroup {g : Nat} {rest : List Char} (h : g < 65536) (hrest : EndsGroup rest) :
    octets? (renderGroup g ++ rest) = none := by
  obtain ⟨ds, hds, hlt, -⟩ := renderGroup_eq h
  obtain ⟨c, text, rfl, hc⟩ := hrest
  have hdigit : ∀ d < 16, Hex.lowerDigit d ≠ '.' := by decide
  have hchars : ∀ e ∈ renderGroup g, e ≠ '.' := by
    intro e he
    rw [hds] at he
    obtain ⟨d, hd, rfl⟩ := List.mem_map.mp he
    exact hdigit d (hlt d hd)
  have hend : Text.isDigit c = false ∧ c ≠ '.' := by
    rcases hc with rfl | rfl | rfl <;> decide
  have hpoint : ∀ k ≤ (renderGroup g).length, expect? '.' ((renderGroup g ++ c :: text).drop k) = none := by
    intro k hk
    rw [List.drop_append_of_le_length hk]
    cases hdrop : (renderGroup g).drop k with
    | nil => exact if_neg hend.2
    | cons e others => exact if_neg (hchars e (List.mem_of_mem_drop (hdrop ▸ List.mem_cons_self)))
  cases hoctet : octet? (renderGroup g ++ c :: text) with
  | none => simp only [octets?, hoctet, Option.bind_eq_bind, Option.bind_none]
  | some read =>
    obtain ⟨n, rest⟩ := read
    have hnone := hpoint _ (length_takeWhile_append_le hend.1 (renderGroup g) text)
    rw [← (octet?_eq_some hoctet).2] at hnone
    simp only [octets?, hoctet, hnone, Option.bind_eq_bind, Option.bind_some, Option.bind_none]

/-- Neither an address of version 4 nor a group begins where groups end. -/
theorem octets?_end {rest : List Char} (h : EndsGroup rest) : octets? rest = none ∧ group? rest = none := by
  obtain ⟨c, text, rfl, hc⟩ := h
  have hdigits : (c :: text).takeWhile Text.isDigit = [] := by
    refine List.takeWhile_cons_of_neg ?_
    rcases hc with rfl | rfl | rfl <;> decide
  have hhex : (c :: text).takeWhile (fun c => (Hex.value? c).isSome) = [] := by
    refine List.takeWhile_cons_of_neg ?_
    rcases hc with rfl | rfl | rfl <;> decide
  have hoctet : octet? (c :: text) = none := by
    simp [octet?, decimal?, hdigits]
  exact ⟨by simp only [octets?, hoctet, Option.bind_eq_bind, Option.bind_none], by simp [group?, hhex]⟩

/-- Groups come to their end: an empty run of groups, a zone or the bracket. -/
def EndsGroups (rest : List Char) : Prop :=
  ∃ c text, rest = c :: text ∧ (c = ':' ∧ EndsGroup text ∨ c = '%' ∨ c = ']')

/-- Where groups end, a group ends. -/
theorem EndsGroups.group {rest : List Char} (h : EndsGroups rest) : EndsGroup rest := by
  obtain ⟨c, text, rfl, hc⟩ := h
  exact ⟨c, text, rfl, hc.imp (·.1) id⟩

/-- No more groups are read where they end. -/
theorem groups_end {first : Bool} {rest : List Char} (h : EndsGroups rest) (limit : Nat) :
    groups first limit rest = ([], false, rest) := by
  have hnone : (separated? first rest).bind octets? = none ∧ (separated? first rest).bind group? = none := by
    cases first with
    | true => exact octets?_end h.group
    | false =>
      obtain ⟨c, text, rfl, hc⟩ := h
      rcases hc with ⟨rfl, htext⟩ | rfl | rfl
      · exact octets?_end htext
      · exact ⟨rfl, rfl⟩
      · exact ⟨rfl, rfl⟩
  cases limit with
  | zero => rfl
  | succ limit => simp only [groups, hnone.1, hnone.2, ite_self]

theorem groups_cons {first : Bool} {g : Nat} {text rest : List Char} (hg : g < 65536) (hrest : EndsGroup rest)
    (htext : separated? first text = some (renderGroup g ++ rest)) (limit : Nat) :
    groups first (limit + 1) text = (g :: (groups false limit rest).1, (groups false limit rest).2) := by
  simp only [groups, htext, Option.bind_some, octets?_renderGroup hg hrest, ite_self, group?_renderGroup hg hrest]

/-- Groups are read up to their end, each behind a colon. -/
theorem groups_colons {gs : List Nat} {rest : List Char} (hgs : ∀ g ∈ gs, g < 65536) (hrest : EndsGroups rest) :
    ∀ limit : Nat, gs.length ≤ limit →
      groups false limit (gs.flatMap (fun g => ':' :: renderGroup g) ++ rest) = (gs, false, rest) := by
  induction gs with
  | nil => exact fun limit _ => groups_end hrest limit
  | cons g gs ih =>
    intro limit hlimit
    obtain ⟨limit, rfl⟩ : ∃ n, limit = n + 1 := ⟨limit - 1, by rw [List.length_cons] at hlimit; omega⟩
    have hothers := ih (fun h hh => hgs h (List.mem_cons_of_mem g hh)) limit (Nat.le_of_succ_le_succ hlimit)
    have hend : EndsGroup (gs.flatMap (fun g => ':' :: renderGroup g) ++ rest) := by
      cases gs with
      | nil => exact hrest.group
      | cons h gs => exact ⟨':', _, rfl, .inl rfl⟩
    rw [List.flatMap_cons, List.append_assoc, groups_cons (hgs g List.mem_cons_self) hend rfl, hothers]

/-- The first group stands without a colon. -/
theorem renderGroups_cons (g : Nat) (gs : List Nat) :
    renderGroups (g :: gs) = renderGroup g ++ gs.flatMap fun g => ':' :: renderGroup g := by
  induction gs generalizing g with
  | nil => simp [renderGroups, List.intercalate]
  | cons h gs ih =>
    have hcons : renderGroups (g :: h :: gs) = renderGroup g ++ ':' :: renderGroups (h :: gs) := by
      simp only [renderGroups, List.map_cons, List.intercalate, List.intersperse_cons_cons, List.flatten_cons, List.singleton_append]
    rw [hcons, ih, List.flatMap_cons, List.cons_append]

/-- Groups are read up to their end. -/
theorem groups_renderGroups {gs : List Nat} {rest : List Char} (hgs : ∀ g ∈ gs, g < 65536) (hrest : EndsGroups rest) {limit : Nat}
    (hlimit : gs.length ≤ limit) : groups true limit (renderGroups gs ++ rest) = (gs, false, rest) := by
  cases gs with
  | nil => exact groups_end hrest limit
  | cons g gs =>
    obtain ⟨limit, rfl⟩ : ∃ n, limit = n + 1 := ⟨limit - 1, by rw [List.length_cons] at hlimit; omega⟩
    have hothers := groups_colons (fun h hh => hgs h (List.mem_cons_of_mem g hh)) hrest limit (Nat.le_of_succ_le_succ hlimit)
    have hend : EndsGroup (gs.flatMap (fun g => ':' :: renderGroup g) ++ rest) := by
      cases gs with
      | nil => exact hrest.group
      | cons h gs => exact ⟨':', _, rfl, .inl rfl⟩
    rw [renderGroups_cons, List.append_assoc, groups_cons (hgs g List.mem_cons_self) hend rfl, hothers]

/-- A run of zeros begins with zeros. -/
theorem eq_replicate_append_of_le_zeroRun {gs : List Nat} : ∀ {n : Nat}, n ≤ zeroRun gs → gs = List.replicate n 0 ++ gs.drop n := by
  induction gs with
  | nil =>
    intro n hn
    obtain rfl := Nat.le_zero.mp hn
    rfl
  | cons g gs ih =>
    intro n hn
    cases n with
    | zero => rfl
    | succ n =>
      cases g with
      | zero => exact congrArg (0 :: ·) (ih (Nat.le_of_succ_le_succ hn))
      | succ g => exact absurd hn (Nat.not_succ_le_zero n)

/-- The longest run of zeros is one of zeros. -/
theorem longestZeros_le (gs : List Nat) : (longestZeros gs).2 ≤ zeroRun (gs.drop (longestZeros gs).1) := by
  unfold longestZeros
  refine List.foldlRecOn (motive := fun best : Nat × Nat => best.2 ≤ zeroRun (gs.drop best.1)) _ _ (Nat.zero_le _) ?_
  intro best hbest i _
  simp only
  split
  · exact Nat.le_refl _
  · exact hbest

/-- Eight groups are read from what is written for them without their longest run of zeros. -/
theorem address6?_renderShort {gs : List Nat} {rest : List Char} (hlength : gs.length = 8) (hgs : ∀ g ∈ gs, g < 65536)
    (hrest : EndsGroups rest) : address6? (renderShort gs ++ rest) = some (gs, rest) := by
  have hrun := longestZeros_le gs
  rcases hzeros : longestZeros gs with ⟨start, length⟩
  simp only [hzeros] at hrun
  simp only [renderShort, hzeros]
  split_ifs with hshort
  · simp only [address6?, groups_renderGroups hgs hrest (Nat.le_of_eq hlength), hlength, if_true]
  · have hdrop := eq_replicate_append_of_le_zeroRun hrun
    rw [List.drop_drop] at hdrop
    have hwhole : gs = gs.take start ++ (List.replicate length 0 ++ gs.drop (start + length)) := by
      rw [← hdrop, List.take_append_drop]
    have hcount := congrArg List.length hwhole
    rw [List.length_append, List.length_append, List.length_replicate, hlength] at hcount
    have hhead : ∀ g ∈ gs.take start, g < 65536 := fun g hg => hgs g (List.mem_of_mem_take hg)
    have htail : ∀ g ∈ gs.drop (start + length), g < 65536 := fun g hg => hgs g (List.mem_of_mem_drop hg)
    have hgap : EndsGroups (':' :: ':' :: (renderGroups (gs.drop (start + length)) ++ rest)) :=
      ⟨':', _, rfl, .inl ⟨rfl, ':', _, rfl, .inl rfl⟩⟩
    have hfirst := groups_renderGroups hhead hgap (show _ ≤ 8 by omega)
    have hsecond := groups_renderGroups htail hrest (show _ ≤ 7 - (gs.take start).length by omega)
    have htext : renderGroups (gs.take start) ++ "::".toList ++ renderGroups (gs.drop (start + length)) ++ rest
        = renderGroups (gs.take start) ++ ':' :: ':' :: (renderGroups (gs.drop (start + length)) ++ rest) := by
      rw [List.append_assoc, List.append_assoc]
      rfl
    have hnot : (gs.take start).length ≠ 8 := by omega
    have hstrip : Text.stripStart? [':', ':'] (':' :: ':' :: (renderGroups (gs.drop (start + length)) ++ rest))
        = some (renderGroups (gs.drop (start + length)) ++ rest) := rfl
    have hbetween : 8 - (gs.take start).length - (gs.drop (start + length)).length = length := by omega
    simp only [htext, address6?, hfirst, if_neg hnot, hstrip, hsecond, hbetween]
    exact congrArg (fun read => some (read, rest)) (by rw [List.append_assoc, ← hwhole])

/-- An address that stands for one of version 4 is read from its octets. -/
theorem address6?_mapped {a b : Nat} {rest : List Char} (ha : a < 65536) (hb : b < 65536) (hrest : EndsGroups rest) :
    address6? ("::ffff:".toList ++ renderOctets [a / 256, a % 256, b / 256, b % 256] ++ rest)
      = some ([0, 0, 0, 0, 0, 0xffff, a, b], rest) := by
  obtain ⟨octets, hoctets⟩ : ∃ text, text = renderOctets [a / 256, a % 256, b / 256, b % 256] ++ rest := ⟨_, rfl⟩
  have hstop : Stops Text.isDigit rest := by
    obtain ⟨c, text, rfl, hc⟩ := hrest.group
    intro d hd
    obtain rfl := Option.some.inj hd
    rcases hc with rfl | rfl | rfl <;> decide
  have hread := octets?_renderOctets (show a / 256 < 256 by omega) (show a % 256 < 256 by omega) (show b / 256 < 256 by omega)
    (show b % 256 < 256 by omega) hstop
  rw [← hoctets] at hread
  have hgap : EndsGroups ("::ffff:".toList ++ octets) := ⟨':', _, rfl, .inl ⟨rfl, ':', _, rfl, .inl rfl⟩⟩
  have hlast : groups false 6 (':' :: octets) = ([a / 256 * 256 + a % 256, b / 256 * 256 + b % 256], true, rest) := by
    simp only [groups, separated?, expect?, if_true, Option.bind_some, hread, Bool.false_eq_true, if_false,
      (by decide : ¬(5 = 0))]
  have hend : EndsGroup (':' :: octets) := ⟨':', _, rfl, .inl rfl⟩
  have hmapped : groups true 7 ("ffff:".toList ++ octets)
      = ([0xffff, a / 256 * 256 + a % 256, b / 256 * 256 + b % 256], true, rest) := by
    have htext : separated? true ("ffff:".toList ++ octets) = some (renderGroup 0xffff ++ ':' :: octets) := rfl
    rw [groups_cons (by decide) hend htext, hlast]
  have hstrip : Text.stripStart? [':', ':'] ("::ffff:".toList ++ octets) = some ("ffff:".toList ++ octets) := rfl
  rw [List.append_assoc, ← hoctets]
  simp only [address6?, groups_end hgap 8, List.length_nil, hstrip, Nat.sub_zero, hmapped]
  rw [Nat.div_add_mod', Nat.div_add_mod']
  rfl

/-- Eight groups are read from what is written for them. -/
theorem address6?_render6 {gs : List Nat} {rest : List Char} (hlength : gs.length = 8) (hgs : ∀ g ∈ gs, g < 65536)
    (hrest : EndsGroups rest) : address6? (render6 gs ++ rest) = some (gs, rest) := by
  unfold render6
  split
  · rename_i a b
    have ha : [0, 0, 0, 0, 0, 0xffff, a, b][6]? = some a := rfl
    have hb : [0, 0, 0, 0, 0, 0xffff, a, b][7]? = some b := rfl
    exact address6?_mapped (hgs a (List.mem_of_getElem? ha)) (hgs b (List.mem_of_getElem? hb)) hrest
  · exact address6?_renderShort hlength hgs hrest

/-! ## Addresses that were read -/

/-- A number that was read is below its bound. -/
theorem lt_of_decimal? {bound n : Nat} {text rest : List Char} (h : decimal? bound text = some (n, rest)) : n < bound := by
  simp only [decimal?] at h
  split_ifs at h with hnone
  obtain ⟨rfl, -⟩ := Prod.mk.inj (Option.some.inj h)
  omega

/-- Four octets were read. -/
theorem octets?_eq_some {text rest : List Char} {octets : List Nat} (h : octets? text = some (octets, rest)) :
    ∃ a b c d, octets = [a, b, c, d] ∧ a < 256 ∧ b < 256 ∧ c < 256 ∧ d < 256 := by
  simp only [octets?, Option.bind_eq_bind, Option.bind_eq_some_iff] at h
  obtain ⟨⟨a, _⟩, ha, ⟨b, _⟩, ⟨_, -, hb⟩, ⟨c, _⟩, ⟨_, -, hc⟩, ⟨d, _⟩, ⟨_, -, hd⟩, h⟩ := h
  obtain ⟨rfl, -⟩ := Prod.mk.inj (Option.some.inj h)
  exact ⟨a, b, c, d, rfl, (octet?_eq_some ha).1, (octet?_eq_some hb).1, (octet?_eq_some hc).1, (octet?_eq_some hd).1⟩

/-- Hexadecimal digits are digits to the base sixteen. -/
theorem foldl_value?_lt (ds : List Char) : ds.foldl (fun n c => n * 16 + (Hex.value? c).getD 0) 0 < 16 ^ ds.length := by
  have hdigit : ∀ c, (Hex.value? c).getD 0 < 16 := by
    intro c
    unfold Hex.value?
    simp only [Char.le_def, UInt32.le_iff_toNat_le]
    split_ifs with h0 ha hA
    · have := h0.2
      change c.toNat ≤ 57 at this
      simp only [Option.getD_some]
      omega
    · have := ha.2
      change c.toNat ≤ 102 at this
      simp only [Option.getD_some]
      omega
    · have := hA.2
      change c.toNat ≤ 70 at this
      simp only [Option.getD_some]
      omega
    · decide
  induction ds using List.reverseRecOn with
  | nil => decide
  | append_singleton ds c ih =>
    have := hdigit c
    rw [List.foldl_append, List.length_append, List.length_singleton, Nat.pow_succ, List.foldl_cons, List.foldl_nil]
    omega

/-- A group that was read is in range. -/
theorem lt_of_group? {text rest : List Char} {g : Nat} (h : group? text = some (g, rest)) : g < 65536 := by
  simp only [group?] at h
  split_ifs at h with hnone
  obtain ⟨rfl, -⟩ := Prod.mk.inj (Option.some.inj h)
  obtain ⟨-, hlength⟩ := not_or.mp hnone
  exact Nat.lt_of_lt_of_le (foldl_value?_lt _) (Nat.pow_le_pow_right (by decide) (Nat.not_lt.mp hlength))

/-- No more groups are read than there is room for, and they are in range. -/
theorem groups_bounds (limit : Nat) : ∀ (first : Bool) (text : List Char),
    (groups first limit text).1.length ≤ limit ∧ ∀ g ∈ (groups first limit text).1, g < 65536 := by
  induction limit with
  | zero => exact fun _ _ => ⟨Nat.le_refl 0, List.forall_mem_nil _⟩
  | succ limit ih =>
    intro first text
    simp only [groups]
    split
    · rename_i htail
      by_cases hlimit : limit = 0
      · rw [if_pos hlimit] at htail
        nomatch htail
      · rw [if_neg hlimit] at htail
        obtain ⟨_, -, hread⟩ := Option.bind_eq_some_iff.mp htail
        obtain ⟨a, b, c, d, heq, ha, hb, hc, hd⟩ := octets?_eq_some hread
        obtain ⟨rfl, rfl, rfl, rfl, -⟩ : _ ∧ _ ∧ _ ∧ _ ∧ True := by simpa using heq
        refine ⟨?_, ?_⟩
        · simp only [List.length_cons, List.length_nil]
          omega
        · simp only [List.forall_mem_cons]
          exact ⟨by omega, by omega, List.forall_mem_nil _⟩
    · split
      · rename_i hgroup
        obtain ⟨_, -, hread⟩ := Option.bind_eq_some_iff.mp hgroup
        exact ⟨Nat.succ_le_succ (ih _ _).1, List.forall_mem_cons.mpr ⟨lt_of_group? hread, (ih _ _).2⟩⟩
      · exact ⟨Nat.zero_le _, List.forall_mem_nil _⟩

/-- An address of version 6 that was read has eight groups in range. -/
theorem address6?_eq_some {text rest : List Char} {gs : List Nat} (h : address6? text = some (gs, rest)) :
    gs.length = 8 ∧ ∀ g ∈ gs, g < 65536 := by
  have hhead := groups_bounds 8 true text
  simp only [address6?] at h
  split_ifs at h with height htailed
  · obtain ⟨rfl, -⟩ := Prod.mk.inj (Option.some.inj h)
    exact ⟨height, hhead.2⟩
  · split at h
    · nomatch h
    · rename_i more _
      have htail := groups_bounds (7 - (groups true 8 text).1.length) true more
      obtain ⟨rfl, -⟩ := Prod.mk.inj (Option.some.inj h)
      refine ⟨?_, fun g hg => ?_⟩
      · simp only [List.length_append, List.length_replicate]
        omega
      · rcases List.mem_append.mp hg with hg | hg
        · rcases List.mem_append.mp hg with hg | hg
          · exact hhead.2 g hg
          · rw [List.eq_of_mem_replicate hg]
            decide
        · exact htail.2 g hg

end Net

namespace SocketAddress

/-- An address that was read is in range. -/
theorem isValid_of_read? {text : String} {a : SocketAddress} (h : read? text = some a) : a.IsValid := by
  have hport : ∀ {rest : List Char} {port : Nat}, Net.port? rest = some port → port < 65536 := by
    intro rest port hport
    simp only [Net.port?, Option.bind_eq_bind, Option.bind_eq_some_iff] at hport
    obtain ⟨⟨n, _⟩, ⟨_, -, hread⟩, hport⟩ := hport
    split_ifs at hport
    obtain rfl := Option.some.inj hport
    exact Net.lt_of_decimal? hread
  unfold read? at h
  split at h
  · simp only [Option.bind_eq_bind, Option.bind_eq_some_iff] at h
    obtain ⟨⟨gs, _⟩, hgroups, ⟨zone, _⟩, hzone, port, ⟨_, -, hread⟩, h⟩ := h
    obtain rfl := Option.some.inj h
    refine ⟨⟨Net.address6?_eq_some hgroups, ?_⟩, hport hread⟩
    unfold Net.zone? at hzone
    split at hzone
    · exact Net.lt_of_decimal? hzone
    · obtain ⟨rfl, -⟩ := Prod.mk.inj (Option.some.inj hzone)
      exact Nat.pow_pos (by decide)
  · simp only [Option.bind_eq_bind, Option.bind_eq_some_iff] at h
    obtain ⟨⟨octets, _⟩, hoctets, port, hread, h⟩ := h
    obtain rfl := Option.some.inj h
    obtain ⟨a, b, c, d, rfl, ha, hb, hc, hd⟩ := Net.octets?_eq_some hoctets
    refine ⟨⟨rfl, ?_⟩, hport hread⟩
    simp only [List.forall_mem_cons]
    exact ⟨ha, hb, hc, hd, List.forall_mem_nil _⟩

/-- An address in range is read back from what is written for it. -/
theorem read?_render {a : SocketAddress} (h : a.IsValid) : read? a.render = some a := by
  obtain ⟨ip, port⟩ := a
  obtain ⟨hip, hport⟩ := h
  cases ip with
  | v4 octets =>
    obtain ⟨hlength, hoctets⟩ := hip
    match octets, hlength, hoctets with
    | [a, b, c, d], _, hoctets =>
      simp only [List.forall_mem_cons] at hoctets
      obtain ⟨ha, hb, hc, hd, -⟩ := hoctets
      have hstop : Net.Stops Text.isDigit (':' :: Text.ofNat port) := fun c hc => Option.some.inj hc ▸ rfl
      have hread := Net.octets?_renderOctets ha hb hc hd hstop
      have hnot : ∀ rest, Net.renderOctets [a, b, c, d] ++ ':' :: Text.ofNat port ≠ '[' :: rest := by
        intro rest heq
        rw [heq] at hread
        nomatch hread
      rw [read?, render, String.toList_ofList]
      split
      · rename_i rest heq
        exact absurd heq (hnot rest)
      · simp only [hread, Net.port?_ofNat hport, Option.bind_eq_bind, Option.bind_some]
  | v6 gs zone =>
    obtain ⟨⟨hlength, hgs⟩, hzone⟩ := hip
    have hend : Net.EndsGroups ((if zone = 0 then [] else '%' :: Text.ofNat zone) ++ ']' :: ':' :: Text.ofNat port) := by
      split
      · exact ⟨']', _, rfl, .inr (.inr rfl)⟩
      · exact ⟨'%', _, rfl, .inr (.inl rfl)⟩
    have hread := Net.address6?_render6 hlength hgs hend
    have hstop : Net.Stops Text.isDigit (']' :: ':' :: Text.ofNat port) := fun c hc => Option.some.inj hc ▸ rfl
    have hzoned : Net.zone? ((if zone = 0 then [] else '%' :: Text.ofNat zone) ++ ']' :: ':' :: Text.ofNat port)
        = some (zone, ']' :: ':' :: Text.ofNat port) := by
      split
      · rename_i hzero
        rw [hzero]
        rfl
      · exact Net.decimal?_ofNat hzone hstop
    have htext : (render ⟨.v6 gs zone, port⟩).toList = '[' :: (Net.render6 gs
        ++ ((if zone = 0 then [] else '%' :: Text.ofNat zone) ++ ']' :: ':' :: Text.ofNat port)) := by
      rw [render, String.toList_ofList]
      simp only [List.cons_append, List.append_assoc]
    simp only [read?, htext, hread, hzoned, Net.expect?, if_true, Net.port?_ofNat hport, Option.bind_eq_bind, Option.bind_some]

end SocketAddress

end ChannelWatch
