import ChannelWatch.Proofs.Text.Digits
import ChannelWatch.Time.Written
import Mathlib.Data.List.TakeWhile

/-!
# Times in RFC 3339

What a written time says (`Instant.IsWritten`): a date of the calendar, a time of day, a fraction and an offset, each field at its full
width; the instant is what the clock shows less the offset. The strict reader gives an instant exactly where a text says it
(`readStrict?_eq_some_iff`). Beyond RFC 3339 a space may divide date and time, the minus sign U+2212 may stand for the hyphen of an
offset, and any minute may have a second 60.
-/

namespace ChannelWatch

namespace Written

/-! ## Parts of a time -/

/-- A fraction of a second in nanoseconds, with a digit or more: the first nine digits count. -/
inductive Fraction : Nat → List Char → Prop
  | none : Fraction 0 []
  | digits {ds : List Char} (some : ds ≠ []) (digits : ∀ c ∈ ds, Text.isDigit c = true) :
      Fraction (Text.decimal ((ds ++ List.replicate 9 '0').take 9)) ('.' :: ds)

/-- An offset from UTC in seconds. -/
inductive Zone : Int → List Char → Prop
  | utc {c : Char} (letter : c = 'Z' ∨ c = 'z') : Zone 0 [c]
  | ahead {hours minutes : Nat} (hour : hours < 100) (minute : minutes ≤ 59) :
      Zone (hours * 3600 + minutes * 60 : Nat) ('+' :: (Text.padded 2 hours ++ ':' :: Text.padded 2 minutes))
  | behind {sign : Char} {hours minutes : Nat} (sign' : sign = '-' ∨ sign = '\u2212') (hour : hours < 100) (minute : minutes ≤ 59) :
      Zone (-(hours * 3600 + minutes * 60 : Nat)) (sign :: (Text.padded 2 hours ++ ':' :: Text.padded 2 minutes))

/-- The fields of a clock reading at their full widths. -/
inductive Shows : ClockReading → List Char → Prop
  | intro {year month day hour minute second nanos : Nat} {offset : Int} {divider : Char} {fraction zone : List Char}
      (year' : year < 10000) (month' : month < 100) (day' : day < 100) (hour' : hour < 100) (minute' : minute < 100)
      (second' : second < 100) (divides : divider = 'T' ∨ divider = 't' ∨ divider = ' ') (fraction' : Fraction nanos fraction)
      (zone' : Zone offset zone) :
      Shows ⟨⟨year, month, day⟩, hour, minute, second, nanos, offset⟩
        (Text.padded 4 year ++ '-' :: (Text.padded 2 month ++ '-' :: (Text.padded 2 day ++ divider :: (Text.padded 2 hour ++
          ':' :: (Text.padded 2 minute ++ ':' :: (Text.padded 2 second ++ (fraction ++ zone)))))))

/-! ## Reading them -/

/-- A field of a fixed width is read where its digits stand, padded. -/
theorem fixed?_eq_some_iff {width n : Nat} (hwidth : 0 < width) {text rest : List Char} :
    fixed? width text = some (n, rest) ↔ n < 10 ^ width ∧ text = Text.padded width n ++ rest := by
  constructor
  · intro h
    simp only [fixed?] at h
    split_ifs at h with hlength
    obtain ⟨rfl, rfl⟩ := Prod.mk.inj (Option.some.inj h)
    have hprefix := List.takeWhile_prefix Text.isDigit (l := text.take width)
    have hall : (text.take width).takeWhile Text.isDigit = text.take width :=
      hprefix.eq_of_length_le (by rw [hlength]; exact List.length_take_le _ _)
    have hdigits : ∀ c ∈ text.take width, Text.isDigit c = true := by
      rw [← hall]
      exact fun c hc => List.mem_takeWhile_imp hc
    rw [hall] at hlength ⊢
    have hsome : text.take width ≠ [] := by
      rw [← List.length_pos_iff, hlength]
      exact hwidth
    have hvalue := Text.padded_decimal hsome hdigits
    have hlt := Text.decimal_lt hdigits
    rw [hlength] at hvalue hlt
    exact ⟨hlt, by rw [hvalue, List.take_append_drop]⟩
  · rintro ⟨hlt, rfl⟩
    have hlength := Text.length_padded hwidth hlt
    have htake : (Text.padded width n ++ rest).take width = Text.padded width n := by
      rw [List.take_append_of_le_length (Nat.le_of_eq hlength.symm), List.take_of_length_le (Nat.le_of_eq hlength)]
    have hdigits : (Text.padded width n).takeWhile Text.isDigit = Text.padded width n :=
      List.takeWhile_eq_self_iff.mpr fun c hc => Text.isDigit_of_mem_padded hc
    have hdrop : (Text.padded width n ++ rest).drop width = rest := List.drop_left' hlength
    simp only [fixed?, htake, hdigits, hlength, if_true, Text.decimal_padded, hdrop]

/-- An expected character is read where it stands. -/
theorem expect?_eq_some_iff {c : Char} {text rest : List Char} : expect? c text = some rest ↔ text = c :: rest := by
  cases text with
  | nil => simp [expect?]
  | cons d text =>
    rw [expect?]
    split_ifs with h
    · rw [h, Option.some.injEq, List.cons.injEq, and_iff_right rfl]
    · simp [h]

/-- The divider is read where it stands. -/
theorem divider?_eq_some_iff {text rest : List Char} :
    divider? text = some rest ↔ ∃ c, (c = 'T' ∨ c = 't' ∨ c = ' ') ∧ text = c :: rest := by
  unfold divider?
  split
  · simp
  · simp
  · simp
  · rename_i hT ht hspace
    refine ⟨nofun, ?_⟩
    rintro ⟨c, rfl | rfl | rfl, rfl⟩
    · exact absurd rfl (hT rest)
    · exact absurd rfl (ht rest)
    · exact absurd rfl (hspace rest)

/-- A fraction that was read stands at the beginning of the text. -/
theorem fraction_of_read {n : Nat} {text rest : List Char} (h : fraction? text = some (n, rest)) :
    ∃ fraction, Fraction n fraction ∧ text = fraction ++ rest := by
  unfold fraction? at h
  split at h
  · rename_i after
    simp only at h
    split_ifs at h with hempty
    obtain ⟨rfl, rfl⟩ := Prod.mk.inj (Option.some.inj h)
    have hsome : after.takeWhile Text.isDigit ≠ [] := fun heq => hempty (List.isEmpty_iff.mpr heq)
    refine ⟨_, .digits hsome fun c hc => List.mem_takeWhile_imp hc, ?_⟩
    have hprefix := List.prefix_iff_eq_append.mp (List.takeWhile_prefix Text.isDigit (l := after))
    rw [List.cons_append, hprefix]
  · obtain ⟨rfl, rfl⟩ := Prod.mk.inj (Option.some.inj h)
    exact ⟨[], .none, rfl⟩

/-- A fraction is read up to what follows it. -/
theorem fraction?_append {n : Nat} {fraction rest : List Char} (h : Fraction n fraction)
    (hrest : ∀ c ∈ rest.head?, Text.isDigit c = false ∧ c ≠ '.') : fraction? (fraction ++ rest) = some (n, rest) := by
  cases h with
  | none =>
    rw [List.nil_append]
    unfold fraction?
    split
    · exact absurd rfl (hrest '.' rfl).2
    · rfl
  | @digits ds some digits =>
    have hnone : rest.takeWhile Text.isDigit = [] := by
      cases rest with
      | nil => rfl
      | cons c rest => exact List.takeWhile_cons_of_neg (by rw [(hrest c rfl).1]; exact Bool.false_ne_true)
    have hdigits : (ds ++ rest).takeWhile Text.isDigit = ds := by
      rw [List.takeWhile_append_of_pos digits, hnone, List.append_nil]
    have hnot : ¬(ds.isEmpty = true) := fun heq => some (List.isEmpty_iff.mp heq)
    simp only [List.cons_append, fraction?, hdigits, if_neg hnot, List.drop_left]

/-- The sign of an offset is read where it stands. -/
theorem offsetSign?_eq_some {text rest : List Char} {behind : Bool} (h : offsetSign? text = some (behind, rest)) :
    ∃ sign, text = sign :: rest ∧ (sign = '+' ∧ behind = false ∨ (sign = '-' ∨ sign = '\u2212') ∧ behind = true) := by
  unfold offsetSign? at h
  split at h
  · obtain ⟨rfl, rfl⟩ := Prod.mk.inj (Option.some.inj h)
    exact ⟨'+', rfl, .inl ⟨rfl, rfl⟩⟩
  · obtain ⟨rfl, rfl⟩ := Prod.mk.inj (Option.some.inj h)
    exact ⟨'-', rfl, .inr ⟨.inl rfl, rfl⟩⟩
  · obtain ⟨rfl, rfl⟩ := Prod.mk.inj (Option.some.inj h)
    exact ⟨'\u2212', rfl, .inr ⟨.inr rfl, rfl⟩⟩
  · nomatch h

/-- An offset that was read stands at the beginning of the text. -/
theorem zone_of_read {offset : Int} {text rest : List Char} (h : offset? (expect? ':') text = some (offset, rest)) :
    ∃ zone, Zone offset zone ∧ text = zone ++ rest := by
  unfold offset? at h
  split at h
  · obtain ⟨rfl, rfl⟩ := Prod.mk.inj (Option.some.inj h)
    exact ⟨['Z'], .utc (.inl rfl), rfl⟩
  · obtain ⟨rfl, rfl⟩ := Prod.mk.inj (Option.some.inj h)
    exact ⟨['z'], .utc (.inr rfl), rfl⟩
  · simp only [Option.bind_eq_bind, Option.bind_eq_some_iff] at h
    obtain ⟨⟨behind, _⟩, hsign, ⟨hours, _⟩, hhours, _, hcolon, ⟨minutes, _⟩, hminutes, h⟩ := h
    obtain ⟨sign, rfl, hsigns⟩ := offsetSign?_eq_some hsign
    obtain ⟨hlt, rfl⟩ := (fixed?_eq_some_iff (by decide)).mp hhours
    obtain rfl := expect?_eq_some_iff.mp hcolon
    obtain ⟨-, rfl⟩ := (fixed?_eq_some_iff (by decide)).mp hminutes
    split_ifs at h with hlarge hbehind
    · obtain ⟨rfl, rfl⟩ := Prod.mk.inj (Option.some.inj h)
      obtain ⟨hminus, -⟩ := hsigns.resolve_left fun hplus => by simp [hplus.2] at hbehind
      refine ⟨_, .behind hminus hlt (Nat.not_lt.mp hlarge), ?_⟩
      rw [List.cons_append, List.append_assoc, List.cons_append]
    · obtain ⟨rfl, rfl⟩ := Prod.mk.inj (Option.some.inj h)
      obtain ⟨rfl, -⟩ := hsigns.resolve_right fun hminus => hbehind hminus.2
      refine ⟨_, .ahead hlt (Nat.not_lt.mp hlarge), ?_⟩
      rw [List.cons_append, List.append_assoc, List.cons_append]

/-- An offset is read up to what follows it. -/
theorem offset?_append {offset : Int} {zone : List Char} (h : Zone offset zone) (rest : List Char) :
    offset? (expect? ':') (zone ++ rest) = some (offset, rest) := by
  have hfields : ∀ (sign : Char) (behind : Bool) {hours minutes : Nat}, sign ≠ 'Z' → sign ≠ 'z' →
      (∀ text, offsetSign? (sign :: text) = some (behind, text)) → hours < 100 → minutes ≤ 59 →
      offset? (expect? ':') (sign :: (Text.padded 2 hours ++ ':' :: (Text.padded 2 minutes ++ rest)))
        = some (if behind then -((hours * 3600 + minutes * 60 : Nat) : Int) else (hours * 3600 + minutes * 60 : Nat), rest) := by
    intro sign behind hours minutes hZ hz hsign hhours hminutes
    have hlt : minutes < 100 := Nat.lt_of_le_of_lt hminutes (by decide)
    have htwo : ∀ {n : Nat} {text : List Char}, n < 100 → fixed? 2 (Text.padded 2 n ++ text) = some (n, text) := fun hn =>
      (fixed?_eq_some_iff (by decide)).mpr ⟨hn, rfl⟩
    unfold offset?
    split
    · rename_i heq
      exact absurd (List.cons.inj heq).1 hZ
    · rename_i heq
      exact absurd (List.cons.inj heq).1 hz
    · simp only [hsign, htwo hhours, expect?, if_true, htwo hlt, if_neg (Nat.not_lt.mpr hminutes), Option.bind_eq_bind,
        Option.bind_some]
  cases h with
  | utc letter => rcases letter with rfl | rfl <;> rfl
  | @ahead hours minutes hour minute =>
    rw [List.cons_append, List.append_assoc, List.cons_append]
    exact hfields '+' false (by decide) (by decide) (fun _ => rfl) hour minute
  | @behind sign hours minutes sign' hour minute =>
    rw [List.cons_append, List.append_assoc, List.cons_append]
    rcases sign' with rfl | rfl
    · exact hfields '-' true (by decide) (by decide) (fun _ => rfl) hour minute
    · exact hfields '\u2212' true (by decide) (by decide) (fun _ => rfl) hour minute

/-- An offset begins with no digit and no point. -/
theorem Zone.head {offset : Int} {zone : List Char} (h : Zone offset zone) : ∀ c ∈ zone.head?, Text.isDigit c = false ∧ c ≠ '.' := by
  intro c hc
  cases h with
  | utc letter =>
    obtain rfl := Option.some.inj hc
    rcases letter with rfl | rfl <;> decide
  | ahead => exact Option.some.inj hc ▸ by decide
  | behind sign' =>
    obtain rfl := Option.some.inj hc
    rcases sign' with rfl | rfl <;> decide

/-- The strict reader gives a clock reading exactly where a text shows it. -/
theorem strict?_eq_some_iff {r : ClockReading} {text : List Char} : strict? text = some r ↔ Shows r text := by
  constructor
  · intro h
    simp only [strict?, strictDate?, Option.bind_eq_bind, Option.bind_eq_some_iff, Option.some.injEq] at h
    obtain ⟨⟨_, _⟩, ⟨⟨year, _⟩, hyear, _, hdash, ⟨month, _⟩, hmonth, _, hdash', ⟨day, _⟩, hday, rfl, rfl⟩, _, hdivider,
      ⟨hour, _⟩, hhour, _, hcolon, ⟨minute, _⟩, hminute, _, hcolon', ⟨second, _⟩, hsecond, ⟨nanos, _⟩, hfraction, ⟨offset, rest⟩, hzone,
      h⟩ := h
    obtain ⟨hyear', rfl⟩ := (fixed?_eq_some_iff (by decide)).mp hyear
    obtain rfl := expect?_eq_some_iff.mp hdash
    obtain ⟨hmonth', rfl⟩ := (fixed?_eq_some_iff (by decide)).mp hmonth
    obtain rfl := expect?_eq_some_iff.mp hdash'
    obtain ⟨hday', rfl⟩ := (fixed?_eq_some_iff (by decide)).mp hday
    obtain ⟨divider, hdivides, rfl⟩ := divider?_eq_some_iff.mp hdivider
    obtain ⟨hhour', rfl⟩ := (fixed?_eq_some_iff (by decide)).mp hhour
    obtain rfl := expect?_eq_some_iff.mp hcolon
    obtain ⟨hminute', rfl⟩ := (fixed?_eq_some_iff (by decide)).mp hminute
    obtain rfl := expect?_eq_some_iff.mp hcolon'
    obtain ⟨hsecond', rfl⟩ := (fixed?_eq_some_iff (by decide)).mp hsecond
    obtain ⟨fraction, hfraction', rfl⟩ := fraction_of_read hfraction
    obtain ⟨zone, hzone', rfl⟩ := zone_of_read hzone
    split_ifs at h with hempty
    obtain rfl := Option.some.inj h
    obtain rfl := List.isEmpty_iff.mp hempty
    rw [List.append_nil]
    exact .intro hyear' hmonth' hday' hhour' hminute' hsecond' hdivides hfraction' hzone'
  · intro h
    cases h with
    | intro year' month' day' hour' minute' second' divides fraction' zone' =>
      have htwo : ∀ {n : Nat} {rest : List Char}, n < 100 → fixed? 2 (Text.padded 2 n ++ rest) = some (n, rest) := fun hn =>
        (fixed?_eq_some_iff (by decide)).mpr ⟨hn, rfl⟩
      have hfour : ∀ {n : Nat} {rest : List Char}, n < 10000 → fixed? 4 (Text.padded 4 n ++ rest) = some (n, rest) := fun hn =>
        (fixed?_eq_some_iff (by decide)).mpr ⟨hn, rfl⟩
      have hdivider : ∀ rest, divider? (_ :: rest) = some rest := fun rest => divider?_eq_some_iff.mpr ⟨_, divides, rfl⟩
      have hzone := offset?_append zone' []
      rw [List.append_nil] at hzone
      simp only [strict?, strictDate?, expect?, if_true, hfour year', htwo month', htwo day', hdivider, htwo hour', htwo minute',
        htwo second', fraction?_append fraction' zone'.head, hzone, Option.bind_eq_bind, Option.bind_some, List.isEmpty_nil]

end Written

namespace Instant

/-- A text says an instant: what its clock shows less its offset. A second 60 is the one before it, with more nanoseconds than one has. -/
inductive IsWritten : Instant → List Char → Prop
  | intro {r : ClockReading} {text : List Char} (shows' : Written.Shows r text) (date : r.date.isValid = true) (hour : r.hour ≤ 23)
      (minute : r.minute ≤ 59) (second : r.second ≤ 60) (offset : -86400 < r.offset ∧ r.offset < 86400) :
      IsWritten ⟨r.date.dayNumber * 86400 + (r.hour * 3600 + r.minute * 60 + min r.second 59 : Nat) - r.offset,
        if r.second = 60 then r.nanos + 1000000000 else r.nanos⟩ text

/-- The day number of a date with a year of four digits. -/
theorem dayNumber_bounds {date : Calendar.Date} (hvalid : date.isValid = true) (hyear : 0 ≤ date.year ∧ date.year < 10000) :
    -1000000 ≤ date.dayNumber ∧ date.dayNumber ≤ 4000000 := by
  have hmonths : ∀ leap, ∀ month ≤ 12, Calendar.daysBeforeMonth leap month ≤ 366 := by decide
  have hdays : ∀ leap, ∀ month ≤ 12, (Calendar.monthLengths leap).getD (month - 1) 0 ≤ 31 := by decide
  simp only [Calendar.Date.isValid, Bool.and_eq_true, decide_eq_true_eq] at hvalid
  obtain ⟨⟨⟨-, hmonth⟩, -⟩, hday⟩ := hvalid
  have hbefore := hmonths (Calendar.isLeap date.year) date.month hmonth
  have hlast := hdays (Calendar.isLeap date.year) date.month hmonth
  simp only [Calendar.Date.dayNumber, Calendar.daysBeforeYear, Calendar.epochOffset]
  omega

/-- Every instant that a text says can be represented, and its clock can be read. -/
theorem showsDate_of_shows {r : ClockReading} {text : List Char} (h : Written.Shows r text) (hvalid : r.date.isValid = true) :
    r.showsDate = true ∧ -1000000 ≤ r.date.dayNumber ∧ r.date.dayNumber ≤ 4000000 := by
  have hyear : 0 ≤ r.date.year ∧ r.date.year < 10000 := by
    cases h with
    | intro year' => exact ⟨Int.natCast_nonneg _, Int.ofNat_lt.mpr year'⟩
  refine ⟨?_, dayNumber_bounds hvalid hyear⟩
  simp only [ClockReading.showsDate, hvalid, Bool.and_true, Bool.and_eq_true, decide_eq_true_eq]
  omega

/-- The strict reader gives an instant exactly where a text says it. -/
theorem readStrict?_eq_some_iff {t : Instant} {text : String} : readStrict? text = some t ↔ IsWritten t text.toList := by
  rw [readStrict?, Option.bind_eq_some_iff]
  constructor
  · rintro ⟨r, hr, hinstant⟩
    have hshows := Written.strict?_eq_some_iff.mp hr
    have hvalid : r.showsDate = true → r.date.isValid = true := by
      intro h
      simp only [ClockReading.showsDate, Bool.and_eq_true] at h
      exact h.2
    simp only [ClockReading.instant?] at hinstant
    split_ifs at hinstant with hleap hfields hfields
    · obtain ⟨hdate, hhour, hminute, hsecond, hlow, hhigh, -⟩ := hfields
      have hwritten := IsWritten.intro hshows (hvalid hdate) hhour hminute hsecond ⟨hlow, hhigh⟩
      rw [if_pos hleap, hleap, show min 60 59 = 59 from rfl] at hwritten
      exact Option.some.inj hinstant ▸ hwritten
    · obtain ⟨hdate, hhour, hminute, hsecond, hlow, hhigh, -⟩ := hfields
      have hwritten := IsWritten.intro hshows (hvalid hdate) hhour hminute hsecond ⟨hlow, hhigh⟩
      rw [if_neg hleap, Nat.min_eq_left (by omega)] at hwritten
      exact Option.some.inj hinstant ▸ hwritten
  · intro hwritten
    obtain ⟨hshows, hdate, hhour, hminute, hsecond, hlow, hhigh⟩ := hwritten
    rename_i r
    refine ⟨r, Written.strict?_eq_some_iff.mpr hshows, ?_⟩
    obtain ⟨hshown, hdays⟩ := showsDate_of_shows hshows hdate
    have hrange : ∀ second ≤ 59, inRange (r.date.dayNumber * 86400 + (r.hour * 3600 + r.minute * 60 + second : Nat) - r.offset) = true := by
      intro second hsecond
      rw [inRange, firstSecond, lastSecond]
      exact Bool.and_eq_true_iff.mpr ⟨decide_eq_true (by omega), decide_eq_true (by omega)⟩
    simp only [ClockReading.instant?]
    split_ifs with hleap hfields hfields
    · rw [hleap]
      rfl
    · exact absurd ⟨hshown, hhour, hminute, hsecond, hlow, hhigh, hrange 59 (Nat.le_refl 59)⟩ hfields
    · rw [Nat.min_eq_left (by omega)]
    · exact absurd ⟨hshown, hhour, hminute, hsecond, hlow, hhigh, hrange r.second (by omega)⟩ hfields

end Instant

end ChannelWatch
