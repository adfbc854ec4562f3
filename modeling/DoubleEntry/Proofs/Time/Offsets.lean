import DoubleEntry.Proofs.Time.Calendar
import DoubleEntry.Proofs.Time.Order

/-!
# Local times

Clocks that are ahead of UTC or behind it show other minutes and the same seconds. The internet form
of a local time with the offset of its clocks is read as the timestamp that the ledger form gives in
UTC, over any end of a day, month or year and in a leap second, however much of a fraction is written.
-/

namespace DoubleEntry

namespace Time

open Text (isBlank isBlank_of_isDigit trim)
open Text.Reader

/-! ## Clocks -/

/-- How clocks are set: to UTC, or ahead of it in the east and behind it in the west. -/
inductive Zone where
  | utc
  | east (hours minutes : ℕ)
  | west (hours minutes : ℕ)

namespace Zone

/-- The minutes by which clocks are ahead of UTC. -/
def ahead : Zone → ℤ
  | utc => 0
  | east hours minutes => hours * 60 + minutes
  | west hours minutes => -(hours * 60 + minutes)

/-- Whether an offset is shorter than a day. -/
def IsValid : Zone → Prop
  | utc => True
  | east hours minutes | west hours minutes => hours ≤ 23 ∧ minutes ≤ 59

/-- The offset as it stands behind a local time. -/
def letters : Zone → List Char
  | utc => ['Z']
  | east hours minutes => '+' :: (Timestamp.padded 2 hours ++ ':' :: Timestamp.padded 2 minutes)
  | west hours minutes => '-' :: (Timestamp.padded 2 hours ++ ':' :: Timestamp.padded 2 minutes)

/-- An offset starts with a letter or a sign. -/
theorem not_isDigit_of_mem_head? {zone : Zone} {c : Char} (hc : c ∈ zone.letters.head?) :
    c.isDigit = false ∧ c ≠ '.' := by
  cases zone <;> obtain rfl := Option.some.inj hc <;> decide

end Zone

namespace Timestamp

/-- The minutes of a timestamp in one count through all days. -/
def minuteNumber (t : Timestamp) : ℤ := t.date.number * 1440 + t.hour * 60 + t.minute

/-- A timestamp whose date and time of day are what clocks of a zone show at another one. -/
structure ShownIn (zone : Zone) (t shown : Timestamp) : Prop where
  minuteNumber : shown.minuteNumber = t.minuteNumber + zone.ahead
  second : shown.second = t.second
  millisecond : shown.millisecond = t.millisecond

/-- A timestamp is found again from what clocks show at it. -/
theorem ShownIn.minusMinutes?_eq {zone : Zone} {t shown : Timestamp} (h : t.ShownIn zone shown) :
    shown.minusMinutes? zone.ahead = some t := by
  have hminutes := h.minuteNumber
  have hhour := t.hour_lt
  have hminute := t.minute_lt
  rw [Timestamp.minuteNumber, Timestamp.minuteNumber] at hminutes
  unfold minusMinutes?
  dsimp only
  -- The days between are counted by the minutes that exceed a day, the others are those of a day.
  have hdate : shown.date.shift ((shown.hour * 60 + shown.minute - zone.ahead) / 1440) = t.date := by
    apply Date.number_injective
    rw [Date.number_shift]
    omega
  have hhours : ((shown.hour * 60 + shown.minute - zone.ahead) % 1440 / 60).toNat = t.hour := by
    omega
  have hminutes : ((shown.hour * 60 + shown.minute - zone.ahead) % 60).toNat = t.minute := by
    omega
  rw [hdate, hhours, hminutes, h.second, h.millisecond, on?, dif_pos ⟨⟨t.firstYear_le,
    t.le_lastYear⟩, ⟨t.hour_lt, t.minute_lt⟩, t.second_le, t.millisecond_lt⟩]

/-! ## Fractions -/

/-- A fraction of a second as it is written: nothing, or a point and its digits. -/
def fractionLetters : List Char → List Char
  | [] => []
  | digits => '.' :: digits

/-- The whole milliseconds of a fraction. -/
def wholeMilliseconds (digits : List Char) : ℕ :=
  Nat.ofDigitChars 10 digits 0 * 1000 / 10 ^ digits.length

/-- A timestamp in ledger form with a fraction. -/
def ledgerLetters (t : Timestamp) (digits : List Char) : List Char :=
  t.upToSecond ' ' (fractionLetters digits)

/-- A timestamp in internet form with a fraction, as clocks of a zone show it. -/
def internetLetters (shown : Timestamp) (separator : Char) (digits : List Char) (zone : Zone) :
    List Char :=
  shown.upToSecond separator (fractionLetters digits ++ zone.letters)

end Timestamp

namespace Reader

open Timestamp

/-- The milliseconds that are read are the whole ones of the fraction. -/
theorem milliseconds_digitValues {digits : List Char} (h : ∀ c ∈ digits, c.isDigit = true) :
    milliseconds (digitValues digits) = wholeMilliseconds digits := by
  -- Three digits are taken from the fraction with zeros behind; what is left is less than one of
  -- the third.
  let filled := digits ++ ['0', '0', '0']
  have hfilled : ∀ c ∈ filled, c.isDigit = true :=
    List.forall_mem_append.mpr ⟨h, by simp⟩
  have htaken : milliseconds (digitValues digits) = Nat.ofDigitChars 10 (filled.take 3) 0 := by
    rw [milliseconds, ← ofDigits_digitValues, digitValues, digitValues, List.map_take,
      List.map_append]
    rfl
  have hvalue : Nat.ofDigitChars 10 filled 0 = Nat.ofDigitChars 10 digits 0 * 1000 := by
    rw [Nat.ofDigitChars_append]
    simp only [Nat.ofDigitChars_cons, Nat.ofDigitChars_nil]
    omega
  have hleft : (filled.drop 3).length = digits.length := by
    simp [filled]
  have hbehind : ∀ c ∈ filled.drop 3, c.isDigit = true := fun c hc =>
    hfilled c (List.mem_of_mem_drop hc)
  have hbounds := ofDigitChars_bounds hbehind (Nat.ofDigitChars 10 (filled.take 3) 0)
  rw [← Nat.ofDigitChars_append, List.take_append_drop, hvalue, hleft] at hbounds
  rw [htaken, wholeMilliseconds]
  exact (Nat.div_eq_of_lt_le hbounds.1 hbounds.2).symm

/-- A fraction is read before anything that cannot be a part of it. -/
theorem fraction_fractionLetters {digits rest : List Char} (h : ∀ c ∈ digits, c.isDigit = true)
    (hrest : ∀ c ∈ rest.head?, c.isDigit = false ∧ c ≠ '.') :
    fraction (fractionLetters digits ++ rest) = some (wholeMilliseconds digits, rest) := by
  cases digits with
  | nil =>
    change fraction rest = _
    rw [fraction, bind_of_eq_some (get_apply _)]
    split
    next c cs => exact absurd rfl (hrest '.' rfl).2
    next => rfl
  | cons d ds =>
    change fraction ('.' :: (d :: ds ++ rest)) = _
    rw [fraction_point, map_of_eq_some (allDigits_append h (by simp) fun c hc => (hrest c hc).1),
      milliseconds_digitValues h]

/-! ## The internet form -/

/-- A number of as many digits as are asked for is read. -/
theorem number_padded_exactly {width n : ℕ} (hwidth : 0 < width) (h : n < 10 ^ width)
    (rest : List Char) : number width width (padded width n ++ rest) = some (n, rest) := by
  have hlength := length_padded hwidth h
  rw [number_append (fun c hc => isDigit_of_mem_padded hc) (by omega) (Or.inl hlength),
    ofDigitChars_padded]

/-- The separator between date and time is taken. -/
theorem separator_cons {c : Char} (h : c = 'T' ∨ c = 't' ∨ c = ' ') (rest : List Char) :
    separator (c :: rest) = some ((), rest) := if_pos h

/-- Hours and minutes of an offset are read behind its sign. -/
theorem offset_signed {sign : Char} (hsign : sign = '+' ∨ sign = '-') {hours minutes : ℕ}
    (hhours : hours ≤ 23) (hminutes : minutes ≤ 59) :
    offset (sign :: (padded 2 hours ++ ':' :: padded 2 minutes)) =
      some (if sign = '+' then (hours * 60 + minutes : ℤ) else -(hours * 60 + minutes), []) := by
  have hnumber : number 2 2 (padded 2 minutes ++ []) = some (minutes, []) :=
    number_padded_exactly (by decide) (by omega) []
  rw [List.append_nil] at hnumber
  have hutc : ¬(sign = 'Z' ∨ sign = 'z') := by
    rcases hsign with rfl | rfl <;> decide
  have hother : sign = '+' ∨ sign = '-' ∨ sign = '\u2212' := hsign.imp_right .inl
  have hsize : minutes < 60 ∧ (hours * 60 + minutes : ℤ) ≤ largestOffset := by
    rw [largestOffset]
    omega
  have hset : ∀ cs : List Char, (set cs : Text.Reader PUnit) (sign :: cs) = some ((), cs) :=
    fun _ => rfl
  rw [offset, bind_of_eq_some (get_apply _)]
  dsimp only
  rw [bind_of_eq_some (hset _), if_neg hutc, if_pos hother,
    bind_of_eq_some (number_padded_exactly (by decide) (by omega) _),
    bind_of_eq_some (expect_cons _ _), bind_of_eq_some hnumber, if_pos hsize]
  rfl

/-- The offset of clocks is read. -/
theorem offset_letters {zone : Zone} (h : zone.IsValid) :
    offset zone.letters = some (zone.ahead, []) := by
  cases zone with
  | utc => rfl
  | east hours minutes => exact offset_signed (.inl rfl) h.1 h.2
  | west hours minutes => exact offset_signed (.inr rfl) h.1 h.2

/-- The internet form of what clocks show is read. -/
theorem internetForm_internetLetters {zone : Zone} (hzone : zone.IsValid) {t shown : Timestamp}
    (hshown : t.ShownIn zone shown) (hfour : shown.HasFourDigits) {separator : Char}
    (hseparator : separator = 'T' ∨ separator = 't' ∨ separator = ' ') {digits : List Char}
    (hdigits : ∀ c ∈ digits, c.isDigit = true) (hcut : t.millisecond = wholeMilliseconds digits) :
    internetForm (shown.internetLetters separator digits zone) = some (t, []) := by
  have hmonth := shown.date.month_le
  have hday : shown.date.day ≤ 31 := shown.date.day_le.trans (daysInMonth_le _ _)
  have hhour := shown.hour_lt
  have hminute := shown.minute_lt
  have hsecond := shown.second_le
  obtain ⟨hyear, hyear'⟩ := hfour
  have hfraction := fraction_fractionLetters hdigits fun c hc => zone.not_isDigit_of_mem_head? hc
  rw [← hcut, ← hshown.millisecond] at hfraction
  have hof : Timestamp.of? (shown.date.year.natAbs : ℕ) shown.date.month shown.date.day shown.hour
      shown.minute shown.second shown.millisecond = some shown := by
    rw [Int.natAbs_of_nonneg hyear]
    exact of?_components shown
  unfold internetForm internetLetters upToSecond
  rw [yearText_of_four_digits hyear hyear',
    bind_of_eq_some (number_padded_exactly (by decide) (by omega) _),
    bind_of_eq_some (expect_cons _ _),
    bind_of_eq_some (number_padded_exactly (by decide) (by omega) _),
    bind_of_eq_some (expect_cons _ _),
    bind_of_eq_some (number_padded_exactly (by decide) (by omega) _),
    bind_of_eq_some (separator_cons hseparator _),
    bind_of_eq_some (number_padded_exactly (by decide) (by omega) _),
    bind_of_eq_some (expect_cons _ _),
    bind_of_eq_some (number_padded_exactly (by decide) (by omega) _),
    bind_of_eq_some (expect_cons _ _),
    bind_of_eq_some (number_padded_exactly (by decide) (by omega) _),
    bind_of_eq_some hfraction, bind_of_eq_some (offset_letters hzone), hof]
  change (liftM (shown.minusMinutes? zone.ahead) : Text.Reader Timestamp) [] = _
  rw [hshown.minusMinutes?_eq]
  rfl

/-- An internet form is no ledger form: it has a letter where blanks are skipped, or goes on behind
the fraction. -/
theorem whole?_ledgerForm_internetLetters (zone : Zone) (shown : Timestamp) {separator : Char}
    (hseparator : separator = 'T' ∨ separator = 't' ∨ separator = ' ') {digits : List Char}
    (hdigits : ∀ c ∈ digits, c.isDigit = true)
    (hcut : shown.millisecond = wholeMilliseconds digits) :
    whole? ledgerForm (shown.internetLetters separator digits zone) = none := by
  have hmonth := shown.date.month_le
  have hday : shown.date.day ≤ 31 := shown.date.day_le.trans (daysInMonth_le _ _)
  have hletter : ∀ behind, (separator = 'T' ∨ separator = 't') →
      ledgerForm (shown.upToSecond separator behind) = none := by
    intro behind hletter
    have hstop : ∀ cs, (skipBlanks >>= fun _ => looseNumber) (separator :: cs) = none := by
      intro cs
      rcases hletter with rfl | rfl <;> rfl
    unfold ledgerForm upToSecond
    rw [bind_of_eq_some (looseYear_yearText _ _), bind_of_eq_some (expect_cons _ _),
      bind_of_eq_some (looseNumber_padded (by omega) _), bind_of_eq_some (expect_cons _ _),
      bind_of_eq_some (looseNumber_padded (by omega) _), ← bind_assoc, bind_of_eq_none (hstop _)]
  rw [whole?, internetLetters]
  rcases hseparator with rfl | rfl | rfl
  · rw [hletter _ (.inl rfl)]
  · rw [hletter _ (.inr rfl)]
  · have hfraction := fraction_fractionLetters hdigits fun c hc => zone.not_isDigit_of_mem_head? hc
    rw [← hcut] at hfraction
    rw [ledgerForm_upToSecond shown hfraction]
    cases zone <;> rfl

end Reader

namespace Timestamp

/-! ## Both forms -/

/-- A timestamp up to its second ends with the second. -/
theorem exists_upToSecond_eq_append (t : Timestamp) (separator : Char) (behind : List Char) :
    ∃ front, t.upToSecond separator behind = front ++ (padded 2 t.second ++ behind) :=
  ⟨yearText t.date.year ++ '-' :: (padded 2 t.date.month ++ '-' :: (padded 2 t.date.day ++
    separator :: (padded 2 t.hour ++ ':' :: (padded 2 t.minute ++ [':'])))), by simp [upToSecond]⟩

/-- Blanks around a timestamp in a year of four digits are trimmed. -/
theorem HasFourDigits.trim_eq {t : Timestamp} (h : t.HasFourDigits) {separator : Char}
    {behind : List Char} (hlast : ∀ c ∈ behind.getLast?, isBlank c = false) {text : String}
    (htext : Text.Wraps text (t.upToSecond separator behind)) :
    trim text.toList = t.upToSecond separator behind := by
  have hfirst : ∀ c ∈ (t.upToSecond separator behind).head?, isBlank c = false := by
    intro c hc
    rw [upToSecond, yearText_of_four_digits h.1 h.2] at hc
    exact isBlank_of_isDigit (isDigit_of_mem_head?_padded hc)
  obtain ⟨before, hbefore⟩ := t.exists_upToSecond_eq_append separator behind
  have hne : padded 2 t.second ++ behind ≠ [] := List.append_ne_nil_of_left_ne_nil
    (padded_ne_nil _ _) _
  apply htext.trim_eq
  · rw [hbefore]
    exact List.append_ne_nil_of_right_ne_nil _ hne
  · exact hfirst
  · intro c hc
    rw [hbefore, List.getLast?_append_of_ne_nil _ hne, List.getLast?_append] at hc
    cases hend : behind.getLast? with
    | some d =>
      rw [hend] at hc hlast
      exact hlast c hc
    | none =>
      rw [hend] at hc
      exact isBlank_of_isDigit (isDigit_of_mem_padded (List.mem_of_mem_getLast? hc))

/-- A fraction ends with a digit. -/
theorem isBlank_of_mem_getLast?_fractionLetters {digits : List Char}
    (h : ∀ c ∈ digits, c.isDigit = true) :
    ∀ c ∈ (fractionLetters digits).getLast?, isBlank c = false := by
  cases digits with
  | nil => exact fun c hc => absurd hc (by simp [fractionLetters])
  | cons d ds =>
    intro c hc
    have hlast : c ∈ (d :: ds).getLast? := List.getLast?_cons_cons ▸ hc
    exact isBlank_of_isDigit (h c (List.mem_of_mem_getLast? hlast))

/-- An offset ends with a letter or a digit. -/
theorem isBlank_of_mem_getLast?_zone (zone : Zone) (before : List Char) :
    ∀ c ∈ (before ++ zone.letters).getLast?, isBlank c = false := by
  have hsigned : ∀ (sign : Char) (hours minutes : ℕ),
      ∀ c ∈ (before ++ sign :: (padded 2 hours ++ ':' :: padded 2 minutes)).getLast?,
        isBlank c = false := by
    intro sign hours minutes c hc
    have hsplit : before ++ sign :: (padded 2 hours ++ ':' :: padded 2 minutes) =
        (before ++ sign :: (padded 2 hours ++ [':'])) ++ padded 2 minutes := by simp
    rw [hsplit, List.getLast?_append_of_ne_nil _ (padded_ne_nil _ _)] at hc
    exact isBlank_of_isDigit (isDigit_of_mem_padded (List.mem_of_mem_getLast? hc))
  cases zone with
  | utc =>
    intro c hc
    rw [Zone.letters, List.getLast?_append_of_ne_nil _ (List.cons_ne_nil _ _)] at hc
    obtain rfl := Option.some.inj hc
    decide
  | east hours minutes => exact hsigned '+' hours minutes
  | west hours minutes => exact hsigned '-' hours minutes

/-- The ledger form with any fraction is read as the timestamp with its whole milliseconds. -/
theorem parse?_of_wraps_ledgerLetters {t : Timestamp} (ht : t.HasFourDigits) {digits : List Char}
    (hdigits : ∀ c ∈ digits, c.isDigit = true) (hcut : t.millisecond = wholeMilliseconds digits)
    {text : String} (htext : Text.Wraps text (t.ledgerLetters digits)) : parse? text = some t := by
  have htrim := ht.trim_eq (isBlank_of_mem_getLast?_fractionLetters hdigits) htext
  have hfraction := Reader.fraction_fractionLetters hdigits (by simp : ∀ c ∈ ([] : List Char).head?, _)
  rw [List.append_nil, ← hcut] at hfraction
  rw [parse?, htrim, whole?, Reader.ledgerForm_upToSecond t hfraction]
  rfl

/-- The internet form of what clocks show at a timestamp is read as the timestamp. -/
theorem parse?_of_wraps_internetLetters {zone : Zone} (hzone : zone.IsValid) {t shown : Timestamp}
    (hshown : t.ShownIn zone shown) (hfour : shown.HasFourDigits) {separator : Char}
    (hseparator : separator = 'T' ∨ separator = 't' ∨ separator = ' ') {digits : List Char}
    (hdigits : ∀ c ∈ digits, c.isDigit = true) (hcut : t.millisecond = wholeMilliseconds digits)
    {text : String} (htext : Text.Wraps text (shown.internetLetters separator digits zone)) :
    parse? text = some t := by
  have htrim := hfour.trim_eq (isBlank_of_mem_getLast?_zone zone (fractionLetters digits)) htext
  have hother := Reader.whole?_ledgerForm_internetLetters zone shown hseparator hdigits
    (hshown.millisecond.trans hcut)
  have hread := Reader.internetForm_internetLetters hzone hshown hfour hseparator hdigits hcut
  rw [internetLetters] at hother hread
  rw [parse?, htrim, hother, Option.none_or, whole?, hread]

/-- The local time that clocks of a zone show at a timestamp, in internet form with the offset of the
zone, is read as the time in UTC in ledger form is: as that timestamp, whose milliseconds are the
whole ones of the fraction. Blanks around either text make no difference. -/
theorem local_time_reads_as_utc {zone : Zone} (hzone : zone.IsValid) {t shown : Timestamp}
    (hshown : t.ShownIn zone shown) (ht : t.HasFourDigits) (hfour : shown.HasFourDigits)
    {separator : Char} (hseparator : separator = 'T' ∨ separator = 't' ∨ separator = ' ')
    {digits : List Char} (hdigits : ∀ c ∈ digits, c.isDigit = true)
    (hcut : t.millisecond = wholeMilliseconds digits) {civil utc : String}
    (hcivil : Text.Wraps civil (shown.internetLetters separator digits zone))
    (hutc : Text.Wraps utc (t.ledgerLetters digits)) :
    parse? civil = parse? utc ∧ parse? utc = some t := by
  have hread := parse?_of_wraps_internetLetters hzone hshown hfour hseparator hdigits hcut hcivil
  have hread' := parse?_of_wraps_ledgerLetters ht hdigits hcut hutc
  exact ⟨hread.trans hread'.symm, hread'⟩

/-- In India it is half past five in the new year when the leap second ends the old one in UTC. -/
theorem local_time_reads_as_utc_newYear :
    ∃ t shown, Timestamp.of? 2016 12 31 23 59 60 999 = some t ∧
      Timestamp.of? 2017 1 1 5 29 60 999 = some shown ∧
      (Zone.east 5 30).IsValid ∧ t.ShownIn (.east 5 30) shown ∧ t.HasFourDigits ∧
      shown.HasFourDigits ∧ t.millisecond = wholeMilliseconds ['9', '9', '9', '9'] ∧
      Text.Wraps "2017-01-01T05:29:60.9999+05:30"
        (shown.internetLetters 'T' ['9', '9', '9', '9'] (.east 5 30)) ∧
      Text.Wraps " 2016-12-31 23:59:60.9999\n" (t.ledgerLetters ['9', '9', '9', '9']) ∧
      parse? "2017-01-01T05:29:60.9999+05:30" = parse? " 2016-12-31 23:59:60.9999\n" ∧
      parse? " 2016-12-31 23:59:60.9999\n" = some t := by
  obtain ⟨t, ht⟩ : ∃ t, Timestamp.of? 2016 12 31 23 59 60 999 = some t := ⟨_, rfl⟩
  obtain ⟨shown, hshown⟩ : ∃ t, Timestamp.of? 2017 1 1 5 29 60 999 = some t := ⟨_, rfl⟩
  have hzone : (Zone.east 5 30).IsValid := ⟨by decide, by decide⟩
  have hboth : t.ShownIn (.east 5 30) shown ∧ t.HasFourDigits ∧ shown.HasFourDigits ∧
      t.millisecond = wholeMilliseconds ['9', '9', '9', '9'] := by
    obtain rfl := Option.some.inj ht
    obtain rfl := Option.some.inj hshown
    exact ⟨⟨by decide, rfl, rfl⟩, ⟨by decide, by decide⟩, ⟨by decide, by decide⟩, by decide⟩
  have hcivil : Text.Wraps "2017-01-01T05:29:60.9999+05:30"
      (shown.internetLetters 'T' ['9', '9', '9', '9'] (.east 5 30)) := by
    obtain rfl := Option.some.inj hshown
    exact ⟨[], [], by simp, by simp, by decide +kernel⟩
  have hutc : Text.Wraps " 2016-12-31 23:59:60.9999\n"
      (t.ledgerLetters ['9', '9', '9', '9']) := by
    obtain rfl := Option.some.inj ht
    exact ⟨[' '], ['\n'], by simp [isBlank], by simp [isBlank], by decide +kernel⟩
  obtain ⟨hshows, hfour, hfour', hcut⟩ := hboth
  exact ⟨t, shown, ht, hshown, hzone, hshows, hfour, hfour', hcut, hcivil, hutc,
    local_time_reads_as_utc hzone hshows hfour hfour' (.inl rfl) (by simp) hcut hcivil hutc⟩

end Timestamp

end Time

end DoubleEntry
