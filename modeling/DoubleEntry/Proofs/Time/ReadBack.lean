import DoubleEntry.Proofs.Text.Digits
import DoubleEntry.Time.Text

/-!
# Timestamps read back

Every timestamp is read back from its ledger form, whatever its year: years of four digits, years
behind a sign, and leap seconds alike. So a stored timestamp text is never in need of repair, and
reading and writing it again gives the same text.
-/

namespace DoubleEntry.Time

open Text (trim trimLeft)
open Text.Reader

/-! ## Padded numbers -/

namespace Timestamp

/-- A padded number is made of digits. -/
theorem isDigit_of_mem_padded {width n : Nat} {c : Char} (h : c ∈ padded width n) :
    c.isDigit = true := by
  rcases List.mem_append.mp h with h | h
  · rw [List.eq_of_mem_replicate h]
    rfl
  · exact Nat.isDigit_of_mem_toDigits (by decide) (by decide) h

/-- A padded number has at least one digit. -/
theorem padded_ne_nil (width n : Nat) : padded width n ≠ [] := by
  intro h
  exact Nat.toDigits_ne_nil (List.append_eq_nil_iff.mp h).2

/-- A number that is not too long has exactly the width to which it is padded. -/
theorem length_padded {width n : Nat} (hwidth : 0 < width) (h : n < 10 ^ width) :
    (padded width n).length = width := by
  have hle : (Nat.toDigits 10 n).length ≤ width :=
    (Nat.length_toDigits_le_iff (by decide) hwidth).mpr h
  simp only [padded, List.length_append, List.length_replicate]
  omega

/-- Padding does not change the number that is written. -/
theorem ofDigitChars_padded (width n : Nat) : Nat.ofDigitChars 10 (padded width n) 0 = n := by
  rw [padded, Nat.ofDigitChars_append, Nat.ofDigitChars_replicate_zero, Nat.mul_zero,
    Nat.ofDigitChars_ten_toDigits]

/-- A timestamp up to its second, with a separator between date and time, and what comes behind. -/
def upToSecond (t : Timestamp) (separator : Char) (behind : List Char) : List Char :=
  yearText t.date.year ++ '-' :: (padded 2 t.date.month ++ '-' :: (padded 2 t.date.day ++
    separator :: (padded 2 t.hour ++ ':' :: (padded 2 t.minute ++ ':' :: (padded 2 t.second ++
      behind)))))

/-- A text that starts with a padded number starts with a digit. -/
theorem isDigit_of_mem_head?_padded {width n : Nat} {rest : List Char} {c : Char}
    (h : c ∈ (padded width n ++ rest).head?) : c.isDigit = true := by
  rw [List.head?_append_of_ne_nil _ (padded_ne_nil width n)] at h
  exact isDigit_of_mem_padded (List.mem_of_mem_head? h)

end Timestamp

/-- No month is longer than two digits can tell. -/
theorem daysInMonth_le (year : Int) (month : Nat) : daysInMonth year month ≤ 31 := by
  unfold daysInMonth
  repeat' split
  all_goals decide

/-- The components of a date are those of that date only. -/
theorem Date.of?_components (d : Date) : Date.of? d.year d.month d.day = some d := by
  rw [Date.of?, dif_pos ⟨⟨d.month_pos, d.month_le⟩, d.day_pos, d.day_le⟩]

/-- The components of a timestamp are those of that timestamp only. -/
theorem Timestamp.of?_components (t : Timestamp) :
    Timestamp.of? t.date.year t.date.month t.date.day t.hour t.minute t.second t.millisecond =
      some t := by
  rw [Timestamp.of?, Date.of?_components]
  change Timestamp.on? t.date t.hour t.minute t.second t.millisecond = some t
  rw [Timestamp.on?, dif_pos ⟨⟨t.firstYear_le, t.le_lastYear⟩, ⟨t.hour_lt, t.minute_lt⟩,
    t.second_le, t.millisecond_lt⟩]

namespace Reader

open Timestamp

/-- A number is read back after as many digits as it is padded to. -/
theorem number_padded {width n : Nat} (hwidth : 0 < width) (h : n < 10 ^ width) (rest : List Char) :
    number 1 width (padded width n ++ rest) = some (n, rest) := by
  have hlength := length_padded hwidth h
  rw [number_append (fun c hc => isDigit_of_mem_padded hc) (by omega) (Or.inl hlength),
    ofDigitChars_padded]

/-- A padded number has no blank in front. -/
theorem trimLeft_padded (width n : Nat) (rest : List Char) :
    trimLeft (padded width n ++ rest) = padded width n ++ rest :=
  Text.trimLeft_eq_self fun _ hc => Text.isBlank_of_isDigit (isDigit_of_mem_head?_padded hc)

/-- A component of two digits is read back. -/
theorem looseNumber_padded {n : Nat} (h : n < 100) (rest : List Char) :
    looseNumber (padded 2 n ++ rest) = some (n, rest) := by
  have hskip : skipBlanks (padded 2 n ++ rest) = some ((), padded 2 n ++ rest) := by
    rw [skipBlanks, trimLeft_padded]
  rw [looseNumber, bind_of_eq_some hskip]
  exact number_padded (by decide) h rest

/-- The blank between date and time is skipped. -/
theorem skipBlanks_padded (width n : Nat) (rest : List Char) :
    skipBlanks (' ' :: (padded width n ++ rest)) = some ((), padded width n ++ rest) := by
  have h : trimLeft (' ' :: (padded width n ++ rest)) = padded width n ++ rest :=
    trimLeft_padded width n rest
  rw [skipBlanks, h]

/-- All digits of a padded number are read back before anything but a digit. -/
theorem allDigits_padded (width n : Nat) {rest : List Char}
    (hrest : ∀ c ∈ rest.head?, c.isDigit = false) :
    (Number.ofDigits <$> allDigits) (padded width n ++ rest) = some (n, rest) := by
  have h := allDigits_append (fun c hc => isDigit_of_mem_padded hc) (padded_ne_nil width n) hrest
  rw [map_of_eq_some h, ofDigits_digitValues, ofDigitChars_padded]

/-- Three digits of a fraction are its milliseconds. -/
theorem milliseconds_padded {n : Nat} (h : n < 1000) :
    milliseconds (digitValues (padded 3 n)) = n := by
  have hlength : (digitValues (padded 3 n)).length = 3 := by
    rw [digitValues, List.length_map]
    exact length_padded (by decide) h
  rw [milliseconds, List.take_append_of_le_length (by omega), List.take_of_length_le (by omega),
    ofDigits_digitValues, ofDigitChars_padded]

/-- A point is followed by all digits of a fraction. -/
theorem fraction_point (cs : List Char) :
    fraction ('.' :: cs) = (milliseconds <$> allDigits) cs := by
  rw [fraction, bind_of_eq_some (get_apply _)]
  rfl

/-- The milliseconds at the end of a text are read back. -/
theorem fraction_padded {n : Nat} (h : n < 1000) :
    fraction ('.' :: padded 3 n) = some (n, []) := by
  have hdigits : allDigits (padded 3 n ++ []) = some (digitValues (padded 3 n), []) :=
    allDigits_append (fun c hc => isDigit_of_mem_padded hc) (padded_ne_nil 3 n) (by simp)
  rw [List.append_nil] at hdigits
  rw [fraction_point, map_of_eq_some hdigits, milliseconds_padded h]

/-- A minus is followed by all digits of a year before the year zero. -/
theorem looseYear_minus (cs : List Char) :
    looseYear ('-' :: cs) = ((fun n : Nat => -(n : Int)) <$> Number.ofDigits <$> allDigits) cs := by
  rw [looseYear, bind_of_eq_some (skipBlanks_eq_self (by simp; decide)),
    bind_of_eq_some (get_apply _)]
  rfl

/-- A plus is followed by all digits of a year. -/
theorem looseYear_plus (cs : List Char) :
    looseYear ('+' :: cs) = ((fun n : Nat => (n : Int)) <$> Number.ofDigits <$> allDigits) cs := by
  rw [looseYear, bind_of_eq_some (skipBlanks_eq_self (by simp; decide)),
    bind_of_eq_some (get_apply _)]
  rfl

/-- A year is read back before a hyphen, with or without a sign. -/
theorem looseYear_yearText (year : Int) (rest : List Char) :
    looseYear (yearText year ++ '-' :: rest) = some (year, '-' :: rest) := by
  have hstop : ∀ c ∈ ('-' :: rest).head?, c.isDigit = false := by simp
  have hread := allDigits_padded 4 year.natAbs hstop
  have hdigit : ∀ c ∈ (padded 4 year.natAbs ++ '-' :: rest).head?, c.isDigit = true :=
    fun c hc => isDigit_of_mem_head?_padded hc
  unfold yearText
  split
  · -- A negative year stands behind a minus.
    have hyear : -(year.natAbs : Int) = year := by omega
    rw [List.cons_append]
    generalize padded 4 year.natAbs ++ '-' :: rest = cs at hread
    rw [looseYear_minus, map_of_eq_some hread, hyear]
  · split
    · -- A year of more than four digits stands behind a plus.
      have hyear : (year.natAbs : Int) = year := by omega
      rw [List.cons_append]
      generalize padded 4 year.natAbs ++ '-' :: rest = cs at hread
      rw [looseYear_plus, map_of_eq_some hread, hyear]
    · have hyear : (year.natAbs : Int) = year := by omega
      have hnumber : number 1 4 (padded 4 year.natAbs ++ '-' :: rest) =
          some (year.natAbs, '-' :: rest) := number_padded (by decide) (by omega) _
      generalize padded 4 year.natAbs ++ '-' :: rest = cs at hnumber hdigit
      rw [looseYear, bind_of_eq_some
        (skipBlanks_eq_self fun c hc => Text.isBlank_of_isDigit (hdigit c hc)),
        bind_of_eq_some (get_apply _)]
      split
      · exact absurd (hdigit '-' rfl) (by decide)
      · exact absurd (hdigit '+' rfl) (by decide)
      · rw [bind_of_eq_some hnumber, hyear]
        rfl

/-- The ledger form is read up to the second, and then a fraction with the milliseconds. -/
theorem ledgerForm_upToSecond (t : Timestamp) {cs rest : List Char}
    (hfraction : fraction cs = some (t.millisecond, rest)) :
    ledgerForm (t.upToSecond ' ' cs) = some (t, rest) := by
  have hmonth := t.date.month_le
  have hday : t.date.day ≤ 31 := t.date.day_le.trans (daysInMonth_le _ _)
  have hhour := t.hour_lt
  have hminute := t.minute_lt
  have hsecond := t.second_le
  have hof : Timestamp.of? t.date.year t.date.month t.date.day t.hour t.minute t.second
      t.millisecond = some t := of?_components t
  unfold ledgerForm upToSecond
  rw [bind_of_eq_some (looseYear_yearText _ _), bind_of_eq_some (expect_cons _ _),
    bind_of_eq_some (looseNumber_padded (by omega) _), bind_of_eq_some (expect_cons _ _),
    bind_of_eq_some (looseNumber_padded (by omega) _), bind_of_eq_some (skipBlanks_padded _ _ _),
    bind_of_eq_some (looseNumber_padded (by omega) _), bind_of_eq_some (expect_cons _ _),
    bind_of_eq_some (looseNumber_padded (by omega) _), bind_of_eq_some (expect_cons _ _),
    bind_of_eq_some (looseNumber_padded (by omega) _), bind_of_eq_some hfraction, hof]
  rfl

/-- The ledger form of a timestamp is read back. -/
theorem ledgerForm_letters (t : Timestamp) : ledgerForm t.letters = some (t, []) :=
  ledgerForm_upToSecond t (fraction_padded t.millisecond_lt)

end Reader

namespace Timestamp

/-- The ledger form ends with the milliseconds. -/
theorem exists_letters_eq_append (t : Timestamp) :
    ∃ front, t.letters = front ++ padded 3 t.millisecond :=
  ⟨yearText t.date.year ++ '-' :: (padded 2 t.date.month ++ '-' :: (padded 2 t.date.day ++
    ' ' :: (padded 2 t.hour ++ ':' :: (padded 2 t.minute ++ ':' :: (padded 2 t.second ++ ['.']))))),
    by simp [letters]⟩

/-- The ledger form has no blanks at its ends. -/
theorem trim_letters (t : Timestamp) : trim t.letters = t.letters := by
  apply Text.trim_eq_self
  · intro c hc
    unfold letters yearText at hc
    split at hc
    · obtain rfl : '-' = c := by simpa using hc
      decide
    · split at hc
      · obtain rfl : '+' = c := by simpa using hc
        decide
      · exact Text.isBlank_of_isDigit (isDigit_of_mem_head?_padded hc)
  · intro c hc
    have hlast : c ∈ (padded 3 t.millisecond).getLast? := by
      obtain ⟨front, hfront⟩ := exists_letters_eq_append t
      rwa [hfront, List.getLast?_append_of_ne_nil _ (padded_ne_nil 3 _)] at hc
    exact Text.isBlank_of_isDigit (isDigit_of_mem_padded (List.mem_of_mem_getLast? hlast))

/-- Every timestamp is read back from its ledger form. -/
theorem parse?_render (t : Timestamp) : parse? t.render = some t := by
  rw [parse?, render, String.toList_ofList, trim_letters, whole?, Reader.ledgerForm_letters]
  rfl

end Timestamp

end DoubleEntry.Time
