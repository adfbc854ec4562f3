import DoubleEntry.Proofs.Time.ReadBack

/-!
# The order of timestamp texts

The store compares timestamps by their texts. Fields of fixed width are ordered like the numbers in
them, so texts with years of four digits are ordered like the points in time, and a year before zero
comes before all of these, as it should. Years past 9999 are written behind a plus sign, which comes
before every digit and before the minus sign: their texts are earlier than all others.
-/

namespace DoubleEntry.Time

open Text (toNat_of_isDigit)

namespace Timestamp

/-! ## Numbers of one width -/

/-- Digits behind a number make it a number between two multiples of a power of ten. -/
theorem ofDigitChars_bounds {ds : List Char} (hds : ∀ c ∈ ds, c.isDigit = true) (n : Nat) :
    n * 10 ^ ds.length ≤ Nat.ofDigitChars 10 ds n ∧
      Nat.ofDigitChars 10 ds n < (n + 1) * 10 ^ ds.length := by
  induction ds generalizing n with
  | nil => simp [Nat.ofDigitChars_nil]
  | cons d rest ih =>
    have hd : d.toNat - '0'.toNat ≤ 9 := by
      have hrange := toNat_of_isDigit (hds d List.mem_cons_self)
      have hzero : '0'.toNat = 48 := rfl
      omega
    obtain ⟨hle, hlt⟩ := ih (fun c hc => hds c (List.mem_cons_of_mem _ hc))
      (10 * n + (d.toNat - '0'.toNat))
    have hpow : 10 ^ (d :: rest).length = 10 * 10 ^ rest.length := by
      rw [List.length_cons, Nat.pow_succ, Nat.mul_comm]
    rw [Nat.ofDigitChars_cons, hpow]
    constructor
    · refine le_trans ?_ hle
      rw [← Nat.mul_assoc]
      exact Nat.mul_le_mul_right _ (by omega)
    · refine lt_of_lt_of_le hlt ?_
      rw [← Nat.mul_assoc]
      exact Nat.mul_le_mul_right _ (by omega)

/-- Equally many digits behind a smaller number make it a smaller number. -/
theorem ofDigitChars_lt_of_lt {xs ys : List Char} (hxs : ∀ c ∈ xs, c.isDigit = true)
    (hys : ∀ c ∈ ys, c.isDigit = true) (hlength : xs.length = ys.length) {m n : Nat} (h : m < n) :
    Nat.ofDigitChars 10 xs m < Nat.ofDigitChars 10 ys n :=
  calc Nat.ofDigitChars 10 xs m < (m + 1) * 10 ^ xs.length := (ofDigitChars_bounds hxs m).2
    _ ≤ n * 10 ^ xs.length := Nat.mul_le_mul_right _ h
    _ = n * 10 ^ ys.length := by rw [hlength]
    _ ≤ Nat.ofDigitChars 10 ys n := (ofDigitChars_bounds hys n).1

/-- Digit characters are ordered like their values. -/
theorem digit_lt_iff {x y : Char} (hx : x.isDigit = true) (hy : y.isDigit = true) :
    x < y ↔ x.toNat - '0'.toNat < y.toNat - '0'.toNat := by
  have hx' := toNat_of_isDigit hx
  have hy' := toNat_of_isDigit hy
  have hzero : '0'.toNat = 48 := rfl
  have horder : x < y ↔ x.toNat < y.toNat := Iff.rfl
  rw [horder]
  omega

/-- Equally many digits are ordered like the numbers that they write. -/
theorem digits_lt_iff {xs ys : List Char} (hxs : ∀ c ∈ xs, c.isDigit = true)
    (hys : ∀ c ∈ ys, c.isDigit = true) (hlength : xs.length = ys.length) (n : Nat) :
    xs < ys ↔ Nat.ofDigitChars 10 xs n < Nat.ofDigitChars 10 ys n := by
  induction xs generalizing ys n with
  | nil =>
    obtain rfl := List.length_eq_zero_iff.mp hlength.symm
    simp
  | cons x xs ih =>
    obtain ⟨y, ys, rfl⟩ := List.exists_cons_of_length_eq_add_one hlength.symm
    have hrest : xs.length = ys.length := Nat.succ.inj hlength
    have hx := hxs x List.mem_cons_self
    have hy := hys y List.mem_cons_self
    have hxs' : ∀ c ∈ xs, c.isDigit = true := fun c hc => hxs c (List.mem_cons_of_mem _ hc)
    have hys' : ∀ c ∈ ys, c.isDigit = true := fun c hc => hys c (List.mem_cons_of_mem _ hc)
    rw [List.cons_lt_cons_iff, Nat.ofDigitChars_cons, Nat.ofDigitChars_cons]
    obtain hlt | rfl | hgt := lt_trichotomy x y
    · have hvalues := (digit_lt_iff hx hy).mp hlt
      have hnumbers := ofDigitChars_lt_of_lt hxs' hys' hrest (Nat.add_lt_add_left hvalues (10 * n))
      exact iff_of_true (.inl hlt) hnumbers
    · simpa using ih hxs' hys' hrest _
    · have hvalues := (digit_lt_iff hy hx).mp hgt
      have hnumbers :=
        ofDigitChars_lt_of_lt hys' hxs' hrest.symm (Nat.add_lt_add_left hvalues (10 * n))
      refine iff_of_false ?_ hnumbers.not_gt
      rintro (hlt | ⟨rfl, -⟩)
      · exact absurd hlt hgt.not_gt
      · exact absurd hgt (lt_irrefl _)

/-- Of two texts with parts of one length in front these decide unless they are the same. -/
theorem append_lt_append_iff {xs ys r s : List Char} (hlength : xs.length = ys.length) :
    xs ++ r < ys ++ s ↔ xs < ys ∨ xs = ys ∧ r < s := by
  induction xs generalizing ys with
  | nil =>
    obtain rfl := List.length_eq_zero_iff.mp hlength.symm
    simp
  | cons x xs ih =>
    obtain ⟨y, ys, rfl⟩ := List.exists_cons_of_length_eq_add_one hlength.symm
    rw [List.cons_append, List.cons_append, List.cons_lt_cons_iff, List.cons_lt_cons_iff,
      ih (Nat.succ.inj hlength), List.cons.injEq]
    tauto

/-- Numbers padded to one width decide unless they are the same. -/
theorem padded_append_lt_iff {width m n : Nat} (hwidth : 0 < width) (hm : m < 10 ^ width)
    (hn : n < 10 ^ width) {r s : List Char} :
    padded width m ++ r < padded width n ++ s ↔ m < n ∨ m = n ∧ r < s := by
  have hlength : (padded width m).length = (padded width n).length := by
    rw [length_padded hwidth hm, length_padded hwidth hn]
  have hlt : padded width m < padded width n ↔ m < n := by
    rw [digits_lt_iff (fun _ => isDigit_of_mem_padded) (fun _ => isDigit_of_mem_padded) hlength 0,
      ofDigitChars_padded, ofDigitChars_padded]
  have heq : padded width m = padded width n ↔ m = n := by
    constructor
    · intro h
      rw [← ofDigitChars_padded width m, h, ofDigitChars_padded]
    · rintro rfl
      rfl
  rw [append_lt_append_iff hlength, hlt, heq]

/-! ## Timestamps -/

/-- The ledger form of a timestamp behind the year. -/
def afterYear (t : Timestamp) : List Char :=
  '-' :: (padded 2 t.date.month ++ '-' :: (padded 2 t.date.day ++
    ' ' :: (padded 2 t.hour ++ ':' :: (padded 2 t.minute ++ ':' :: (padded 2 t.second ++
      '.' :: (padded 3 t.millisecond ++ []))))))

/-- The ledger form is the year and what is behind it. -/
theorem letters_eq (t : Timestamp) : t.letters = yearText t.date.year ++ t.afterYear := by
  rw [afterYear, List.append_nil]
  rfl

/-- A timestamp is before another when its year is, or in the same year when the rest of its ledger
form is. -/
theorem cmp_eq_lt_iff (a b : Timestamp) :
    a.cmp b = .lt ↔
      a.date.year < b.date.year ∨ a.date.year = b.date.year ∧ a.afterYear < b.afterYear := by
  have hmonth := a.date.month_le
  have hmonth' := b.date.month_le
  have hday := a.date.day_le.trans (daysInMonth_le _ _)
  have hday' := b.date.day_le.trans (daysInMonth_le _ _)
  have hhour := a.hour_lt
  have hhour' := b.hour_lt
  have hminute := a.minute_lt
  have hminute' := b.minute_lt
  have hsecond := a.second_le
  have hsecond' := b.second_le
  have hmillisecond := a.millisecond_lt
  have hmillisecond' := b.millisecond_lt
  have hcons : ∀ (c : Char) (r s : List Char), c :: r < c :: s ↔ r < s := by
    intro c r s
    simp
  rw [afterYear, afterYear, hcons, padded_append_lt_iff (by omega) (by omega) (by omega), hcons,
    padded_append_lt_iff (by omega) (by omega) (by omega), hcons,
    padded_append_lt_iff (by omega) (by omega) (by omega), hcons,
    padded_append_lt_iff (by omega) (by omega) (by omega), hcons,
    padded_append_lt_iff (by omega) (by omega) (by omega), hcons,
    padded_append_lt_iff (by omega) (by omega) (by omega)]
  simp only [cmp, components, List.compare_cons_cons, Ordering.then_eq_lt, Int.compare_eq_lt,
    Int.compare_eq_eq, Int.ofNat_lt, Int.natCast_inj]
  simp

/-! ## Years -/

/-- A sign comes before a number. -/
theorem sign_lt_padded {sign : Char} (hsign : sign.toNat < 48) (width n : Nat)
    (r s : List Char) : sign :: r < padded width n ++ s := by
  obtain ⟨d, ds, hds⟩ := List.exists_cons_of_ne_nil (padded_ne_nil width n)
  have hd : d.isDigit = true := isDigit_of_mem_padded (hds ▸ List.mem_cons_self)
  have hlt : sign.toNat < d.toNat := lt_of_lt_of_le hsign (toNat_of_isDigit hd).1
  rw [hds, List.cons_append, List.cons_lt_cons_iff]
  exact .inl hlt

/-- A year of at most four digits is written with four. -/
theorem yearText_of_four_digits {year : Int} (h : 0 ≤ year) (h' : year ≤ 9999) :
    yearText year = padded 4 year.natAbs := by
  rw [yearText, if_neg (by omega), if_neg (by omega)]

/-- A year before zero is written behind a minus sign. -/
theorem yearText_of_neg {year : Int} (h : year < 0) :
    yearText year = '-' :: padded 4 year.natAbs := by
  rw [yearText, if_pos h]

/-- A year past 9999 is written behind a plus sign. -/
theorem yearText_of_late {year : Int} (h : 9999 < year) :
    yearText year = '+' :: padded 4 year.natAbs := by
  rw [yearText, if_neg (by omega), if_pos h]

/-- A timestamp before the year zero comes before one with a year of four digits, as a text. -/
theorem letters_lt_of_neg {a b : Timestamp} (ha : a.date.year < 0) (hb : 0 ≤ b.date.year)
    (hb' : b.date.year ≤ 9999) : a.letters < b.letters := by
  rw [letters_eq, letters_eq, yearText_of_neg ha, yearText_of_four_digits hb hb']
  exact sign_lt_padded (by decide) _ _ _ _

/-- A timestamp in a year of at most four digits. -/
def HasFourDigits (t : Timestamp) : Prop := 0 ≤ t.date.year ∧ t.date.year ≤ 9999

instance (t : Timestamp) : Decidable t.HasFourDigits := inferInstanceAs (Decidable (_ ∧ _))

/-- Two timestamps whose texts are ordered like themselves: no year is past 9999, and not both years
are before zero. -/
def IsTextOrdered (a b : Timestamp) : Prop :=
  a.date.year ≤ 9999 ∧ b.date.year ≤ 9999 ∧ (0 ≤ a.date.year ∨ 0 ≤ b.date.year)

instance (a b : Timestamp) : Decidable (a.IsTextOrdered b) := inferInstanceAs (Decidable (_ ∧ _))

/-- The ledger forms of two timestamps are ordered like themselves. -/
theorem letters_lt_iff {a b : Timestamp} (h : a.IsTextOrdered b) :
    a.letters < b.letters ↔ a.cmp b = .lt := by
  obtain ⟨ha, hb, hsign⟩ := h
  rw [cmp_eq_lt_iff]
  -- A single year before zero decides by its sign; two years of four digits decide as numbers.
  by_cases hneg : a.date.year < 0
  · have hb0 : 0 ≤ b.date.year := by omega
    exact iff_of_true (letters_lt_of_neg hneg hb0 hb) (.inl (by omega))
  · have ha0 : 0 ≤ a.date.year := by omega
    by_cases hneg' : b.date.year < 0
    · exact iff_of_false (letters_lt_of_neg hneg' ha0 ha).not_gt (by omega)
    · have hb0 : 0 ≤ b.date.year := by omega
      have hlt : a.date.year.natAbs < b.date.year.natAbs ↔ a.date.year < b.date.year := by omega
      have heq : a.date.year.natAbs = b.date.year.natAbs ↔ a.date.year = b.date.year := by omega
      rw [letters_eq, letters_eq, yearText_of_four_digits ha0 ha, yearText_of_four_digits hb0 hb,
        padded_append_lt_iff (by omega) (by omega) (by omega), hlt, heq]

/-- Timestamp texts are ordered like their ledger forms. -/
theorem render_lt_iff (a b : Timestamp) : a.render < b.render ↔ a.letters < b.letters := by
  rw [String.lt_iff_toList_lt, render, render, String.toList_ofList, String.toList_ofList]

/-- The text of a timestamp is at or before that of another exactly when it is at or before it. -/
theorem render_le_iff {a b : Timestamp} (h : a.IsTextOrdered b) :
    a.render ≤ b.render ↔ a.cmp b ≠ .gt := by
  have hswap : b.IsTextOrdered a := ⟨h.2.1, h.1, h.2.2.symm⟩
  have hcmp : a.cmp b = .gt ↔ b.cmp a = .lt := by
    rw [cmp, cmp, Std.OrientedCmp.gt_iff_lt]
  rw [← not_lt, render_lt_iff, letters_lt_iff hswap, ← hcmp]

/-- The text of a timestamp past the year 9999 comes before that of every timestamp which is not,
although it is later. -/
theorem render_lt_of_late {a b : Timestamp} (ha : 9999 < a.date.year) (hb : b.date.year ≤ 9999) :
    a.render < b.render ∧ a.cmp b = .gt := by
  have hcmp : a.cmp b = .gt := by
    rw [cmp, Std.OrientedCmp.gt_iff_lt]
    exact (cmp_eq_lt_iff b a).mpr (.inl (by omega))
  refine ⟨?_, hcmp⟩
  rw [render_lt_iff, letters_eq, letters_eq, yearText_of_late ha]
  by_cases hneg : b.date.year < 0
  · rw [yearText_of_neg hneg, List.cons_append, List.cons_append, List.cons_lt_cons_iff]
    exact .inl (by decide)
  · rw [yearText_of_four_digits (by omega) hb]
    exact sign_lt_padded (by decide) _ _ _ _

/-- A year that is not negative is not before the first year. -/
theorem firstYear_le_min (year : Nat) : firstYear ≤ min (year : Int) lastYear := by
  simp only [firstYear, lastYear]
  omega

/-- The first moment of a year, or of the last one when there is no such year. -/
def newYear (year : Nat) : Timestamp where
  date := ⟨min (year : Int) lastYear, 1, 1, Nat.one_pos, Nat.le_add_left 1 11, Nat.one_pos,
    Nat.le_trans (Nat.le_add_left 1 27) (le_daysInMonth _ 1)⟩
  hour := 0
  minute := 0
  second := 0
  millisecond := 0
  firstYear_le := firstYear_le_min year
  le_lastYear := Int.min_le_right _ _
  hour_lt := Nat.zero_lt_succ 23
  minute_lt := Nat.zero_lt_succ 59
  second_le := Nat.zero_le 60
  millisecond_lt := Nat.zero_lt_succ 999

example : (newYear 10000).render < (newYear 9999).render := by decide +kernel

end Timestamp

end DoubleEntry.Time
