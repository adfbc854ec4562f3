import Mathlib
import DoubleEntry.Proofs.Time.ReadBack

/-!
# Days and minutes in one count

Days are numbered one after another through all years. A day that is shifted has the number so much
greater, and no two days have one number, so a shift is found by counting alone, over any month,
leap day or end of a year.
-/

namespace DoubleEntry.Time

/-- The days of the years from zero up to a year, or before zero the negative. -/
def daysBeforeYear (year : ℤ) : ℤ :=
  365 * year + (year + 3) / 4 - (year + 99) / 100 + (year + 399) / 400

/-- The days of a year before a month. -/
def daysBeforeMonth (year : ℤ) : ℕ → ℕ
  | month + 2 => daysBeforeMonth year (month + 1) + daysInMonth year (month + 1)
  | _ => 0

/-- After the days of a month begins the next one. -/
theorem daysBeforeMonth_succ (year : ℤ) {month : ℕ} (h : 1 ≤ month) :
    daysBeforeMonth year (month + 1) = daysBeforeMonth year month + daysInMonth year month := by
  obtain ⟨n, rfl⟩ := Nat.exists_eq_add_of_le' h
  rfl

/-- Later months have at least as many days before them. -/
theorem monotone_daysBeforeMonth (year : ℤ) : Monotone (daysBeforeMonth year) := by
  apply monotone_nat_of_le_succ
  intro month
  cases month with
  | zero => exact le_rfl
  | succ n => exact Nat.le_add_right _ _

/-- After the days of twelve months begins the next year. -/
theorem daysBeforeYear_succ (year : ℤ) :
    daysBeforeYear (year + 1) = daysBeforeYear year + daysBeforeMonth year 13 := by
  have hmonths : daysBeforeMonth year 13 = if isLeapYear year then 366 else 365 := by
    simp only [daysBeforeMonth, daysInMonth]
    cases isLeapYear year <;> rfl
  rw [hmonths, daysBeforeYear, daysBeforeYear]
  have hleap : isLeapYear year = true ↔ year % 4 = 0 ∧ (year % 100 ≠ 0 ∨ year % 400 = 0) := by
    simp [isLeapYear]
  split_ifs with h
  · rw [hleap] at h
    push_cast
    omega
  · rw [hleap] at h
    push_cast
    omega

/-- Later years have at least as many days before them. -/
theorem monotone_daysBeforeYear : Monotone daysBeforeYear := by
  apply monotone_int_of_le_succ
  intro year
  rw [daysBeforeYear_succ]
  omega

namespace Date

/-- The number of a day. -/
def number (d : Date) : ℤ := daysBeforeYear d.year + daysBeforeMonth d.year d.month + d.day

/-- The day after has the next number. -/
theorem number_next (d : Date) : d.next.number = d.number + 1 := by
  have hmonth := daysBeforeMonth_succ d.year d.month_pos
  have hday := d.day_le
  unfold next
  split_ifs with hlast hdecember
  · simp only [number]
    push_cast
    omega
  · simp only [number, hmonth]
    push_cast
    omega
  · have htwelve : d.month = 12 := le_antisymm d.month_le (not_lt.mp hdecember)
    have hyear := daysBeforeYear_succ d.year
    rw [htwelve] at hmonth hlast hday
    simp only [number, hyear, htwelve, daysBeforeMonth]
    push_cast
    omega

/-- The day before has the number before. -/
theorem number_prev (d : Date) : d.prev.number = d.number - 1 := by
  unfold prev
  split_ifs with hfirst hjanuary
  · simp only [number]
    omega
  · have hmonth := daysBeforeMonth_succ d.year (Nat.le_sub_one_of_lt hjanuary)
    have hday := d.day_pos
    rw [Nat.sub_add_cancel d.month_pos] at hmonth
    simp only [number, hmonth]
    push_cast
    omega
  · have hone : d.month = 1 := le_antisymm (not_lt.mp hjanuary) d.month_pos
    have hday : d.day = 1 := le_antisymm (not_lt.mp hfirst) d.day_pos
    have hyear := daysBeforeYear_succ (d.year - 1)
    have hdecember : daysBeforeMonth (d.year - 1) 13 = daysBeforeMonth (d.year - 1) 12 + 31 := rfl
    rw [sub_add_cancel, hdecember] at hyear
    simp only [number, hyear, hone, hday, daysBeforeMonth]
    push_cast
    omega

/-- A day that is shifted has the number so much greater. -/
theorem number_shift (d : Date) (n : ℤ) : (d.shift n).number = d.number + n := by
  have hforward : ∀ k : ℕ, (d.forward k).number = d.number + k := by
    intro k
    induction k with
    | zero => simp [forward]
    | succ k ih =>
      rw [forward, number_next, ih]
      push_cast
      omega
  have hback : ∀ k : ℕ, (d.back k).number = d.number - k := by
    intro k
    induction k with
    | zero => simp [back]
    | succ k ih =>
      rw [back, number_prev, ih]
      push_cast
      omega
  unfold shift
  split_ifs with hn
  · rw [hforward]
    omega
  · rw [hback]
    omega

/-- The number of a day is past those of the months before and not past those of its month. -/
theorem number_bounds (d : Date) :
    daysBeforeYear d.year + daysBeforeMonth d.year d.month < d.number ∧
      d.number ≤ daysBeforeYear d.year + daysBeforeMonth d.year (d.month + 1) := by
  have hmonth := daysBeforeMonth_succ d.year d.month_pos
  have hfirst := d.day_pos
  have hlast := d.day_le
  rw [number, hmonth]
  push_cast
  omega

/-- A day of an earlier year has a smaller number. -/
theorem number_lt_of_year_lt {d e : Date} (h : d.year < e.year) : d.number < e.number := by
  have hmonths : daysBeforeMonth d.year (d.month + 1) ≤ daysBeforeMonth d.year 13 :=
    monotone_daysBeforeMonth d.year (Nat.succ_le_succ d.month_le)
  have hyears := monotone_daysBeforeYear (Int.add_one_le_of_lt h)
  rw [daysBeforeYear_succ] at hyears
  have hd := d.number_bounds.2
  have he := e.number_bounds.1
  omega

/-- In one year a day of an earlier month has a smaller number. -/
theorem number_lt_of_month_lt {d e : Date} (hyear : d.year = e.year) (h : d.month < e.month) :
    d.number < e.number := by
  have hmonths : daysBeforeMonth d.year (d.month + 1) ≤ daysBeforeMonth d.year e.month :=
    monotone_daysBeforeMonth d.year (Nat.succ_le_of_lt h)
  have hd := d.number_bounds.2
  have he := e.number_bounds.1
  rw [← hyear] at he
  omega

/-- No two days have one number. -/
theorem number_injective : Function.Injective number := by
  intro d e h
  obtain hlt | hyear | hgt := lt_trichotomy d.year e.year
  · exact absurd h (number_lt_of_year_lt hlt).ne
  · obtain hlt | hmonth | hgt := lt_trichotomy d.month e.month
    · exact absurd h (number_lt_of_month_lt hyear hlt).ne
    · have hday : d.day = e.day := by
        rw [number, number, hyear, hmonth] at h
        omega
      obtain ⟨year, month, day, _⟩ := d
      obtain ⟨year', month', day', _⟩ := e
      obtain rfl : year = year' := hyear
      obtain rfl : month = month' := hmonth
      obtain rfl : day = day' := hday
      rfl
    · exact absurd h (number_lt_of_month_lt hyear.symm hgt).ne'
  · exact absurd h (number_lt_of_year_lt hgt).ne'

end Date

end DoubleEntry.Time
