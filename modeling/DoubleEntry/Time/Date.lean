/-!
# Calendar days

Days of the Gregorian calendar, extended to all years before its introduction and numbered with a
year zero. A `Date` is always a day that exists, and the day after or before one always exists too.
-/

namespace DoubleEntry.Time

/-- Whether a year has a 29th of February. -/
def isLeapYear (year : Int) : Bool :=
  year % 4 == 0 && (year % 100 != 0 || year % 400 == 0)

/-- The number of days of a month. -/
def daysInMonth (year : Int) (month : Nat) : Nat :=
  if month = 2 then (if isLeapYear year then 29 else 28)
  else if month = 4 ∨ month = 6 ∨ month = 9 ∨ month = 11 then 30
  else 31

/-- Every month has at least 28 days. -/
theorem le_daysInMonth (year : Int) (month : Nat) : 28 ≤ daysInMonth year month := by
  unfold daysInMonth
  repeat' split
  all_goals decide

/-- A day of the calendar. -/
structure Date where
  year : Int
  month : Nat
  day : Nat
  month_pos : 1 ≤ month
  month_le : month ≤ 12
  day_pos : 1 ≤ day
  day_le : day ≤ daysInMonth year month
  deriving DecidableEq

namespace Date

/-- The day with the given year, month and day of the month, if there is one. -/
def of? (year : Int) (month day : Nat) : Option Date :=
  if h : (1 ≤ month ∧ month ≤ 12) ∧ 1 ≤ day ∧ day ≤ daysInMonth year month then
    some ⟨year, month, day, h.1.1, h.1.2, h.2.1, h.2.2⟩
  else none

/-- The day after. -/
def next (d : Date) : Date :=
  if h : d.day < daysInMonth d.year d.month then
    ⟨d.year, d.month, d.day + 1, d.month_pos, d.month_le, by omega, h⟩
  else if h : d.month < 12 then
    ⟨d.year, d.month + 1, 1, by omega, h, by omega,
      Nat.le_trans (by decide) (le_daysInMonth d.year (d.month + 1))⟩
  else ⟨d.year + 1, 1, 1, by decide, by decide, by decide,
    Nat.le_trans (by decide) (le_daysInMonth (d.year + 1) 1)⟩

/-- The day before. -/
def prev (d : Date) : Date :=
  if h : 1 < d.day then
    ⟨d.year, d.month, d.day - 1, d.month_pos, d.month_le, by omega,
      Nat.le_trans (Nat.sub_le _ _) d.day_le⟩
  else if h : 1 < d.month then
    ⟨d.year, d.month - 1, daysInMonth d.year (d.month - 1), by omega,
      Nat.le_trans (Nat.sub_le _ _) d.month_le,
      Nat.le_trans (by decide) (le_daysInMonth d.year (d.month - 1)), Nat.le_refl _⟩
  else ⟨d.year - 1, 12, 31, by decide, by decide, by decide, by simp [daysInMonth]⟩

/-- The day `n` days later. -/
def forward (d : Date) : Nat → Date
  | 0 => d
  | n + 1 => (d.forward n).next

/-- The day `n` days earlier. -/
def back (d : Date) : Nat → Date
  | 0 => d
  | n + 1 => (d.back n).prev

/-- The day `n` days later, or earlier when `n` is negative. -/
def shift (d : Date) (n : Int) : Date := if 0 ≤ n then d.forward n.toNat else d.back (-n).toNat

end Date

end DoubleEntry.Time
