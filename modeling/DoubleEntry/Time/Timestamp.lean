import DoubleEntry.Time.Date

/-!
# Timestamps

A point in time of the UTC calendar to the millisecond, between a first and a last year. Second 60
of any minute is a leap second: it comes after second 59 and before the next minute.
-/

namespace DoubleEntry.Time

/-- The first year that a timestamp may fall into. -/
def Timestamp.firstYear : Int := -262143

/-- The last year that a timestamp may fall into. -/
def Timestamp.lastYear : Int := 262142

/-- A UTC date and time of day in milliseconds. -/
structure Timestamp where
  date : Date
  hour : Nat
  minute : Nat
  second : Nat
  millisecond : Nat
  firstYear_le : Timestamp.firstYear ≤ date.year
  le_lastYear : date.year ≤ Timestamp.lastYear
  hour_lt : hour < 24
  minute_lt : minute < 60
  second_le : second ≤ 60
  millisecond_lt : millisecond < 1000
  deriving DecidableEq

namespace Timestamp

/-- The components from the year down, which order timestamps like a dictionary. -/
def components (t : Timestamp) : List Int :=
  [t.date.year, t.date.month, t.date.day, t.hour, t.minute, t.second, t.millisecond]

/-- The order of time. -/
def cmp (a b : Timestamp) : Ordering := compare a.components b.components

/-- The timestamp on a day at a time of day, if there is one in the admitted years. -/
def on? (date : Date) (hour minute second millisecond : Nat) : Option Timestamp :=
  if h : (firstYear ≤ date.year ∧ date.year ≤ lastYear) ∧ (hour < 24 ∧ minute < 60) ∧
      second ≤ 60 ∧ millisecond < 1000 then
    some ⟨date, hour, minute, second, millisecond, h.1.1, h.1.2, h.2.1.1, h.2.1.2, h.2.2.1, h.2.2.2⟩
  else none

/-- The timestamp with the given components, if there is one in the admitted years. -/
def of? (year : Int) (month day hour minute second millisecond : Nat) : Option Timestamp := do
  let date ← Date.of? year month day
  on? date hour minute second millisecond

/-- The timestamp `minutes` earlier, if it is in the admitted years; a leap second stays one. -/
def minusMinutes? (t : Timestamp) (minutes : Int) : Option Timestamp :=
  let m : Int := t.hour * 60 + t.minute - minutes
  on? (t.date.shift (m / 1440)) (m % 1440 / 60).toNat (m % 60).toNat t.second t.millisecond

end Timestamp

end DoubleEntry.Time
