import DoubleEntry.Text.Reader
import DoubleEntry.Time.Timestamp

/-!
# The text of a timestamp

Timestamps are written in one form, `YYYY-MM-DD hh:mm:ss.mmm`, with a sign in front of years that
do not have exactly four digits. They are read in two. The ledger form is forgiving about blanks,
leading zeros and the fraction; the internet form `YYYY-MM-DDThh:mm:ss±hh:mm` is strict and carries
an offset from UTC. Digits of a fraction beyond the millisecond are dropped.
-/

namespace DoubleEntry.Time

open Text (Reader)
open Text.Reader

namespace Reader

/-- Takes a number of one or two digits after white space. -/
def looseNumber : Reader Nat := do
  skipBlanks
  number 1 2

/-- Takes a year after white space: up to four digits, or any number of them after a sign. -/
def looseYear : Reader Int := do
  skipBlanks
  match ← get with
  | '-' :: rest => do
    set rest
    let n ← Number.ofDigits <$> allDigits
    pure (-(n : Int))
  | '+' :: rest => do
    set rest
    let n ← Number.ofDigits <$> allDigits
    pure (n : Int)
  | _ => do
    let n ← number 1 4
    pure (n : Int)

/-- The whole milliseconds of a fraction of a second. -/
def milliseconds (fraction : List Nat) : Nat := Number.ofDigits ((fraction ++ [0, 0, 0]).take 3)

/-- Takes a fraction of a second in milliseconds: nothing, or a point and at least one digit. -/
def fraction : Reader Nat := do
  match ← get with
  | '.' :: rest => do
    set rest
    milliseconds <$> allDigits
  | _ => pure 0

/-- Takes a timestamp in ledger form. -/
def ledgerForm : Reader Timestamp := do
  let year ← looseYear
  expect '-'
  let month ← looseNumber
  expect '-'
  let day ← looseNumber
  skipBlanks
  let hour ← looseNumber
  expect ':'
  let minute ← looseNumber
  expect ':'
  let second ← looseNumber
  let millisecond ← fraction
  Timestamp.of? year month day hour minute second millisecond

/-- Takes the separator between date and time in internet form. -/
def separator : Reader Unit := fun cs =>
  match cs with
  | c :: rest => if c = 'T' ∨ c = 't' ∨ c = ' ' then some ((), rest) else none
  | [] => none

/-- The largest offset from UTC, in minutes. -/
def largestOffset : Int := 23 * 60 + 59

/-- Takes an offset from UTC in minutes: `Z`, or a sign with hours and minutes of two digits each.
The sign may be a typographic minus. -/
def offset : Reader Int := do
  match ← get with
  | [] => failure
  | c :: rest => do
    set rest
    if c = 'Z' ∨ c = 'z' then pure 0
    else if c = '+' ∨ c = '-' ∨ c = '\u2212' then do
      let hours ← number 2 2
      expect ':'
      let minutes ← number 2 2
      let size : Int := hours * 60 + minutes
      if minutes < 60 ∧ size ≤ largestOffset then pure (if c = '+' then size else -size)
      else failure
    else failure

/-- Takes a timestamp in internet form. -/
def internetForm : Reader Timestamp := do
  let year ← number 4 4
  expect '-'
  let month ← number 2 2
  expect '-'
  let day ← number 2 2
  separator
  let hour ← number 2 2
  expect ':'
  let minute ← number 2 2
  expect ':'
  let second ← number 2 2
  let millisecond ← fraction
  let offset ← offset
  let civil ← Timestamp.of? year month day hour minute second millisecond
  civil.minusMinutes? offset

end Reader

namespace Timestamp

/-- Reads a timestamp in either form, apart from white space around it. -/
def parse? (s : String) : Option Timestamp :=
  let cs := Text.trim s.toList
  (whole? Reader.ledgerForm cs).or (whole? Reader.internetForm cs)

/-- The digits of a number with zeros in front up to the given width. -/
def padded (width n : Nat) : List Char :=
  let ds := Nat.toDigits 10 n
  List.replicate (width - ds.length) '0' ++ ds

/-- The text of a year: four digits, or a sign and at least four. -/
def yearText (year : Int) : List Char :=
  if year < 0 then '-' :: padded 4 year.natAbs
  else if 9999 < year then '+' :: padded 4 year.natAbs
  else padded 4 year.natAbs

/-- The ledger form of a timestamp. -/
def letters (t : Timestamp) : List Char :=
  yearText t.date.year ++ '-' :: (padded 2 t.date.month ++ '-' :: (padded 2 t.date.day ++
    ' ' :: (padded 2 t.hour ++ ':' :: (padded 2 t.minute ++ ':' :: (padded 2 t.second ++
      '.' :: padded 3 t.millisecond)))))

/-- The ledger form of a timestamp. -/
def render (t : Timestamp) : String := String.ofList t.letters

end Timestamp

end DoubleEntry.Time
