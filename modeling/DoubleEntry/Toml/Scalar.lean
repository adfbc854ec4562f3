import DoubleEntry.Config.Setting
import DoubleEntry.Text.Reader
import DoubleEntry.Time.Date

/-!
# Words of a TOML document

A word is a run of characters up to white space, punctuation or a comment. As a value it is a truth
value, an integer in one of four bases, a float, or a date, a time or both. Underscores may stand
between two digits, and integers have to fit a signed 64-bit word.
-/

namespace DoubleEntry.Toml

open Number (Binary64 Numeral)
open Text (Reader)
open Text.Reader

/-- The digits of a number in a base, with single underscores between them. -/
def digitsIn? (base : Nat) (cs : List Char) : Option (List Nat) :=
  let digit? (c : Char) : Option Nat :=
    let n := c.toNat
    let value :=
      if c.isDigit then some (n - 48)
      else if 97 ≤ n ∧ n ≤ 102 then some (n - 87)
      else if 65 ≤ n ∧ n ≤ 70 then some (n - 55)
      else none
    value.filter fun v => decide (v < base)
  let rec read (afterDigit : Bool) : List Char → Option (List Nat)
    | [] => if afterDigit then some [] else none
    | c :: rest =>
      if c = '_' then if afterDigit then read false rest else none
      else do
        let d ← digit? c
        let more ← read true rest
        some (d :: more)
  read false cs

/-- The number that digits write in a base. -/
def valueIn (base : Nat) (digits : List Nat) : Nat := digits.foldl (fun n d => n * base + d) 0

/-- Decimal digits without leading zeros. -/
def decimal? (cs : List Char) : Option (List Nat) :=
  match digitsIn? 10 cs with
  | some (0 :: _ :: _) => none
  | other => other

/-- A sign in front of a word, and the rest. -/
def signOf : List Char → Option Bool × List Char
  | '-' :: rest => (some true, rest)
  | '+' :: rest => (some false, rest)
  | cs => (none, cs)

/-- An integer that fits a signed word. -/
def fitting (n : Int) : Option Setting :=
  if -Number.wordCount 63 ≤ n ∧ n < Number.wordCount 63 then some (.integer n) else none

/-- An integer. Bases other than ten take no sign. -/
def integer? (word : List Char) : Option Setting :=
  match word with
  | '0' :: 'x' :: rest => (digitsIn? 16 rest).bind fun ds => fitting (valueIn 16 ds)
  | '0' :: 'o' :: rest => (digitsIn? 8 rest).bind fun ds => fitting (valueIn 8 ds)
  | '0' :: 'b' :: rest => (digitsIn? 2 rest).bind fun ds => fitting (valueIn 2 ds)
  | _ => do
    let (sign, rest) := signOf word
    let n : Int := valueIn 10 (← decimal? rest)
    fitting (if sign = some true then -n else n)

/-- The largest size of an exponent that makes a difference. -/
def exponentBound : Nat := 100000

/-- The exponent of a float: digits, which may begin with zeros, after an optional sign. -/
def exponent? (cs : List Char) : Option Int := do
  let (sign, rest) := signOf cs
  let n : Int := min (valueIn 10 (← digitsIn? 10 rest)) exponentBound
  some (if sign = some true then -n else n)

/-- A float: a whole part followed by a fraction, an exponent or both, or one of the words `inf` and
`nan`. One beyond the largest double is refused, and one below the least is minus infinity. -/
def float? (word : List Char) : Option Setting := do
  let (sign, rest) := signOf word
  let negative := sign = some true
  if rest = ['i', 'n', 'f'] then some (.real (.infinite negative))
  else if rest = ['n', 'a', 'n'] then some .nan
  else
    let isMark (c : Char) : Bool := c == 'e' || c == 'E'
    guard (rest.any fun c => isMark c || c == '.')
    let mantissa := rest.takeWhile fun c => !isMark c
    let exponent ← match rest.dropWhile fun c => !isMark c with
      | [] => some 0
      | _ :: cs => exponent? cs
    let whole ← decimal? (mantissa.takeWhile fun c => c != '.')
    let fraction ← match mantissa.dropWhile fun c => c != '.' with
      | [] => some []
      | _ :: cs => digitsIn? 10 cs
    let x := Numeral.nearest ⟨negative, whole, fraction, exponent⟩
    if x = .infinite false then none else some (.real x)

/-- A date of the calendar. -/
def date : Reader Unit := do
  let year ← number 4 4
  expect '-'
  let month ← number 2 2
  expect '-'
  let day ← number 2 2
  match Time.Date.of? year month day with
  | some _ => pure ()
  | none => failure

/-- A time of the day, perhaps with a fraction of a second. -/
def time : Reader Unit := do
  let hour ← number 2 2
  expect ':'
  let minute ← number 2 2
  expect ':'
  let second ← number 2 2
  if ← skip '.' then discard allDigits
  if hour < 24 ∧ minute < 60 ∧ second ≤ 60 then pure () else failure

/-- An offset from UTC; it may be left out. -/
def offset : Reader Unit := do
  match ← get with
  | [] => pure ()
  | c :: rest => do
    set rest
    if c = 'Z' ∨ c = 'z' then pure ()
    else if c = '+' ∨ c = '-' then do
      let hour ← number 2 2
      expect ':'
      let minute ← number 2 2
      if hour < 24 ∧ minute < 60 then pure () else failure
    else failure

/-- Whether a character stands between a date and a time. -/
def isDivider (c : Char) : Bool := c == 'T' || c == 't' || c == ' '

/-- A date and a time, perhaps with an offset from UTC. -/
def dateAndTime : Reader Unit := do
  date
  discard (one isDivider)
  time
  offset

/-- Whether a word is a date, a time, or both. -/
def isMoment (word : List Char) : Bool :=
  (whole? dateAndTime word).isSome || (whole? date word).isSome || (whole? time word).isSome

/-- The value of a word. -/
def scalar? (word : List Char) : Option Setting :=
  if word = ['t', 'r', 'u', 'e'] then some (.bool true)
  else if word = ['f', 'a', 'l', 's', 'e'] then some (.bool false)
  else if isMoment word then
    some (.moment (String.ofList (word.map fun c => if isDivider c then 'T' else c)))
  else (integer? word).or (float? word)

end DoubleEntry.Toml
