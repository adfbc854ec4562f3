import DoubleEntry.Json.Value
import DoubleEntry.Number.Numeral

/-!
# Literals and numbers

What a word of a JSON text means. A number without point and exponent that fits a signed or an
unsigned 64-bit word is an exact integer; every other number, also a negative zero, is a double,
read digit by digit as `Numeral.stepwise?` does. A number beyond the largest double means nothing.
-/

namespace DoubleEntry.Json

open Number (Numeral)

/-- The value of a decimal digit. -/
def digitValue? (c : Char) : Option Nat :=
  if c.isDigit then some (c.toNat - 48) else none

/-- The digits in front of a text, and the rest. -/
def takeDigits : List Char → List Nat × List Char
  | [] => ([], [])
  | c :: rest =>
    match digitValue? c with
    | some d =>
      let (more, tail) := takeDigits rest
      (d :: more, tail)
    | none => ([], c :: rest)

/-- An exponent part, or nothing: the letter, an optional sign, and at least one digit. -/
def exponent? : List Char → Option Int
  | [] => some 0
  | e :: rest =>
    if e = 'e' ∨ e = 'E' then
      let (negative, digits) := match rest with
        | '-' :: more => (true, more)
        | '+' :: more => (false, more)
        | more => (false, more)
      match takeDigits digits with
      | (d :: ds, []) =>
        let n : Int := Number.ofDigits (d :: ds)
        some (if negative then -n else n)
      | _ => none
    else none

/-- A number literal: an optional minus, digits without leading zeros, optionally a point with at
least one digit, and optionally an exponent. Tells whether point or exponent were written. -/
def numeral? (letters : List Char) : Option (Numeral × Bool) :=
  let (negative, unsigned) := match letters with
    | '-' :: rest => (true, rest)
    | rest => (false, rest)
  match takeDigits unsigned with
  | ([], _) => none
  | (0 :: _ :: _, _) => none
  | (whole, '.' :: rest) =>
    match takeDigits rest with
    | ([], _) => none
    | (fraction, tail) => (exponent? tail).map fun e => (⟨negative, whole, fraction, e⟩, true)
  | (whole, tail) => (exponent? tail).map fun e => (⟨negative, whole, [], e⟩, !tail.isEmpty)

/-- Whether an integer fits a signed or an unsigned 64-bit word. -/
def fitsWord (n : Int) : Bool := decide (-Number.wordCount 63 ≤ n ∧ n < Number.wordCount 64)

/-- The value of a number literal. -/
def number? (letters : List Char) : Option Json := do
  let (numeral, broken) ← numeral? letters
  let size : Int := Number.ofDigits numeral.whole
  let value := if numeral.negative then -size else size
  if !broken && fitsWord value && !(numeral.negative && size == 0) then some (.integer value)
  else numeral.stepwise?.map .real

/-- The value of a word. -/
def ofWord? (letters : List Char) : Option Json :=
  if letters = ['n', 'u', 'l', 'l'] then some .null
  else if letters = ['t', 'r', 'u', 'e'] then some (.bool true)
  else if letters = ['f', 'a', 'l', 's', 'e'] then some (.bool false)
  else number? letters

end DoubleEntry.Json
