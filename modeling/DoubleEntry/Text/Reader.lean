import DoubleEntry.Number.Numeral
import DoubleEntry.Text.Blank

/-!
# Readers

A reader takes characters off the front of a text and gives a value, or fails. Readers are put
together with `do`; one that has to take a whole text is run by `whole?`.
-/

namespace DoubleEntry.Text

/-- A reader takes characters off the front of a text, or fails. -/
abbrev Reader := StateT (List Char) Option

namespace Reader

/-- Takes one given character. -/
def expect (c : Char) : Reader Unit := fun cs =>
  match cs with
  | x :: rest => if x = c then some ((), rest) else none
  | [] => none

/-- Takes one character that passes a test. -/
def one (test : Char → Bool) : Reader Char := fun cs =>
  match cs with
  | x :: rest => if test x then some (x, rest) else none
  | [] => none

/-- Takes all characters in front that pass a test. -/
def many (test : Char → Bool) : Reader (List Char) := fun cs =>
  some (cs.takeWhile test, cs.dropWhile test)

/-- Takes a given character if it is next, and tells whether it was. -/
def skip (c : Char) : Reader Bool := fun cs =>
  match cs with
  | x :: rest => if x = c then some (true, rest) else some (false, cs)
  | [] => some (false, [])

/-- Drops white space. -/
def skipBlanks : Reader Unit := fun cs => some ((), trimLeft cs)

/-- The digits in front of a text, at most `most` of them. -/
def digitsUpTo : Nat → List Char → List Nat × List Char
  | most + 1, c :: rest =>
    if c.isDigit then
      let (ds, tail) := digitsUpTo most rest
      ((c.toNat - 48) :: ds, tail)
    else ([], c :: rest)
  | _, cs => ([], cs)

/-- Takes at least `least` and at most `most` digits. -/
def digits (least most : Nat) : Reader (List Nat) := fun cs =>
  let (ds, rest) := digitsUpTo most cs
  if least ≤ ds.length then some (ds, rest) else none

/-- Takes a number of at least `least` and at most `most` digits. -/
def number (least most : Nat) : Reader Nat := Number.ofDigits <$> digits least most

/-- Takes all digits in front, at least one. -/
def allDigits : Reader (List Nat) := fun cs => digits 1 cs.length cs

/-- Runs a reader on a whole text. -/
def whole? {α : Type} (r : Reader α) (cs : List Char) : Option α :=
  match r cs with
  | some (a, []) => some a
  | _ => none

end Reader

end DoubleEntry.Text
