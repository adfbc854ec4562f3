import DoubleEntry.Json.Value
import DoubleEntry.Number.Shortest

/-!
# Writing JSON

The compact text of a JSON value: no white space, fields in the order of the value, and as few
escapes as possible. An infinity has no JSON text and is written as `null`.
-/

namespace DoubleEntry.Json

/-- How numbers are written: positionally with up to sixteen digits before the point and four zeros
after it, and whole numbers with a zero after the point. -/
def numberLayout : Number.Layout := ⟨some 16, some 4, ".0"⟩

/-- The digits of an integer. -/
def integerText (n : Int) : List Char :=
  if n < 0 then '-' :: Nat.toDigits 10 n.natAbs else Nat.toDigits 10 n.natAbs

/-- A hexadecimal digit in lower case. -/
def hexDigit (n : Nat) : Char := Nat.digitChar n

/-- A character inside a text: quotes, backslashes and controls are escaped. -/
def escapedChar (c : Char) : List Char :=
  if c = '"' then ['\\', '"']
  else if c = '\\' then ['\\', '\\']
  else if c = '\x08' then ['\\', 'b']
  else if c = '\x0c' then ['\\', 'f']
  else if c = '\n' then ['\\', 'n']
  else if c = '\r' then ['\\', 'r']
  else if c = '\t' then ['\\', 't']
  else if c.toNat < 0x20 then ['\\', 'u', '0', '0', hexDigit (c.toNat / 16), hexDigit (c.toNat % 16)]
  else [c]

/-- A text between double quotes. -/
def textLiteral (s : String) : List Char := '"' :: (s.toList.flatMap escapedChar ++ ['"'])

mutual

/-- The compact text of a value. -/
def letters : Json → List Char
  | .null => ['n', 'u', 'l', 'l']
  | .bool true => ['t', 'r', 'u', 'e']
  | .bool false => ['f', 'a', 'l', 's', 'e']
  | .integer n => integerText n
  | .real x => if x.isInfinite then ['n', 'u', 'l', 'l'] else (numberLayout.render x).toList
  | .text s => textLiteral s
  | .array items => '[' :: (itemLetters items ++ [']'])
  | .object fields => '\x7b' :: (fieldLetters fields ++ ['\x7d'])

/-- Items separated by commas. -/
def itemLetters : List Json → List Char
  | [] => []
  | [v] => letters v
  | v :: rest => letters v ++ ',' :: itemLetters rest

/-- Fields separated by commas. -/
def fieldLetters : List (String × Json) → List Char
  | [] => []
  | [(k, v)] => textLiteral k ++ ':' :: letters v
  | (k, v) :: rest => textLiteral k ++ ':' :: (letters v ++ ',' :: fieldLetters rest)

end

/-- The compact text of a value. -/
def render (v : Json) : String := String.ofList v.letters

end DoubleEntry.Json
