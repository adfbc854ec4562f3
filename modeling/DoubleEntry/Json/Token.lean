import DoubleEntry.Json.Value

/-!
# Tokens of a JSON text

A JSON text is cut into punctuation, texts and words by a machine that reads it character by
character. A word is any run of characters that is neither white space, punctuation nor part of a
text; whether it is a number, a literal or nothing at all is decided later.
-/

namespace DoubleEntry.Json

/-- A token of a JSON text. -/
inductive Token where
  | openObject
  | closeObject
  | openArray
  | closeArray
  | colon
  | comma
  | text (value : String)
  | word (letters : List Char)
  deriving DecidableEq

namespace Token

/-- What the scanner is in the middle of; letters are kept last first. -/
inductive Scan where
  | between
  | inWord (letters : List Char)
  | inText (letters : List Char)
  /-- After a backslash. -/
  | escape (letters : List Char)
  /-- Inside `\uXXXX`: how many digits are missing and the number so far. -/
  | codeUnit (letters : List Char) (missing : Nat) (unit : Nat)
  /-- After the first half of a surrogate pair, which only a second half may follow. -/
  | pair (letters : List Char) (high : Nat)
  | pairEscape (letters : List Char) (high : Nat)
  | pairUnit (letters : List Char) (high : Nat) (missing : Nat) (unit : Nat)

/-- The value of a hexadecimal digit of either case. -/
def hexValue? (c : Char) : Option Nat :=
  let n := c.toNat
  if 0x30 ≤ n ∧ n ≤ 0x39 then some (n - 0x30)
  else if 0x41 ≤ n ∧ n ≤ 0x46 then some (n - 0x41 + 10)
  else if 0x61 ≤ n ∧ n ≤ 0x66 then some (n - 0x61 + 10)
  else none

/-- White space between tokens. -/
def isSpace (c : Char) : Bool := c == ' ' || c == '\t' || c == '\n' || c == '\r'

/-- The token that a character is by itself. -/
def punctuation? (c : Char) : Option Token :=
  if c = '\x7b' then some openObject
  else if c = '\x7d' then some closeObject
  else if c = '[' then some openArray
  else if c = ']' then some closeArray
  else if c = ':' then some colon
  else if c = ',' then some comma
  else none

/-- The character that a backslash and a letter stand for. -/
def escaped? (c : Char) : Option Char :=
  if c = '"' ∨ c = '\\' ∨ c = '/' then some c
  else if c = 'b' then some '\x08'
  else if c = 'f' then some '\x0c'
  else if c = 'n' then some '\n'
  else if c = 'r' then some '\r'
  else if c = 't' then some '\t'
  else none

/-- Whether a code unit is the first half of a surrogate pair. -/
def isHighSurrogate (unit : Nat) : Bool := decide (0xD800 ≤ unit ∧ unit ≤ 0xDBFF)

/-- Whether a code unit is the second half of a surrogate pair. -/
def isLowSurrogate (unit : Nat) : Bool := decide (0xDC00 ≤ unit ∧ unit ≤ 0xDFFF)

/-- The scanner after a whole code unit: a character, or the first half of a pair. -/
def Scan.afterUnit? (letters : List Char) (unit : Nat) : Option Scan :=
  if isHighSurrogate unit then some (pair letters unit)
  else if isLowSurrogate unit then none
  else some (inText (Char.ofNat unit :: letters))

/-- The scanner after both halves of a pair. -/
def Scan.afterPair? (letters : List Char) (high low : Nat) : Option Scan :=
  if isLowSurrogate low then
    some (inText (Char.ofNat (0x10000 + (high - 0xD800) * 0x400 + (low - 0xDC00)) :: letters))
  else none

/-- The scanner between tokens, or at the first letter of one. -/
def Scan.start (c : Char) : List Token × Scan :=
  if isSpace c then ([], between)
  else if c = '"' then ([], inText [])
  else match punctuation? c with
    | some t => ([t], between)
    | none => ([], inWord [c])

/-- Whether a character ends a word. -/
def endsWord (c : Char) : Bool := isSpace c || c == '"' || (punctuation? c).isSome

/-- Reads one character: the tokens completed by it and what the scanner is in then. -/
def Scan.step? (scan : Scan) (c : Char) : Option (List Token × Scan) :=
  match scan with
  | between => some (start c)
  | inWord letters =>
    if endsWord c then
      let (out, next) := start c
      some (word letters.reverse :: out, next)
    else some ([], inWord (c :: letters))
  | inText letters =>
    if c = '"' then some ([text (String.ofList letters.reverse)], between)
    else if c = '\\' then some ([], escape letters)
    else if c.toNat < 0x20 then none
    else some ([], inText (c :: letters))
  | escape letters =>
    if c = 'u' then some ([], codeUnit letters 4 0)
    else (escaped? c).map fun e => ([], inText (e :: letters))
  | codeUnit letters missing unit => do
    let unit := unit * 16 + (← hexValue? c)
    if missing ≤ 1 then (afterUnit? letters unit).map ([], ·)
    else some ([], codeUnit letters (missing - 1) unit)
  | pair letters high => if c = '\\' then some ([], pairEscape letters high) else none
  | pairEscape letters high => if c = 'u' then some ([], pairUnit letters high 4 0) else none
  | pairUnit letters high missing unit => do
    let unit := unit * 16 + (← hexValue? c)
    if missing ≤ 1 then (afterPair? letters high unit).map ([], ·)
    else some ([], pairUnit letters high (missing - 1) unit)

/-- The tokens completed by the end of the text. -/
def Scan.finish? : Scan → Option (List Token)
  | between => some []
  | inWord letters => some [word letters.reverse]
  | _ => none

/-- The tokens of the rest of a text. -/
def scanFrom (scan : Scan) : List Char → Option (List Token)
  | [] => scan.finish?
  | c :: rest => do
    let (out, next) ← scan.step? c
    let more ← scanFrom next rest
    some (out ++ more)

/-- The tokens of a text. -/
def scan? (cs : List Char) : Option (List Token) := scanFrom .between cs

end Token

end DoubleEntry.Json
