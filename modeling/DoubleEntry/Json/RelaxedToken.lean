import DoubleEntry.Json.Token
import DoubleEntry.Text.Blank

/-!
# Tokens of a relaxed JSON text

The relaxed spelling of JSON allows more between tokens and inside texts: comments, all of Unicode's
white space, apostrophes around a text, more escapes, and a text that goes on over the end of a
line. The tokens themselves are the same, so what follows the scanner need not know which spelling
was read.
-/

namespace DoubleEntry.Json.Relaxed

/-- Whether a character ends a line. -/
def endsLine (c : Char) : Bool :=
  c == '\n' || c == '\r' || c == '\u2028' || c == '\u2029'

/-- White space between tokens. -/
def isSpace (c : Char) : Bool := (Text.isBlank c && c != '\u0085') || c == '\ufeff'

/-- What the scanner is in the middle of. Letters of words and code units of texts are kept last
first; a text remembers the character that ends it. -/
inductive Scan where
  | between
  /-- After a slash that should open a comment. -/
  | slash
  | lineComment
  /-- Inside a comment between stars, and whether the last character was a star. -/
  | blockComment (star : Bool)
  | inWord (letters : List Char)
  | inText (delimiter : Char) (units : List Nat)
  /-- After a backslash. -/
  | escape (delimiter : Char) (units : List Nat)
  /-- After a backslash and a carriage return, which a line feed may follow. -/
  | lineEnd (delimiter : Char) (units : List Nat)
  /-- Inside `\xXX` or `\uXXXX`: how many digits are missing and the number so far. -/
  | digits (delimiter : Char) (units : List Nat) (missing : Nat) (number : Nat)

/-- Half of a surrogate pair without the other half is replaced. -/
def lone (unit : Nat) : Char :=
  if Token.isHighSurrogate unit || Token.isLowSurrogate unit then '\ufffd' else Char.ofNat unit

/-- The characters that code units write. -/
def ofUnits : List Nat → List Char
  | high :: low :: rest =>
    if Token.isHighSurrogate high && Token.isLowSurrogate low then
      Char.ofNat (0x10000 + (high - 0xD800) * 0x400 + (low - 0xDC00)) :: ofUnits rest
    else lone high :: ofUnits (low :: rest)
  | [unit] => [lone unit]
  | [] => []

/-- The character that a backslash and a letter stand for. -/
def escaped? (c : Char) : Option Char :=
  if c = '\'' then some c
  else if c = 'v' then some '\x0b'
  else if c = '0' then some '\x00'
  else Token.escaped? c

/-- The scanner between tokens, or at the first letter of one. -/
def Scan.start (c : Char) : List Token × Scan :=
  if isSpace c then ([], between)
  else if c = '/' then ([], slash)
  else if c = '"' ∨ c = '\'' then ([], inText c [])
  else match Token.punctuation? c with
    | some t => ([t], between)
    | none => ([], inWord [c])

/-- Whether a character ends a word. -/
def endsWord (c : Char) : Bool :=
  isSpace c || c == '/' || c == '"' || c == '\'' || (Token.punctuation? c).isSome

/-- Reads a character of a text that no backslash precedes. -/
def Scan.letter? (delimiter : Char) (units : List Nat) (c : Char) : Option (List Token × Scan) :=
  if c = delimiter then some ([.text (String.ofList (ofUnits units.reverse))], between)
  else if c = '\\' then some ([], escape delimiter units)
  else if c.toNat < 0x20 then none
  else some ([], inText delimiter (c.toNat :: units))

/-- Reads one character: the tokens completed by it and what the scanner is in then. -/
def Scan.step? (scan : Scan) (c : Char) : Option (List Token × Scan) :=
  match scan with
  | between => some (start c)
  | slash =>
    if c = '/' then some ([], lineComment)
    else if c = '*' then some ([], blockComment false)
    else none
  | lineComment => some ([], if endsLine c then between else lineComment)
  | blockComment star =>
    some ([], if star && c = '/' then between else blockComment (c = '*'))
  | inWord letters =>
    if endsWord c then
      let (out, next) := start c
      some (.word letters.reverse :: out, next)
    else some ([], inWord (c :: letters))
  | inText delimiter units => letter? delimiter units c
  | escape delimiter units =>
    if c = 'u' then some ([], digits delimiter units 4 0)
    else if c = 'x' then some ([], digits delimiter units 2 0)
    else if c = '\r' then some ([], lineEnd delimiter units)
    else if endsLine c then some ([], inText delimiter units)
    else (escaped? c).map fun e => ([], inText delimiter (e.toNat :: units))
  | lineEnd delimiter units =>
    if c = '\n' then some ([], inText delimiter units) else letter? delimiter units c
  | digits delimiter units missing number => do
    let number := number * 16 + (← Token.hexValue? c)
    if missing ≤ 1 then some ([], inText delimiter (number :: units))
    else some ([], digits delimiter units (missing - 1) number)

/-- The tokens completed by the end of the text. -/
def Scan.finish? : Scan → Option (List Token)
  | between | lineComment => some []
  | inWord letters => some [.word letters.reverse]
  | _ => none

/-- The tokens of the rest of a text. -/
def scanFrom (scan : Scan) : List Char → Option (List Token)
  | [] => scan.finish?
  | c :: rest => do
    let (out, next) ← scan.step? c
    let more ← scanFrom next rest
    some (out ++ more)

/-- The tokens of a text. -/
def scan? (cs : List Char) : Option (List Token) := scanFrom .between cs

end DoubleEntry.Json.Relaxed
