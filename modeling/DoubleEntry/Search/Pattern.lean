/-!
# Text patterns

Two kinds of patterns. In a search pattern `%` stands for any text and `_` for any one character,
and ASCII letters match in either case. The other kind is a fixed set of tests for the characters of
a text, of which `looksDecimal` is made. For both kinds a text ends at its first NUL.
-/

namespace DoubleEntry.Search

/-- The characters of a text up to its first NUL. -/
def untilNul (s : String) : List Char := s.toList.takeWhile fun c => c ≠ '\x00'

namespace Pattern

/-- Whether two characters are the same up to the case of ASCII letters. -/
def sameLetter (a b : Char) : Bool := a.toLower == b.toLower

/-- A list and all lists that are left after dropping from its front. -/
def suffixes : List Char → List (List Char)
  | [] => [[]]
  | c :: rest => (c :: rest) :: suffixes rest

/-- Whether a pattern matches all of a text. -/
def like : List Char → List Char → Bool
  | [], cs => cs.isEmpty
  | p :: pattern, cs =>
    if p = '%' then (suffixes cs).any (like pattern)
    else match cs with
      | [] => false
      | c :: rest => (p == '_' || sameLetter p c) && like pattern rest

/-- The most bytes that a search pattern may have. -/
def mostBytes : Nat := 50000

/-- Whether a search pattern has too many bytes for any text to be held against it, also behind a
NUL. -/
def isTooLong (pattern : String) : Bool := decide (mostBytes < pattern.utf8ByteSize)

/-- Whether a search pattern matches a text. -/
def isLike (pattern text : String) : Bool := like (untilNul pattern) (untilNul text)

end Pattern

/-- A test for the characters of a text. -/
inductive Glob where
  /-- There is a digit. -/
  | someDigit
  /-- There is something other than digits and dots. -/
  | someOther
  /-- There are two dots. -/
  | twoDots
  deriving DecidableEq

namespace Glob

/-- The pattern of a test. -/
def pattern : Glob → String
  | someDigit => "*[0-9]*"
  | someOther => "*[^0-9.]*"
  | twoDots => "*.*.*"

/-- Whether characters pass a test. -/
def admits : Glob → List Char → Bool
  | someDigit, cs => cs.any Char.isDigit
  | someOther, cs => cs.any fun c => !c.isDigit && c != '.'
  | twoDots, cs => decide (2 ≤ cs.count '.')

end Glob

/-- Whether characters are an unsigned decimal: digits with at most one dot among or around them. -/
def looksDecimal (cs : List Char) : Bool :=
  Glob.someDigit.admits cs && !Glob.someOther.admits cs && !Glob.twoDots.admits cs

end DoubleEntry.Search
