/-!
# White space

The characters that count as blank, and trimming. A text is blank when nothing is left of it after
trimming.
-/

namespace DoubleEntry.Text

/-- White space in the sense of the Unicode property of that name. -/
def isBlank (c : Char) : Bool :=
  let n := c.toNat
  decide (0x9 ≤ n ∧ n ≤ 0xD) || n == 0x20 || n == 0x85 || n == 0xA0 || n == 0x1680 ||
    decide (0x2000 ≤ n ∧ n ≤ 0x200A) || n == 0x2028 || n == 0x2029 || n == 0x202F ||
    n == 0x205F || n == 0x3000

/-- Drops the white space in front. -/
def trimLeft (cs : List Char) : List Char := cs.dropWhile isBlank

/-- Drops the white space at the end. -/
def trimRight (cs : List Char) : List Char := (trimLeft cs.reverse).reverse

/-- Drops the white space at both ends. -/
def trim (cs : List Char) : List Char := trimRight (trimLeft cs)

/-- The text without the white space at its ends. -/
def trimmed (s : String) : String := String.ofList (trim s.toList)

/-- Whether a text holds nothing but white space. -/
def isBlankText (s : String) : Bool := s.toList.all isBlank

end DoubleEntry.Text
