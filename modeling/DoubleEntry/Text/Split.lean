/-!
# Cutting texts

Cutting a text at every occurrence of a character. A text without that character is one part, and
there is always one part more than there are occurrences.
-/

namespace DoubleEntry.Text

/-- The parts of a text between the occurrences of a character. -/
def split (c : Char) : List Char → List (List Char)
  | [] => [[]]
  | x :: rest =>
    if x = c then [] :: split c rest
    else match split c rest with
      | [] => [[x]]
      | part :: more => (x :: part) :: more

/-- The parts before and after the first occurrence of a character. -/
def cut (c : Char) (cs : List Char) : List Char × List Char :=
  (cs.takeWhile fun x => x ≠ c, (cs.dropWhile fun x => x ≠ c).drop 1)

end DoubleEntry.Text
