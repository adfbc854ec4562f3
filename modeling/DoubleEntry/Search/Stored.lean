import DoubleEntry.Json.Relaxed
import DoubleEntry.Search.Pattern

/-!
# Stored data as conditions see it

Conditions look into the text in which data is stored. They read it a little differently from a
request: numbers beyond a signed word and numbers with a point are doubles scaled with 64
significant bits, of several fields with one key the first counts, and arrays and objects may nest
deeper. A text that is no JSON in the strict spelling is read in the relaxed one, up to its first
NUL.
-/

namespace DoubleEntry.Search

/-- The value of a numeral in stored data, told whether it has a point or an exponent. -/
def storedNumeral (numeral : Number.Numeral) (broken : Bool) : Json :=
  let size : Int := Number.ofDigits numeral.whole
  let value := if numeral.negative then -size else size
  if !broken && decide (-Number.wordCount 63 ≤ value ∧ value < Number.wordCount 63) then
    .integer value
  else .real numeral.extended

/-- The value of a word in stored data. -/
def storedWord? (letters : List Char) : Option Json :=
  if letters = ['n', 'u', 'l', 'l'] then some .null
  else if letters = ['t', 'r', 'u', 'e'] then some (.bool true)
  else if letters = ['f', 'a', 'l', 's', 'e'] then some (.bool false)
  else (Json.numeral? letters).map fun (numeral, broken) => storedNumeral numeral broken

/-- The signed word with the same bits as an integer. -/
def wrapWord (n : Int) : Int := Int.bmod n (Number.wordCount 64)

/-- The value of a hexadecimal number: its bits if they fit a word, and otherwise zero, which is all
that a decimal reading finds in it. -/
def storedHexadecimal (negative : Bool) (digits : List Nat) : Json :=
  if digits.length ≤ 16 then
    let size : Nat := digits.foldl (fun n d => n * 16 + d) 0
    .integer (wrapWord (if negative then -(size : Int) else size))
  else .real (Number.Binary64.zero negative)

/-- The value of a word in stored data of the relaxed spelling. -/
def relaxedWord? (letters : List Char) : Option Json :=
  if Json.Relaxed.namesOfNoNumber.contains (Json.Relaxed.lower letters) then some .null
  else
    (storedWord? letters).or <|
    ((Json.Relaxed.infinity? letters).map fun negative => .real (.infinite negative)).or <|
    ((Json.Relaxed.hexadecimal? letters).map fun (negative, digits) =>
      storedHexadecimal negative digits).or <|
    (Json.Relaxed.numeral? letters).map fun (numeral, broken) => storedNumeral numeral broken

/-- Adds a field behind those before it. -/
def addLast (key : String) (value : Json) (before : Json.Fields) : Json.Fields :=
  before ++ [(key, value)]

/-- The rules for stored data. -/
def storedRules : Json.Reader.Rules := ⟨1000, storedWord?, addLast⟩

/-- The rules for stored data of the relaxed spelling. -/
def relaxedRules : Json.Reader.Rules := ⟨1000, relaxedWord?, addLast⟩

/-- The value of stored data, if it is JSON; no data at all counts as `null`. -/
def storedValue? : Option String → Option Json
  | none => some .null
  | some text =>
    (Json.Reader.read? storedRules text.toList).or
      (Json.Relaxed.read? relaxedRules (untilNul text))

end DoubleEntry.Search
