/-!
# Machine words

The number of values that a word of some bits has bounds what is read from texts, stored and added
up.
-/

namespace DoubleEntry.Number

/-- How many values a word of some bits has. -/
def wordCount (bits : Nat) : Nat := Nat.pow 2 bits

end DoubleEntry.Number
