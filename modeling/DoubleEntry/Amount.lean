import DoubleEntry.Number.Word

/-!
# Amounts of money

Amounts are whole numbers of the smallest unit of a currency in 64 bits. Totals never wrap: a total
that leaves the range at any point of the addition is no total.
-/

namespace DoubleEntry

open Number (wordCount)

/-- A signed amount in the smallest unit. -/
abbrev Amount := Int64

namespace Amount

/-- Whether an integer is an amount. -/
def Fits (n : Int) : Prop := -wordCount 63 ≤ n ∧ n < wordCount 63

instance (n : Int) : Decidable (Fits n) := inferInstanceAs (Decidable (_ ∧ _))

/-- An integer as an amount, if it fits. -/
def ofInt? (n : Int) : Option Amount := if Fits n then some (Int64.ofInt n) else none

/-- Adds an amount to a running total. -/
def plus? (total delta : Amount) : Option Amount := ofInt? (total.toInt + delta.toInt)

/-- The total of amounts added one after another from zero, if every partial total fits. -/
def total? (deltas : List Amount) : Option Amount := deltas.foldlM plus? 0

/-- The exact sum of amounts. -/
def sum (deltas : List Amount) : Int := (deltas.map Int64.toInt).foldr (· + ·) 0

end Amount

end DoubleEntry
