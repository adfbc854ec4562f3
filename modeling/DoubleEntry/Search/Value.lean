import DoubleEntry.Number.Binary64

/-!
# Values that conditions compare

A condition compares a value found in a row with an operand that is bound to the statement. Numbers
compare exactly, an integer also with a double; texts compare by code points; every number comes
before every text; and nothing compares with a missing value.
-/

namespace DoubleEntry.Search

open Number (Binary64)

/-- A value found in a row. -/
inductive Value where
  | null
  | integer (value : Int)
  | real (value : Binary64)
  | text (value : String)
  deriving DecidableEq

/-- A value bound to a statement. -/
inductive Operand where
  | integer (value : Int)
  | real (value : Binary64)
  | text (value : String)
  deriving DecidableEq

/-- How a value compares with an operand. -/
def Value.cmp? : Value → Operand → Option Ordering
  | null, _ => none
  | integer a, .integer b => some (compare a b)
  | integer a, .real y => some (y.cmpInt a).swap
  | integer _, .text _ => some .lt
  | real x, .integer b => some (x.cmpInt b)
  | real x, .real y => some (x.cmp y)
  | real _, .text _ => some .lt
  | text _, .integer _ => some .gt
  | text _, .real _ => some .gt
  | text a, .text b => some (compare a b)

/-- A relation between two ordered things. -/
inductive Relation where
  | eq
  | ne
  | gt
  | gte
  | lt
  | lte
  deriving DecidableEq

/-- Whether a relation holds between two things that compare as given. -/
def Relation.admits : Relation → Ordering → Bool
  | eq, o => o == .eq
  | ne, o => o != .eq
  | gt, o => o == .gt
  | gte, o => o != .lt
  | lt, o => o == .lt
  | lte, o => o != .gt

end DoubleEntry.Search
