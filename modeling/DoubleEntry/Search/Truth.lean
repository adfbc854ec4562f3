/-!
# Three-valued truth

A test of a missing value is neither true nor false. Conjunction, disjunction and negation of such
tests are as usual where the other values decide, and otherwise unknown.
-/

namespace DoubleEntry.Search

/-- The truth of a condition. -/
inductive Truth where
  | yes
  | no
  | unknown
  deriving DecidableEq

namespace Truth

/-- A truth that is known. -/
def ofBool : Bool → Truth
  | true => yes
  | false => no

/-- Whether something is true. -/
def isYes (t : Truth) : Bool := t = yes

/-- The opposite; the unknown has none. -/
def not : Truth → Truth
  | yes => no
  | no => yes
  | unknown => unknown

/-- True when both are, false when one is. -/
def and : Truth → Truth → Truth
  | no, _ | _, no => no
  | yes, yes => yes
  | _, _ => unknown

/-- True when one is, false when both are. -/
def or : Truth → Truth → Truth
  | yes, _ | _, yes => yes
  | no, no => no
  | _, _ => unknown

end Truth

end DoubleEntry.Search
