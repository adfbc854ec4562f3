/-!
# Rounding to a fixed number of significant bits

A `Dyadic` is a whole number of units of a power of two. `Dyadic.round` finds the dyadic with a
given number of significant bits nearest to a quotient of two natural numbers, entirely in exact
arithmetic; a quotient half way between two candidates goes to the even one.
-/

namespace DoubleEntry.Number

/-- The integer nearest to `num / den`; of two equally near ones the even one. -/
def nearestEven (num den : Nat) : Nat :=
  let q := num / den
  let r := num % den
  if 2 * r < den then q
  else if den < 2 * r then q + 1
  else if q % 2 = 0 then q else q + 1

/-- The non-negative number `significand · 2 ^ exponent`. -/
structure Dyadic where
  significand : Nat
  exponent : Int
  deriving DecidableEq

namespace Dyadic

/-- `num / den` measured in units of `2 ^ unit`, as a numerator and a denominator. -/
def measure (num den : Nat) (unit : Int) : Nat × Nat :=
  if 0 ≤ unit then (num, den * Nat.pow 2 unit.toNat) else (num * Nat.pow 2 (-unit).toNat, den)

/-- The unit in which `num / den` has `width` bits before the point, but never below `least`.
The bit lengths of `num` and `den` leave two candidates, which one comparison decides. -/
def unitFor (width : Nat) (least : Int) (num den : Nat) : Int :=
  let guess : Int := (num.log2 : Int) - den.log2 - width
  let (n, d) := measure num den guess
  max least (if d * Nat.pow 2 width ≤ n then guess + 1 else guess)

/-- The dyadic of at most `width` significant bits, in units of at least `2 ^ least`, that is
nearest to `num / den`. -/
def round (width : Nat) (least : Int) (num den : Nat) : Dyadic :=
  if num = 0 then ⟨0, least⟩
  else
    let unit := unitFor width least num den
    let (n, d) := measure num den unit
    let m := nearestEven n d
    if m = Nat.pow 2 width then ⟨Nat.pow 2 (width - 1), unit + 1⟩ else ⟨m, unit⟩

/-- Numerator and denominator of a dyadic. -/
def ratio (d : Dyadic) : Nat × Nat :=
  if 0 ≤ d.exponent then (d.significand * Nat.pow 2 d.exponent.toNat, 1)
  else (d.significand, Nat.pow 2 (-d.exponent).toNat)

/-- How many units of `2 ^ unit` a dyadic holds, for a unit no larger than its own. -/
def countUnits (d : Dyadic) (unit : Int) : Nat :=
  d.significand * Nat.pow 2 (d.exponent - unit).toNat

end Dyadic

end DoubleEntry.Number
