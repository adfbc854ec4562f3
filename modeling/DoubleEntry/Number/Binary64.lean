import DoubleEntry.Number.Rounding

/-!
# Double-precision numbers

A double is a signed dyadic of at most 53 significant bits, or an infinity. Arithmetic computes the
exact result and rounds it once, and comparison is exact, also between a double and an integer, so
every statement about doubles is a statement about integers.
-/

namespace DoubleEntry.Number

/-- A double-precision number other than NaN, which no operation here produces. -/
inductive Binary64 where
  /-- A finite number; zero keeps its sign. -/
  | finite (negative : Bool) (magnitude : Dyadic)
  /-- An infinity. -/
  | infinite (negative : Bool)
  deriving DecidableEq

namespace Binary64

/-- Significant bits of a double. -/
def width : Nat := 53

/-- The exponent of the smallest unit. -/
def leastExponent : Int := -1074

/-- The exponent of the largest unit; a result beyond it is infinite. -/
def mostExponent : Int := 971

/-- The double nearest to `±num / den`. -/
def ofRatio (negative : Bool) (num den : Nat) : Binary64 :=
  let d := Dyadic.round width leastExponent num den
  if mostExponent < d.exponent then infinite negative else finite negative d

/-- The double nearest to an integer. -/
def ofInt (n : Int) : Binary64 := ofRatio (decide (n < 0)) n.natAbs 1

/-- Zero, with its sign. -/
def zero (negative : Bool) : Binary64 := finite negative ⟨0, leastExponent⟩

/-- Whether the sign bit is set. -/
def isNegative : Binary64 → Bool
  | finite negative _ => negative
  | infinite negative => negative

/-- Whether the number is a zero of either sign. -/
def isZero : Binary64 → Bool
  | finite _ d => d.significand == 0
  | infinite _ => false

/-- Whether the number is an infinity. -/
def isInfinite : Binary64 → Bool
  | finite _ _ => false
  | infinite _ => true

/-- The number with the opposite sign. -/
def neg : Binary64 → Binary64
  | finite negative d => finite (!negative) d
  | infinite negative => infinite (!negative)

/-- `n` with the given sign. -/
def signed (negative : Bool) (n : Nat) : Int := if negative then -n else n

/-- Exact comparison; the two zeros are equal. -/
def cmp : Binary64 → Binary64 → Ordering
  | finite s a, finite t b =>
    let unit := min a.exponent b.exponent
    compare (signed s (a.countUnits unit)) (signed t (b.countUnits unit))
  | finite _ _, infinite t => if t then .gt else .lt
  | infinite s, finite _ _ => if s then .lt else .gt
  | infinite s, infinite t => compare (signed s 1) (signed t 1)

/-- Exact comparison of a double with an integer. -/
def cmpInt (x : Binary64) (n : Int) : Ordering :=
  x.cmp (finite (decide (n < 0)) ⟨n.natAbs, 0⟩)

/-- The product, rounded once. An infinity times zero, which has no value, is given as zero. -/
def mul : Binary64 → Binary64 → Binary64
  | finite s a, finite t b =>
    let (p, q) := a.ratio
    let (r, u) := b.ratio
    ofRatio (s != t) (p * r) (q * u)
  | x, y => if x.isZero || y.isZero then zero (x.isNegative != y.isNegative)
    else infinite (x.isNegative != y.isNegative)

/-- The quotient, rounded once; dividing by zero gives an infinity. -/
def div : Binary64 → Binary64 → Binary64
  | finite s a, finite t b =>
    if b.significand = 0 then infinite (s != t)
    else
      let (p, q) := a.ratio
      let (r, u) := b.ratio
      ofRatio (s != t) (p * u) (q * r)
  | finite s _, infinite t => zero (s != t)
  | infinite s, y => infinite (s != y.isNegative)

/-- The sum, rounded once. Of two opposite infinities the first is given. -/
def add : Binary64 → Binary64 → Binary64
  | finite s a, finite t b =>
    let unit := min a.exponent b.exponent
    let sum := signed s (a.countUnits unit) + signed t (b.countUnits unit)
    if sum = 0 then zero (s && t)
    else
      let (num, den) := Dyadic.ratio ⟨sum.natAbs, unit⟩
      ofRatio (decide (sum < 0)) num den
  | infinite s, _ => infinite s
  | finite _ _, infinite t => infinite t

/-- The 64-bit pattern: sign, biased exponent, fraction. -/
def toBits : Binary64 → Nat
  | finite negative d =>
    let sign := if negative then Nat.pow 2 63 else 0
    if d.significand < Nat.pow 2 52 then sign + d.significand
    else sign + (d.exponent - leastExponent + 1).toNat * Nat.pow 2 52 +
      (d.significand - Nat.pow 2 52)
  | infinite negative => (if negative then Nat.pow 2 63 else 0) + 2047 * Nat.pow 2 52

end Binary64

end DoubleEntry.Number
