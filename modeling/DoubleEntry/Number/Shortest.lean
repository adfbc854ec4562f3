import DoubleEntry.Number.Binary64

/-!
# Shortest decimal text of a double

The text of a double uses the fewest significant digits that identify it: the first decimal grid
with a point inside the interval of reals that round to the double, and of two such points the one
nearer to it. A `Layout` then says where positional notation ends and how whole numbers are marked.
-/

namespace DoubleEntry.Number

namespace Dyadic

/-- Compares `c · 10 ^ k` with `a · 2 ^ p` exactly. -/
def compareDecimal (c : Nat) (k : Int) (a : Nat) (p : Int) : Ordering :=
  compare (c * Nat.pow 10 k.toNat * Nat.pow 2 (-p).toNat)
    (a * Nat.pow 2 p.toNat * Nat.pow 10 (-k).toNat)

/-- Whether `c · 10 ^ k` rounds to the double of this magnitude. The reals that do reach half way to
the neighbouring doubles, and the lower neighbour of a power of two is only half as far; the ends
belong to the interval when the significand is even. -/
def identifiedBy (d : Dyadic) (c : Nat) (k : Int) : Bool :=
  let even := d.significand % 2 == 0
  let narrow := d.significand == Nat.pow 2 52 && decide (Binary64.leastExponent < d.exponent)
  let low := compareDecimal c k (4 * d.significand - (if narrow then 1 else 2)) (d.exponent - 2)
  let high := compareDecimal c k (4 * d.significand + 2) (d.exponent - 2)
  (low == .gt || even && low == .eq) && (high == .lt || even && high == .eq)

/-- The whole number of units of `10 ^ k` in a dyadic. -/
def countTens (d : Dyadic) (k : Int) : Nat :=
  d.significand * Nat.pow 2 d.exponent.toNat * Nat.pow 10 (-k).toNat /
    (Nat.pow 2 (-d.exponent).toNat * Nat.pow 10 k.toNat)

/-- The position of the leading decimal digit: `10 ^ leading ≤ d < 10 ^ (leading + 1)`. Every double
is at least `10 ^ -324`, so four hundred further places leave a whole number. -/
def leading (d : Dyadic) : Int := (Nat.toDigits 10 (d.countTens (-400))).length - 401

/-- The better of the two neighbours of `d` on the grid of `10 ^ k`, if either identifies it. -/
def gridPoint? (d : Dyadic) (k : Int) : Option Nat :=
  let c := d.countTens k
  match d.identifiedBy c k, d.identifiedBy (c + 1) k with
  | false, false => none
  | true, false => some c
  | false, true => some (c + 1)
  | true, true =>
    match compareDecimal (2 * c + 1) k (2 * d.significand) d.exponent with
    | .lt => some (c + 1)
    | .gt => some c
    | .eq => some (if c % 2 = 0 then c else c + 1)

/-- Moves trailing zeros of `c · 10 ^ k` into the exponent. -/
def dropZeros (c : Nat) (k : Int) : Nat × Int :=
  if h : c ≠ 0 ∧ c % 10 = 0 then dropZeros (c / 10) (k + 1) else (c, k)
termination_by c
decreasing_by omega

/-- The shortest decimal that identifies a positive double: digits and power of ten. Seventeen
digits always suffice. -/
def shortest (d : Dyadic) : Nat × Int :=
  let grids := (List.range 17).map fun (i : Nat) => d.leading - i
  match grids.findSome? fun k => (d.gridPoint? k).map (·, k) with
  | some (c, k) => dropZeros c k
  | none => (d.countTens (d.leading - 16), d.leading - 16)

end Dyadic

/-- How shortest digits are laid out. -/
structure Layout where
  /-- Most digits that positional notation may have before the point. -/
  mostWhole : Option Nat
  /-- Most zeros that positional notation may have between the point and the first digit. -/
  mostZeros : Option Nat
  /-- What follows a whole number in positional notation. -/
  wholeMark : String

namespace Layout

/-- Whether digits whose point stands after the first `point` of them are written positionally. -/
def isPositional (layout : Layout) (point : Int) : Bool :=
  layout.mostWhole.all (fun most => decide (point ≤ most)) &&
    layout.mostZeros.all (fun most => decide (-point ≤ most))

/-- Digits with a point behind the first, if others follow. -/
def mantissa : List Char → List Char
  | first :: second :: rest => first :: '.' :: second :: rest
  | short => short

/-- The text of the positive number `c · 10 ^ k`. -/
def renderPositive (layout : Layout) (c : Nat) (k : Int) : String :=
  let digits := Nat.toDigits 10 c
  let point := digits.length + k
  let zeros (n : Int) := List.replicate n.toNat '0'
  if layout.isPositional point then
    if 0 ≤ k then String.ofList (digits ++ zeros k) ++ layout.wholeMark
    else if 0 < point then
      String.ofList (digits.take point.toNat ++ '.' :: digits.drop point.toNat)
    else String.ofList ('0' :: '.' :: (zeros (-point) ++ digits))
  else
    String.ofList (mantissa digits) ++ "e" ++ toString (point - 1)

/-- The text of a double. -/
def render (layout : Layout) (x : Binary64) : String :=
  let sign := if x.isNegative then "-" else ""
  match x with
  | .infinite _ => sign ++ "inf"
  | .finite _ d =>
    if d.significand = 0 then sign ++ "0" ++ layout.wholeMark
    else
      let shortest := d.shortest
      sign ++ layout.renderPositive shortest.1 shortest.2

end Layout

end DoubleEntry.Number
