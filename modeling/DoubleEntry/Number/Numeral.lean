import DoubleEntry.Number.Binary64
import DoubleEntry.Number.Word

/-!
# Reading decimal numerals as doubles

A `Numeral` is a decimal literal taken apart into its digits. Three rules turn it into a double:
`nearest` rounds the exact value once; `stepwise?` keeps the leading digits that fit a 64-bit word
and scales by a power of ten in double arithmetic, so it rounds more than once; `extended` keeps
nineteen or twenty digits and scales in arithmetic of 64 significant bits. The three agree on short
numerals and may differ in the last bit on long ones.
-/

namespace DoubleEntry.Number

/-- A decimal literal: sign, digits before and after the point, and the exponent after `e`. -/
structure Numeral where
  negative : Bool
  whole : List Nat
  fraction : List Nat
  exponent : Int
  deriving DecidableEq

/-- The number that a list of decimal digits writes. -/
def ofDigits (digits : List Nat) : Nat := digits.foldl (fun n d => n * 10 + d) 0

namespace Numeral

/-- `±n` for a double `n` that is not negative. -/
private def withSign (negative : Bool) (x : Binary64) : Binary64 := if negative then x.neg else x

/-- The double nearest to the value written. -/
def nearest (n : Numeral) : Binary64 :=
  let digits := ofDigits (n.whole ++ n.fraction)
  let scale := n.exponent - n.fraction.length
  Binary64.ofRatio n.negative (digits * Nat.pow 10 scale.toNat) (Nat.pow 10 (-scale).toNat)

/-! ## Stepwise scaling -/

/-- The largest 64-bit word. -/
def wordMax : Nat := wordCount 64 - 1

/-- Appends digits to `start` while the result fits a word; the digits from the first that does not
fit are left over. -/
def takeWord (start : Nat) : List Nat → Nat × List Nat
  | [] => (start, [])
  | d :: rest =>
    if start * 10 + d ≤ wordMax then takeWord (start * 10 + d) rest else (start, d :: rest)

/-- The double nearest to a power of ten. -/
def powerOfTen (k : Nat) : Binary64 := Binary64.ofInt (Nat.pow 10 k)

/-- `x / 10 ^ k`, in steps of at most `10 ^ 308`, stopping when nothing is left. -/
def shrink (x : Binary64) (k : Nat) : Binary64 :=
  if k ≤ 308 then x.div (powerOfTen k)
  else if x.isZero then x
  else shrink (x.div (powerOfTen 308)) (k - 308)
termination_by k

/-- `x · 10 ^ k` when that is finite. -/
def grow? (x : Binary64) (k : Nat) : Option Binary64 :=
  if k ≤ 308 then
    let y := x.mul (powerOfTen k)
    if y.isInfinite then none else some y
  else if x.isZero then some x else none

/-- The leading digits that fit a word, scaled by a power of ten; `none` beyond the largest
double. -/
def stepwise? (n : Numeral) : Option Binary64 :=
  let (head, dropped) := takeWord 0 n.whole
  let (word, unread) := takeWord head n.fraction
  let used := n.fraction.length - unread.length
  let scale : Int := dropped.length - used + n.exponent
  let x := Binary64.ofInt word
  let y := if 0 ≤ scale then grow? x scale.toNat else some (shrink x (-scale).toNat)
  y.map (withSign n.negative)

/-! ## Scaling with 64 significant bits -/

/-- The nearest dyadic of 64 significant bits. -/
def roundExtended (num den : Nat) : Dyadic := Dyadic.round 64 (-16445) num den

/-- The product of two extended numbers, rounded once. -/
def mulExtended (a b : Dyadic) : Dyadic :=
  let (p, q) := a.ratio
  let (r, u) := b.ratio
  roundExtended (p * r) (q * u)

/-- Digits are gathered while the number is below this bound. -/
def gatherBound : Nat := (wordMax - 9) / 10

/-- Appends digits to `start` while it is below `gatherBound`; counts the digits not used. -/
def gather (start : Nat) : List Nat → Nat × Nat
  | [] => (start, 0)
  | d :: rest =>
    if start < gatherBound then gather (start * 10 + d) rest else (start, rest.length + 1)

/-- Moves powers of ten from the exponent into the word while it has room. -/
def absorb (word : Nat) : Nat → Nat × Nat
  | 0 => (word, 0)
  | k + 1 => if word < wordMax / 10 then absorb (word * 10) k else (word, k + 1)

/-- Cancels powers of ten of a negative exponent against trailing zeros of the word. -/
def cancel (word : Nat) : Nat → Nat × Nat
  | 0 => (word, 0)
  | k + 1 => if word % 10 = 0 then cancel (word / 10) k else (word, k + 1)

/-- Multiplies `times` over by `factor`. -/
def mulRepeated (factor : Dyadic) : Nat → Dyadic → Dyadic
  | 0, x => x
  | times + 1, x => mulRepeated factor times (mulExtended x factor)

/-- Scales by hundreds, then tens, then units of the exponent, `factor k` standing for
`10 ^ k` or `10 ^ -k`. -/
def scaleExtended (factor : Nat → Dyadic) (x : Dyadic) (k : Nat) : Dyadic :=
  mulRepeated (factor 1) (k % 10)
    (mulRepeated (factor 10) (k % 100 / 10) (mulRepeated (factor 100) (k / 100) x))

/-- The largest finite double, as a whole number. -/
def largestFinite : Nat := (Nat.pow 2 53 - 1) * Nat.pow 2 971

/-- Rounds an extended number to a double; anything beyond the largest double is infinite. -/
def narrow (negative : Bool) (x : Dyadic) : Binary64 :=
  let (num, den) := x.ratio
  if largestFinite * den < num then Binary64.infinite negative
  else Binary64.ofRatio negative num den

/-- The largest size of an exponent that `extended` takes into account; beyond it everything is
infinite or zero. -/
def exponentBound : Int := 10000

/-- The double found by scaling the leading digits with 64 significant bits. -/
def extended (n : Numeral) : Binary64 :=
  let (head, dropped) := gather 0 n.whole
  let (word, unread) := gather head n.fraction
  let exponent := max (-exponentBound) (min n.exponent exponentBound)
  let scale : Int := dropped - (n.fraction.length - unread : Nat) + exponent
  if word = 0 then Binary64.zero n.negative
  else if 0 ≤ scale then
    let (word, k) := absorb word scale.toNat
    narrow n.negative (scaleExtended (fun k => roundExtended (Nat.pow 10 k) 1) ⟨word, 0⟩ k)
  else
    let (word, k) := cancel word (-scale).toNat
    narrow n.negative (scaleExtended (fun k => roundExtended 1 (Nat.pow 10 k)) ⟨word, 0⟩ k)

end Numeral

end DoubleEntry.Number
