import DoubleEntry.Config.Setting
import DoubleEntry.Number.Shortest

/-!
# Lenient reading of settings

Environments hold texts only, so settings that may come from there are converted: texts to numbers
and to truth values, truth values to numbers, and scalars to texts. Words such as `on` and `off`
count as truth values, in either case. A number too large for its field is cut to the field's
width.
-/

namespace DoubleEntry.Setting

open Number (Binary64)

/-- Words for true. -/
def yesWords : List String := ["true", "on", "yes"]

/-- Words for false. -/
def noWords : List String := ["false", "off", "no"]

/-- The truth value of a word. -/
def wordFlag? (s : String) : Option Bool :=
  if yesWords.contains s.toLower then some true
  else if noWords.contains s.toLower then some false
  else none

/-- An unsigned 64-bit number: an optional plus and digits. -/
def unsigned? (s : String) : Option Nat :=
  let digits := match s.toList with
    | '+' :: rest => rest
    | all => all
  let n : Nat := digits.foldl (fun n c => n * 10 + (c.toNat - 48)) 0
  if !digits.isEmpty && digits.all Char.isDigit && decide (n < Number.wordCount 64) then some n
  else none

/-- The whole number nearest to a double, a half away from zero, kept within an unsigned 64-bit
word. -/
def clampedRound : Binary64 → Nat
  | .finite true _ => 0
  | .finite false d =>
    let (num, den) := d.ratio
    min ((2 * num + den) / (2 * den)) (Number.wordCount 64 - 1)
  | .infinite negative => if negative then 0 else Number.wordCount 64 - 1

/-- Numbers are written positionally whatever their size. -/
def plainLayout : Number.Layout := ⟨none, none, ""⟩

/-- A scalar as a text. -/
def asText? : Setting → Option String
  | text s => some s
  | bool b => some (if b then "true" else "false")
  | integer n => some (toString n)
  | real x => some (plainLayout.render x)
  | nan => some "NaN"
  | _ => none

/-- A scalar as an unsigned 64-bit number. -/
def asWord? : Setting → Option Nat
  | integer n => if 0 ≤ n then some n.toNat else none
  | bool b => some b.toNat
  | real x => some (clampedRound x)
  | nan => some 0
  | text s =>
    match wordFlag? s with
    | some b => some b.toNat
    | none => unsigned? s
  | _ => none

/-- A scalar as a truth value. -/
def asFlag? : Setting → Option Bool
  | bool b => some b
  | integer n => some (n != 0)
  | real x => some !x.isZero
  | nan => some true
  | text s => if s = "1" then some true else if s = "0" then some false else wordFlag? s
  | _ => none

/-- The reading with conversions. -/
def lenient : Reading where
  text? := asText?
  word? bits v := (asWord? v).map fun n => n % Number.wordCount bits
  flag? := asFlag?

end DoubleEntry.Setting
