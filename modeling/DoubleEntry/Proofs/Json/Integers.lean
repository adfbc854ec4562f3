import DoubleEntry.Body
import DoubleEntry.Proofs.Amount.Totals
import DoubleEntry.Proofs.Json.Numerals
import DoubleEntry.Proofs.Json.ReadBack

/-!
# Integers and texts read back

An integer that fits a word is read back from its digits, which are a numeral without a point or an
exponent. With it arrays of integers and arrays of texts are read back as they were written, item by
item.
-/

namespace DoubleEntry.Json

open Text.Reader (digitValues ofDigits_digitValues)

/-- The text of an integer is a numeral with its sign and its digits. -/
theorem numeral?_integerText (n : Int) :
    numeral? (integerText n) =
      some (⟨decide (n < 0), digitValues (Nat.toDigits 10 n.natAbs), [], 0⟩, false) := by
  have htext : integerText n = sign (decide (n < 0)) ++ (Nat.toDigits 10 n.natAbs ++ []) := by
    rw [integerText, sign, List.append_nil]
    by_cases hneg : n < 0
    · rw [if_pos hneg, if_pos (decide_eq_true hneg)]
      rfl
    · rw [if_neg hneg, if_neg (by simp [hneg])]
      rfl
  rw [htext]
  exact numeral?_whole _ (isWhole_toDigits _) rfl (by simp)

/-- A numeral is read as a number and not as one of the literals. -/
theorem ofWord?_of_numeral? {letters : List Char} {x : Number.Numeral × Bool}
    (h : numeral? letters = some x) : ofWord? letters = number? letters := by
  have hne : ∀ literal, numeral? literal = none → letters ≠ literal := by
    rintro literal hnone rfl
    rw [hnone] at h
    exact absurd h (by simp)
  rw [ofWord?, if_neg (hne _ rfl), if_neg (hne _ rfl), if_neg (hne _ rfl)]

/-- The digits of an integer have its value behind its sign. -/
theorem value_integerText (n : Int) :
    (if decide (n < 0) = true then
        -(Number.ofDigits (digitValues (Nat.toDigits 10 n.natAbs)) : Int)
      else Number.ofDigits (digitValues (Nat.toDigits 10 n.natAbs))) = n := by
  rw [ofDigits_digitValues, Nat.ofDigitChars_ten_toDigits]
  by_cases hneg : n < 0
  · simp only [hneg, decide_true, if_true]
    omega
  · simp only [hneg, decide_false, Bool.false_eq_true, if_false]
    omega

/-- An integer that fits a word is read back. -/
theorem ofWord?_integerText {n : Int} (h : fitsWord n = true) :
    ofWord? (integerText n) = some (.integer n) := by
  have hnumeral := numeral?_integerText n
  have hzero : (decide (n < 0) &&
      (Number.ofDigits (digitValues (Nat.toDigits 10 n.natAbs)) : Int) == 0) = false := by
    rw [ofDigits_digitValues, Nat.ofDigitChars_ten_toDigits]
    simp only [Bool.and_eq_false_iff, decide_eq_false_iff_not, beq_eq_false_iff_ne]
    omega
  rw [ofWord?_of_numeral? hnumeral, number?, hnumeral]
  change (if !false && fitsWord _ && !_ then _ else _) = _
  rw [value_integerText, h, hzero]
  rfl

/-- An amount fits a word. -/
theorem fitsWord_toInt (a : Amount) : fitsWord a.toInt = true := by
  have hcount : (Number.wordCount 63 : Int) < Number.wordCount 64 := by decide
  exact decide_eq_true ⟨a.fits_toInt.1, a.fits_toInt.2.trans hcount⟩

namespace Reader

variable {α : Type}

/-- Items that are each read back are read back together. -/
theorem readBackItems?_map {item : α → Json} {rules : Rules} {depth : Nat} {values : List α}
    (h : ∀ a ∈ values, readBack? rules depth (item a) = some (item a)) :
    readBackItems? rules depth (values.map item) = some (values.map item) := by
  induction values with
  | nil => rfl
  | cons a rest ih =>
    have hrest := ih fun b hb => h b (List.mem_cons_of_mem _ hb)
    rw [List.map_cons, readBackItems?, h a List.mem_cons_self, hrest]
    rfl

end Reader

/-- An array is read back when its items are. -/
theorem parse?_render_array {α : Type} {item : α → Json} {values : List α}
    (h : ∀ a ∈ values, Reader.readBack? Reader.strict 1 (item a) = some (item a)) :
    parse? (Json.array (values.map item)).render = some (.array (values.map item)) := by
  rw [parse?_render, Reader.readBack?, if_pos (by decide), Reader.readBackItems?_map h]
  rfl

end DoubleEntry.Json
