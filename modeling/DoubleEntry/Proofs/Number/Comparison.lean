import DoubleEntry.Proofs.Number.Rounding

/-!
# Doubles as exact numbers

A double stands for a rational number or an infinity. Comparing two doubles, or a double with an
integer, compares the numbers that they stand for, without any rounding.
-/

namespace DoubleEntry.Number

/-- The number of units in a dyadic has its value. -/
theorem Dyadic.countUnits_eq (d : Dyadic) {unit : ℤ} (h : unit ≤ d.exponent) :
    (d.countUnits unit : ℚ) * 2 ^ unit = d.value := by
  have hexponent : d.exponent = (d.exponent - unit).toNat + unit := by omega
  rw [countUnits, value, Nat.pow_eq]
  push_cast
  rw [mul_assoc, ← zpow_natCast, ← zpow_add₀ two_ne_zero, ← hexponent]

namespace Binary64

/-- The number or infinity that a double stands for. -/
def value : Binary64 → WithBot (WithTop ℚ)
  | finite negative d => ((if negative then -d.value else d.value : ℚ) : WithTop ℚ)
  | infinite negative => if negative then ⊥ else ⊤

/-- A rational number among the numbers and infinities. -/
def exactly (q : ℚ) : WithBot (WithTop ℚ) := (q : WithTop ℚ)

/-- Rational numbers keep their order among the numbers and infinities. -/
theorem strictMono_exactly : StrictMono exactly :=
  WithBot.coe_strictMono.comp WithTop.coe_strictMono

/-- A number with its sign, in units. -/
theorem signed_countUnits (negative : Bool) (d : Dyadic) {unit : ℤ} (h : unit ≤ d.exponent) :
    (signed negative (d.countUnits unit) : ℚ) * 2 ^ unit =
      if negative then -d.value else d.value := by
  have hunits := d.countUnits_eq h
  cases negative with
  | false => simpa [signed] using hunits
  | true => simpa [signed] using hunits

/-- Comparing doubles compares the numbers that they stand for. -/
theorem cmp_compares (x y : Binary64) : (x.cmp y).Compares x.value y.value := by
  cases x with
  | finite s a =>
    cases y with
    | finite t b =>
      -- Both are whole numbers of the smaller unit.
      have hscale : StrictMono fun n : ℤ => (n : ℚ) * 2 ^ min a.exponent b.exponent := by
        intro m n h
        exact mul_lt_mul_of_pos_right (Int.cast_lt.mpr h) (by positivity)
      have hunits : ((finite s a).cmp (finite t b)).Compares
          (signed s (a.countUnits (min a.exponent b.exponent)))
          (signed t (b.countUnits (min a.exponent b.exponent))) := (compare_iff _ _).mp rfl
      have hvalues := (strictMono_exactly.comp hscale).compares.mpr hunits
      simp only [Function.comp_apply, signed_countUnits s a (min_le_left _ _),
        signed_countUnits t b (min_le_right _ _)] at hvalues
      exact hvalues
    | infinite t =>
      cases t with
      | false => exact WithBot.coe_lt_coe.mpr (WithTop.coe_lt_top _)
      | true => exact WithBot.bot_lt_coe _
  | infinite s =>
    cases y with
    | finite t b =>
      cases s with
      | false => exact WithBot.coe_lt_coe.mpr (WithTop.coe_lt_top _)
      | true => exact WithBot.bot_lt_coe _
    | infinite t =>
      cases s <;> cases t
      · rfl
      · exact bot_lt_top
      · exact bot_lt_top
      · rfl

/-- Comparing a double with an integer compares the numbers that they stand for. -/
theorem cmpInt_compares (x : Binary64) (n : ℤ) : (x.cmpInt n).Compares x.value (exactly n) := by
  have hvalue : (finite (decide (n < 0)) ⟨n.natAbs, 0⟩).value = exactly n := by
    have hdyadic : (⟨n.natAbs, 0⟩ : Dyadic).value = |(n : ℚ)| := by
      rw [Dyadic.value, zpow_zero, mul_one, Nat.cast_natAbs, Int.cast_abs]
    rw [value, hdyadic]
    refine congrArg exactly ?_
    by_cases hneg : n < 0
    · rw [if_pos (decide_eq_true hneg), abs_of_neg (Int.cast_lt_zero.mpr hneg), neg_neg]
    · rw [if_neg (by simpa using hneg), abs_of_nonneg (Int.cast_nonneg (not_lt.mp hneg))]
  exact hvalue ▸ cmp_compares x _

end Binary64

end DoubleEntry.Number
