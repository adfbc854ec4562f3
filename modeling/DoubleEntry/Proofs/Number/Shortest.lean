import DoubleEntry.Number.Shortest
import DoubleEntry.Proofs.Number.Scaling
import DoubleEntry.Proofs.Text.Digits

/-!
# The size of a shortest decimal

The shortest decimal of a double has few digits and is at most half a unit larger than the double.
So its digits, scaled back by their power of ten in double arithmetic, stay finite. Only the two
largest doubles come too close to the bound for the general estimate; they are computed.
-/

namespace DoubleEntry.Number

open Binary64 (ofInt)
open Numeral (grow? isSome_grow?)

namespace Dyadic

variable {d : Dyadic} {c : ℕ} {k : ℤ}

/-- A decimal that is not found greater than a dyadic is not greater. -/
theorem le_of_compareDecimal {a : ℕ} {p : ℤ} (h : compareDecimal c k a p ≠ .gt) :
    (c * 10 ^ k : ℚ) ≤ a * 2 ^ p := by
  have hle := Nat.compare_ne_gt.mp h
  simp only [Nat.pow_eq] at hle
  rw [zpow_eq_div (by norm_num) k, zpow_eq_div two_ne_zero p, mul_div_assoc', mul_div_assoc',
    div_le_div_iff₀ (by positivity) (by positivity)]
  exact_mod_cast hle

/-- A decimal that identifies a dyadic is at most half a unit above it. -/
theorem le_of_identifiedBy (h : d.identifiedBy c k = true) :
    (c * 10 ^ k : ℚ) ≤ (d.significand + 1 / 2) * 2 ^ d.exponent := by
  have hhigh : compareDecimal c k (4 * d.significand + 2) (d.exponent - 2) ≠ .gt := by
    intro hgt
    simp [identifiedBy, hgt] at h
  calc (c * 10 ^ k : ℚ) ≤ (4 * d.significand + 2 : ℕ) * 2 ^ (d.exponent - 2) :=
        le_of_compareDecimal hhigh
    _ = (d.significand + 1 / 2) * 2 ^ d.exponent := by
        rw [zpow_sub₀ two_ne_zero]
        push_cast
        ring

/-- Whole units of a power of ten are counted without their fraction. -/
theorem countTens_eq_floor (d : Dyadic) (k : ℤ) : d.countTens k = ⌊d.value / 10 ^ k⌋₊ := by
  have hquotient : d.value / 10 ^ k =
      ((d.significand * 2 ^ d.exponent.toNat * 10 ^ (-k).toNat : ℕ) : ℚ) /
        (2 ^ (-d.exponent).toNat * 10 ^ k.toNat : ℕ) := by
    rw [value, zpow_eq_div two_ne_zero, zpow_eq_div (by norm_num) k]
    push_cast
    field_simp
  rw [hquotient, Nat.floor_div_eq_div]
  rfl

/-- The units counted are not more than there are. -/
theorem countTens_le (d : Dyadic) (k : ℤ) : (d.countTens k * 10 ^ k : ℚ) ≤ d.value := by
  have hpos : (0 : ℚ) < 10 ^ k := by positivity
  have hnonneg : 0 ≤ d.value / 10 ^ k := div_nonneg d.value_nonneg hpos.le
  rw [countTens_eq_floor, ← le_div_iff₀ hpos]
  exact Nat.floor_le hnonneg

/-- There is less than one unit more than are counted. -/
theorem lt_countTens_add_one (d : Dyadic) (k : ℤ) : d.value < (d.countTens k + 1) * 10 ^ k := by
  have hpos : (0 : ℚ) < 10 ^ k := by positivity
  rw [countTens_eq_floor, ← div_lt_iff₀ hpos]
  exact Nat.lt_floor_add_one _

/-- A dyadic has no digit before its leading one. -/
theorem value_lt_leading (d : Dyadic) : d.value < 10 ^ (d.leading + 1) := by
  have hcast : (d.countTens (-400) + 1 : ℚ) ≤
      10 ^ ((Nat.toDigits 10 (d.countTens (-400))).length : ℤ) := by
    exact_mod_cast Text.lt_pow_length_toDigits (d.countTens (-400))
  calc d.value < (d.countTens (-400) + 1) * 10 ^ (-400 : ℤ) := d.lt_countTens_add_one _
    _ ≤ 10 ^ ((Nat.toDigits 10 (d.countTens (-400))).length : ℤ) * 10 ^ (-400 : ℤ) := by
        gcongr
    _ = 10 ^ (d.leading + 1) := by
        rw [← zpow_add₀ (by norm_num), leading]
        congr 1
        omega

/-- A double has a digit at its leading one. -/
theorem IsDouble.leading_le (hd : d.IsDouble) (hpos : 0 < d.significand) :
    (10 ^ d.leading : ℚ) ≤ d.value := by
  have hunit : (10 : ℚ) ^ (-400 : ℤ) ≤ d.value := by
    have hone : (1 : ℚ) ≤ d.significand := by exact_mod_cast hpos
    have hpowers : (2 : ℚ) ^ 1074 ≤ 10 ^ 400 := by
      exact_mod_cast show 2 ^ 1074 ≤ 10 ^ 400 by decide +kernel
    calc (10 : ℚ) ^ (-400 : ℤ) ≤ 2 ^ (-1074 : ℤ) := by
          rw [zpow_neg, zpow_neg]
          exact inv_anti₀ (by positivity) hpowers
      _ ≤ 2 ^ d.exponent := zpow_le_zpow_right₀ one_le_two hd.least
      _ ≤ d.value := le_mul_of_one_le_left (by positivity) hone
  have hcount : 0 < d.countTens (-400) := by
    rw [countTens_eq_floor, Nat.floor_pos, one_le_div (by positivity)]
    exact hunit
  have hlength : 0 < (Nat.toDigits 10 (d.countTens (-400))).length :=
    List.length_pos_iff.mpr Nat.toDigits_ne_nil
  have hcast : (10 : ℚ) ^ ((Nat.toDigits 10 (d.countTens (-400))).length - 1 : ℤ) ≤
      d.countTens (-400) := by
    rw [← Nat.cast_one, ← Nat.cast_sub hlength, zpow_natCast]
    exact_mod_cast Text.pow_length_toDigits_le hcount
  calc (10 : ℚ) ^ d.leading
      = 10 ^ ((Nat.toDigits 10 (d.countTens (-400))).length - 1 : ℤ) * 10 ^ (-400 : ℤ) := by
        rw [← zpow_add₀ (by norm_num), leading]
        congr 1
        omega
    _ ≤ d.countTens (-400) * 10 ^ (-400 : ℤ) := by gcongr
    _ ≤ d.value := d.countTens_le _

/-- On the grid of one of the first digits of a dyadic few units are counted. -/
theorem countTens_lt (d : Dyadic) {i : ℕ} (hi : i ≤ 16) :
    d.countTens (d.leading - i) < 10 ^ 17 := by
  have hpos : (0 : ℚ) < 10 ^ (d.leading - i) := by positivity
  have hlt : (d.countTens (d.leading - i) : ℚ) < 10 ^ (17 : ℤ) := by
    rw [← mul_lt_mul_iff_of_pos_right hpos, ← zpow_add₀ (by norm_num)]
    calc (d.countTens (d.leading - i) * 10 ^ (d.leading - i) : ℚ) ≤ d.value := d.countTens_le _
      _ < 10 ^ (d.leading + 1) := d.value_lt_leading
      _ ≤ 10 ^ (17 + (d.leading - i)) := zpow_le_zpow_right₀ (by norm_num) (by omega)
  exact_mod_cast hlt

/-- A point of the grid that is chosen identifies the dyadic and is next to it. -/
theorem gridPoint?_spec (h : d.gridPoint? k = some c) :
    d.identifiedBy c k = true ∧ c ≤ d.countTens k + 1 := by
  unfold gridPoint? at h
  dsimp only at h
  split at h
  · exact absurd h (by simp)
  · obtain rfl := Option.some.inj h
    exact ⟨by assumption, Nat.le_succ _⟩
  · obtain rfl := Option.some.inj h
    exact ⟨by assumption, le_refl _⟩
  · split at h
    · obtain rfl := Option.some.inj h
      exact ⟨by assumption, le_refl _⟩
    · obtain rfl := Option.some.inj h
      exact ⟨by assumption, Nat.le_succ _⟩
    · obtain rfl := Option.some.inj h
      split_ifs
      · exact ⟨by assumption, Nat.le_succ _⟩
      · exact ⟨by assumption, le_refl _⟩

/-- Dropping zeros changes neither the number nor adds digits. -/
theorem dropZeros_spec (c : ℕ) (k : ℤ) :
    ((dropZeros c k).1 * 10 ^ (dropZeros c k).2 : ℚ) = c * 10 ^ k ∧ (dropZeros c k).1 ≤ c := by
  fun_induction dropZeros c k with
  | case1 c k h ih =>
    obtain ⟨hvalue, hle⟩ := ih
    have hten : (c : ℚ) = (c / 10 : ℕ) * 10 := by
      exact_mod_cast (Nat.div_mul_cancel (Nat.dvd_of_mod_eq_zero h.2)).symm
    refine ⟨?_, hle.trans (Nat.div_le_self _ _)⟩
    rw [hvalue, zpow_add₀ (by norm_num), zpow_one, hten]
    ring
  | case2 c k h => exact ⟨rfl, le_refl _⟩

/-- The shortest decimal as one function: the equation at an argument would have the search for the
grid evaluated. -/
theorem shortest_eq : shortest = fun d =>
    match ((List.range 17).map fun (i : ℕ) => d.leading - (i : ℤ)).findSome?
      fun k => (d.gridPoint? k).map (·, k) with
    | some (c, k) => dropZeros c k
    | none => (d.countTens (d.leading - 16), d.leading - 16) := (rfl)

/-- The shortest decimal is the first point that is chosen on a grid of one of the first digits, or
what is counted on the last of them. -/
theorem shortest_cases (d : Dyadic) :
    (∃ i ≤ 16, ∃ c, d.gridPoint? (d.leading - (i : ℕ)) = some c ∧
      d.shortest = dropZeros c (d.leading - i)) ∨
    d.shortest = (d.countTens (d.leading - 16), d.leading - 16) := by
  have hdef := congrFun shortest_eq d
  generalize d.leading = leading at hdef ⊢
  cases hfound : ((List.range 17).map fun (i : ℕ) => leading - (i : ℤ)).findSome?
      fun k => (d.gridPoint? k).map (·, k) with
  | none => exact .inr (by rw [hdef, hfound])
  | some point =>
    obtain ⟨grid, hgrid, hpoint⟩ := List.exists_of_findSome?_eq_some hfound
    obtain ⟨i, hi, rfl⟩ := List.mem_map.mp hgrid
    obtain ⟨c, hchosen, rfl⟩ := Option.map_eq_some_iff.mp hpoint
    exact .inl ⟨i, Nat.le_of_lt_succ (List.mem_range.mp hi), c, hchosen,
      by rw [hdef, hfound]⟩

/-- The shortest decimal has at most seventeen digits and is at most half a unit above. -/
theorem shortest_spec (d : Dyadic) :
    d.shortest.1 ≤ 10 ^ 17 ∧
      (d.shortest.1 * 10 ^ d.shortest.2 : ℚ) ≤ (d.significand + 1 / 2) * 2 ^ d.exponent := by
  rcases d.shortest_cases with ⟨i, hi, c, hchosen, hshortest⟩ | hshortest
  · obtain ⟨hidentified, hle⟩ := gridPoint?_spec hchosen
    obtain ⟨hvalue, hdropped⟩ := dropZeros_spec c (d.leading - i)
    have hcount := d.countTens_lt hi
    rw [hshortest, hvalue]
    exact ⟨by omega, le_of_identifiedBy hidentified⟩
  · have hcount := d.countTens_lt (i := 16) le_rfl
    rw [hshortest]
    refine ⟨hcount.le, (d.countTens_le _).trans ?_⟩
    rw [value]
    gcongr
    norm_num

/-- A decimal that identifies a positive dyadic is positive. -/
theorem pos_of_identifiedBy (h : d.identifiedBy c k = true) (hpos : 0 < d.significand) :
    0 < c := by
  by_contra hzero
  obtain rfl : c = 0 := by omega
  have hless : ∀ a p, 0 < a → compareDecimal 0 k a p = .lt := by
    intro a p ha
    rw [compareDecimal, Nat.zero_mul, Nat.zero_mul, Nat.compare_eq_lt]
    exact Nat.mul_pos (Nat.mul_pos ha (Nat.two_pow_pos _)) (Nat.pow_pos (by decide))
  unfold identifiedBy at h
  dsimp only at h
  rw [hless _ _ (by split_ifs <;> omega)] at h
  simp at h

/-- The shortest decimal of a positive double is positive. -/
theorem IsDouble.shortest_pos (hd : d.IsDouble) (hpos : 0 < d.significand) : 0 < d.shortest.1 := by
  rcases d.shortest_cases with ⟨i, -, c, hchosen, hshortest⟩ | hshortest
  · have hc := pos_of_identifiedBy (gridPoint?_spec hchosen).1 hpos
    have hvalue := (dropZeros_spec c (d.leading - i)).1
    rw [hshortest]
    by_contra hzero
    have hdropped : (dropZeros c (d.leading - i)).1 = 0 := by omega
    rw [hdropped, Nat.cast_zero, zero_mul] at hvalue
    have hc' : (0 : ℚ) < c := by exact_mod_cast hc
    exact absurd hvalue (by positivity)
  · rw [hshortest, countTens_eq_floor]
    refine Nat.floor_pos.mpr ((one_le_div (by positivity)).mpr ?_)
    exact (zpow_le_zpow_right₀ (by norm_num) (by omega)).trans (hd.leading_le hpos)

/-- A point found that does not end in a zero is the shortest decimal. -/
theorem shortest_of_found
    (hfound : ((List.range 17).map fun (i : ℕ) => d.leading - (i : ℤ)).findSome?
      (fun k => (d.gridPoint? k).map (·, k)) = some (c, k)) (hlast : c % 10 ≠ 0) :
    d.shortest = (c, k) := by
  rw [congrFun shortest_eq d, hfound]
  change dropZeros c k = (c, k)
  rw [dropZeros, dif_neg fun h => hlast h.2]

/-- Half a unit above a double that is not one of the two largest is below them. -/
theorem IsDouble.half_unit_above_le (hd : d.IsDouble)
    (hlargest : ¬(d = ⟨2 ^ 53 - 1, 971⟩ ∨ d = ⟨2 ^ 53 - 2, 971⟩)) :
    ((d.significand + 1 / 2) * 2 ^ d.exponent : ℚ) ≤ (2 ^ 53 - 5 / 2) * 2 ^ (971 : ℤ) := by
  obtain ⟨significand, exponent⟩ := d
  obtain ⟨hsignificand, -, hmost⟩ := hd
  simp only [Dyadic.mk.injEq] at hlargest hsignificand ⊢
  have hmost : exponent ≤ 971 := hmost
  rcases hmost.lt_or_eq with hless | rfl
  · have hle : (significand : ℚ) + 1 ≤ 2 ^ 53 := by exact_mod_cast hsignificand
    calc ((significand + 1 / 2) * 2 ^ exponent : ℚ)
        ≤ (2 ^ 53 - 1 / 2) * 2 ^ exponent := by gcongr; linarith
      _ ≤ (2 ^ 53 - 1 / 2) * 2 ^ (970 : ℤ) := by
          refine mul_le_mul_of_nonneg_left ?_ (by norm_num)
          exact zpow_le_zpow_right₀ one_le_two (by omega)
      _ ≤ (2 ^ 53 - 5 / 2) * 2 * 2 ^ (970 : ℤ) :=
          mul_le_mul_of_nonneg_right (by norm_num) (by positivity)
      _ = (2 ^ 53 - 5 / 2) * 2 ^ (971 : ℤ) := by
          rw [mul_assoc, ← zpow_one_add₀ two_ne_zero]
          rfl
  · have hthree : significand + 3 ≤ 2 ^ 53 := by
      norm_num at hlargest hsignificand ⊢
      omega
    have hle : (significand : ℚ) + 3 ≤ 2 ^ 53 := by exact_mod_cast hthree
    exact mul_le_mul_of_nonneg_right (by linarith) (by positivity)

end Dyadic

/-- The shortest decimal of a double is scaled back to a number, also of the largest doubles. -/
theorem isSome_grow?_shortest {d : Dyadic} (hd : d.IsDouble) (hk : 0 ≤ d.shortest.2) :
    (grow? (ofInt d.shortest.1) d.shortest.2.toNat).isSome = true := by
  by_cases hlargest : d = ⟨2 ^ 53 - 1, 971⟩ ∨ d = ⟨2 ^ 53 - 2, 971⟩
  · -- Their shortest decimals lie above what the estimate covers.
    rcases hlargest with rfl | rfl
    · rw [Dyadic.shortest_of_found (c := 17976931348623157) (k := 292) (by decide +kernel)
        (by decide)]
      decide +kernel
    · rw [Dyadic.shortest_of_found (c := 17976931348623155) (k := 292) (by decide +kernel)
        (by decide)]
      decide +kernel
  · refine isSome_grow? ?_
    have hscale : (10 : ℚ) ^ d.shortest.2 = 10 ^ d.shortest.2.toNat := by
      rw [← zpow_natCast, Int.toNat_of_nonneg hk]
    rw [← hscale]
    exact d.shortest_spec.2.trans (hd.half_unit_above_le hlargest)

end DoubleEntry.Number
