import DoubleEntry.Number.Binary64
import Mathlib

/-!
# How far rounding goes

The value of a dyadic is a rational number. Rounding goes up by half a unit at most, which is little
compared to the quotient unless that is among the smallest numbers, and it ends at an infinity only
from half a unit above the largest double on. What comes out otherwise is a double.
-/

namespace DoubleEntry.Number

/-- A power with a signed exponent as a quotient of powers. -/
theorem zpow_eq_div {b : ℚ} (hb : b ≠ 0) (k : ℤ) : b ^ k = b ^ k.toNat / b ^ (-k).toNat := by
  have hk : k = k.toNat - (-k).toNat := by omega
  calc b ^ k = b ^ ((k.toNat : ℤ) - (-k).toNat) := by rw [← hk]
    _ = b ^ k.toNat / b ^ (-k).toNat := by rw [zpow_sub₀ hb, zpow_natCast, zpow_natCast]

namespace Dyadic

/-- The number that a dyadic stands for. -/
def value (d : Dyadic) : ℚ := d.significand * 2 ^ d.exponent

/-- A dyadic is not negative. -/
theorem value_nonneg (d : Dyadic) : 0 ≤ d.value := by
  rw [value]
  positivity

/-- The numerator and the denominator of a dyadic have its value as their quotient. -/
theorem ratio_eq (d : Dyadic) : (d.ratio.1 : ℚ) / d.ratio.2 = d.value := by
  rw [ratio, value, zpow_eq_div two_ne_zero]
  split_ifs with h
  · have hneg : (-d.exponent).toNat = 0 := by omega
    simp [hneg]
  · have hpos : d.exponent.toNat = 0 := by omega
    simp [hpos, div_eq_mul_inv]

/-- The denominator of a dyadic is positive. -/
theorem ratio_snd_pos (d : Dyadic) : 0 < d.ratio.2 := by
  rw [ratio]
  split_ifs
  · exact Nat.one_pos
  · exact Nat.two_pow_pos _

variable {num den : ℕ}

/-- A quotient measured in a unit. -/
theorem measure_eq (num den : ℕ) (unit : ℤ) :
    ((measure num den unit).1 : ℚ) / (measure num den unit).2 = num / den / 2 ^ unit := by
  rw [measure, zpow_eq_div two_ne_zero]
  split_ifs with h
  · have hneg : (-unit).toNat = 0 := by omega
    simp [hneg, div_div]
  · have hpos : unit.toNat = 0 := by omega
    simp [hpos, div_mul_eq_mul_div]

/-- A measured quotient has a positive denominator. -/
theorem measure_snd_pos (num : ℕ) (hden : 0 < den) (unit : ℤ) : 0 < (measure num den unit).2 := by
  rw [measure]
  split_ifs
  · exact Nat.mul_pos hden (Nat.two_pow_pos _)
  · exact hden

end Dyadic

/-- The nearest integer is at most half a unit above. -/
theorem nearestEven_le {num den : ℕ} (hden : 0 < den) :
    (nearestEven num den : ℚ) ≤ num / den + 1 / 2 := by
  have hpos : (0 : ℚ) < den := by exact_mod_cast hden
  have htwice : 2 * (den * nearestEven num den) ≤ 2 * num + den := by
    have hsplit := Nat.div_add_mod num den
    rw [nearestEven]
    split_ifs with h1 h2 h3
    · omega
    · rw [Nat.mul_add]; omega
    · omega
    · rw [Nat.mul_add]; omega
  have hcast : 2 * ((den : ℚ) * nearestEven num den) ≤ 2 * num + den := by exact_mod_cast htwice
  rw [div_add_div _ _ hpos.ne' two_ne_zero, le_div_iff₀ (by positivity)]
  linarith

namespace Dyadic

variable {num den : ℕ}

/-- Whether a quotient measured in a unit has more bits than a width. -/
theorem measure_ge_iff (hden : 0 < den) (width : ℕ) (unit : ℤ) :
    (measure num den unit).2 * Nat.pow 2 width ≤ (measure num den unit).1 ↔
      (2 : ℚ) ^ (width + unit) ≤ num / den := by
  have hpos : (0 : ℚ) < (measure num den unit).2 := by exact_mod_cast measure_snd_pos num hden unit
  rw [zpow_add₀ two_ne_zero, zpow_natCast, ← le_div_iff₀ (by positivity), ← measure_eq,
    le_div_iff₀ hpos, mul_comm, Nat.pow_eq]
  exact_mod_cast Iff.rfl

/-- In the unit of a quotient the quotient has no more bits than there may be before the point, and
no fewer unless the unit is the least one. -/
theorem unitFor_bounds (hnum : 0 < num) (hden : 0 < den) (width : ℕ) (least : ℤ) :
    (num / den : ℚ) < 2 ^ (width + unitFor width least num den) ∧
      least ≤ unitFor width least num den ∧
      (unitFor width least num den = least ∨
        2 ^ (width - 1 + unitFor width least num den) ≤ (num / den : ℚ)) := by
  have hnum' : (0 : ℚ) < num := by exact_mod_cast hnum
  have hden' : (0 : ℚ) < den := by exact_mod_cast hden
  have hlow : ∀ n : ℕ, 0 < n → (2 : ℚ) ^ (n.log2 : ℤ) ≤ n := fun n hn => by
    exact_mod_cast Nat.log2_self_le hn.ne'
  have hhigh : ∀ n : ℕ, (n : ℚ) < 2 ^ (n.log2 + 1 : ℤ) := fun n => by
    exact_mod_cast Nat.lt_log2_self
  -- The quotient lies between two powers, and the comparison tells on which side of the middle.
  have hless : (num / den : ℚ) < 2 ^ ((num.log2 : ℤ) + 1 - den.log2) := by
    rw [zpow_sub₀ two_ne_zero, div_lt_div_iff₀ hden' (by positivity)]
    exact mul_lt_mul (hhigh num) (hlow den hden) (by positivity) (by positivity)
  have hmore : 2 ^ ((num.log2 : ℤ) - (den.log2 + 1)) ≤ (num / den : ℚ) := by
    rw [zpow_sub₀ two_ne_zero, div_le_div_iff₀ (by positivity) hden']
    exact mul_le_mul (hlow num hnum) (hhigh den).le hden'.le hnum'.le
  have hmono : ∀ {i j : ℤ}, i ≤ j → (2 : ℚ) ^ i ≤ 2 ^ j := zpow_le_zpow_right₀ one_le_two
  obtain ⟨unit, hunit, hbelow, habove⟩ : ∃ unit : ℤ,
      unitFor width least num den = max least unit ∧ (num / den : ℚ) < 2 ^ (width + unit) ∧
        2 ^ (width - 1 + unit) ≤ (num / den : ℚ) := by
    obtain ⟨guess, hdef, hguess⟩ : ∃ guess : ℤ, guess = num.log2 - den.log2 - width ∧
        unitFor width least num den = max least
          (if (measure num den guess).2 * Nat.pow 2 width ≤ (measure num den guess).1 then guess + 1
            else guess) := ⟨_, rfl, rfl⟩
    by_cases hcompare : (2 : ℚ) ^ (width + guess) ≤ num / den
    · rw [if_pos ((measure_ge_iff hden width guess).mpr hcompare)] at hguess
      exact ⟨_, hguess, hless.trans_le (hmono (by omega)), (hmono (by omega)).trans hcompare⟩
    · rw [if_neg (mt (measure_ge_iff hden width guess).mp hcompare)] at hguess
      exact ⟨_, hguess, not_le.mp hcompare, (hmono (by omega)).trans hmore⟩
  rw [hunit]
  refine ⟨hbelow.trans_le (hmono (by omega)), le_max_left _ _, ?_⟩
  rcases le_total least unit with h | h
  · rw [max_eq_right h]
    exact .inr habove
  · rw [max_eq_left h]
    exact .inl rfl

/-- The nearest dyadic is the nearest whole number of units. -/
theorem value_round (hnum : 0 < num) {width : ℕ} (hwidth : 0 < width) (least : ℤ) :
    (round width least num den).value =
      nearestEven (measure num den (unitFor width least num den)).1
        (measure num den (unitFor width least num den)).2 * 2 ^ unitFor width least num den := by
  rw [round, if_neg hnum.ne']
  dsimp only
  split_ifs with hfull
  · have hcarry : (2 : ℚ) ^ width = 2 ^ (width - 1) * 2 := by
      rw [← pow_succ, Nat.sub_add_cancel hwidth]
    rw [value, hfull]
    simp only [Nat.pow_eq]
    push_cast
    rw [hcarry, zpow_add₀ two_ne_zero, zpow_one]
    ring
  · rfl

/-- The nearest whole number of units is not far above, and has the unit of the nearest dyadic or one
bit more. -/
theorem round_spec (hnum : 0 < num) (hden : 0 < den) {width : ℕ} (hwidth : 0 < width) (least : ℤ) :
    ∃ m : ℕ, (m : ℚ) ≤ num / den / 2 ^ unitFor width least num den + 1 / 2 ∧ m ≤ 2 ^ width ∧
      (round width least num den).value = m * 2 ^ unitFor width least num den ∧
      (round width least num den).significand < 2 ^ width ∧
      unitFor width least num den ≤ (round width least num den).exponent ∧
      ((round width least num den).exponent ≤ unitFor width least num den ∨
        m = 2 ^ width ∧
          (round width least num den).exponent ≤ unitFor width least num den + 1) := by
  set unit := unitFor width least num den with hunit
  set m := nearestEven (measure num den unit).1 (measure num den unit).2 with hm
  have hle : (m : ℚ) ≤ num / den / 2 ^ unit + 1 / 2 := by
    rw [← measure_eq]
    exact nearestEven_le (measure_snd_pos num hden unit)
  have hquotient : (num / den : ℚ) / 2 ^ unit < 2 ^ width := by
    rw [div_lt_iff₀ (by positivity), ← zpow_natCast, ← zpow_add₀ two_ne_zero]
    exact (unitFor_bounds hnum hden width least).1
  have hmost : m ≤ 2 ^ width := by
    have hlt : (m : ℚ) < (2 ^ width + 1 : ℕ) := by
      push_cast
      linarith
    exact Nat.lt_succ_iff.mp (by exact_mod_cast hlt)
  have hround : round width least num den =
      if m = Nat.pow 2 width then ⟨Nat.pow 2 (width - 1), unit + 1⟩ else ⟨m, unit⟩ := by
    rw [round, if_neg hnum.ne']
  refine ⟨m, hle, hmost, value_round hnum hwidth least, ?_⟩
  rw [hround]
  split_ifs with hfull
  · exact ⟨Nat.pow_lt_pow_right (by decide) (by omega), by simp, .inr ⟨hfull, le_refl _⟩⟩
  · exact ⟨lt_of_le_of_ne hmost hfull, le_refl _, .inl (le_refl _)⟩

/-- Rounding goes up by little, except for the smallest quotients. -/
theorem value_round_le (hnum : 0 < num) (hden : 0 < den) {width : ℕ} (hwidth : 0 < width)
    {least : ℤ} (hleast : 2 ^ (width - 1 + least) ≤ (num / den : ℚ)) :
    (round width least num den).value ≤ num / den * (1 + 2 ^ (-width : ℤ)) := by
  obtain ⟨m, hle, -, hvalue, -⟩ := round_spec hnum hden hwidth least
  obtain ⟨-, -, hbits⟩ := unitFor_bounds hnum hden width least
  generalize unitFor width least num den = unit at hle hvalue hbits
  have hunit : 2 ^ (width - 1 + unit) ≤ (num / den : ℚ) := hbits.elim (fun h => h ▸ hleast) id
  have hpos : (0 : ℚ) < 2 ^ unit := by positivity
  have hhalf : (1 / 2 : ℚ) * 2 ^ unit ≤ num / den * 2 ^ (-width : ℤ) := by
    calc (1 / 2 : ℚ) * 2 ^ unit = 2 ^ (width - 1 + unit) * 2 ^ (-width : ℤ) := by
          rw [← zpow_add₀ two_ne_zero, show (width - 1 + unit + -width : ℤ) = -1 + unit by omega,
            zpow_add₀ two_ne_zero, zpow_neg_one, one_div]
      _ ≤ num / den * 2 ^ (-width : ℤ) := by gcongr
  calc (round width least num den).value = m * 2 ^ unit := hvalue
    _ ≤ (num / den / 2 ^ unit + 1 / 2) * 2 ^ unit := by gcongr
    _ = num / den + 1 / 2 * 2 ^ unit := by rw [add_mul, div_mul_cancel₀ _ hpos.ne']
    _ ≤ num / den + num / den * 2 ^ (-width : ℤ) := by gcongr
    _ = num / den * (1 + 2 ^ (-width : ℤ)) := by ring

/-- A magnitude that a double can have. -/
structure IsDouble (d : Dyadic) : Prop where
  significand : d.significand < 2 ^ 53
  least : Binary64.leastExponent ≤ d.exponent
  most : d.exponent ≤ Binary64.mostExponent

end Dyadic

namespace Binary64

/-- A number that is a double. -/
def IsDouble : Binary64 → Prop
  | finite _ d => d.IsDouble
  | infinite _ => True

variable {num den : ℕ}

/-- What is rounded to a double is one. -/
theorem isDouble_ofRatio (negative : Bool) (num : ℕ) (hden : 0 < den) :
    (ofRatio negative num den).IsDouble := by
  rw [ofRatio]
  split_ifs with hmost
  · trivial
  rcases Nat.eq_zero_or_pos num with rfl | hnum
  · have hzero : Dyadic.round width leastExponent 0 den = ⟨0, leastExponent⟩ := rfl
    rw [hzero]
    exact ⟨by decide, le_refl _, by decide⟩
  · obtain ⟨_, -, -, -, hsignificand, hexponent, -⟩ :=
      Dyadic.round_spec hnum hden (by decide : 0 < width) leastExponent
    have hunit := (Dyadic.unitFor_bounds hnum hden width leastExponent).2.1
    exact ⟨hsignificand, hunit.trans hexponent, not_lt.mp hmost⟩

/-- Less than half a unit above the largest double nothing is rounded to an infinity. -/
theorem ofRatio_of_lt (negative : Bool) (hnum : 0 < num) (hden : 0 < den)
    (h : (num / den : ℚ) < (2 ^ 53 - 1 / 2) * 2 ^ (971 : ℤ)) :
    ofRatio negative num den = finite negative (Dyadic.round width leastExponent num den) := by
  obtain ⟨m, hle, -, -, -, -, hexponent⟩ :=
    Dyadic.round_spec hnum hden (by decide : 0 < width) leastExponent
  obtain ⟨-, -, hbits⟩ := Dyadic.unitFor_bounds hnum hden width leastExponent
  have hwidth : (width : ℤ) = 53 := rfl
  generalize Dyadic.unitFor width leastExponent num den = unit at hle hexponent hbits
  have hunit : unit ≤ 971 := by
    rcases hbits with rfl | hbits
    · decide
    · have hlt : (2 : ℚ) ^ (width - 1 + unit) < 2 ^ (1024 : ℤ) := by
        refine (hbits.trans_lt h).trans ?_
        rw [show (1024 : ℤ) = 53 + 971 by rfl, zpow_add₀ two_ne_zero]
        exact mul_lt_mul_of_pos_right (by norm_num) (by positivity)
      have := (zpow_lt_zpow_iff_right₀ one_lt_two).mp hlt
      omega
  have hexponent : (Dyadic.round width leastExponent num den).exponent ≤ mostExponent := by
    rcases hexponent with hexponent | ⟨rfl, hexponent⟩
    · exact hexponent.trans hunit
    · -- In the largest unit half a unit more would be missing for one bit more.
      have hne : unit ≠ 971 := by
        rintro rfl
        have hquotient : (num / den : ℚ) / 2 ^ (971 : ℤ) < 2 ^ 53 - 1 / 2 := by
          rwa [div_lt_iff₀ (by positivity)]
        have hfull : ((2 ^ width : ℕ) : ℚ) = 2 ^ 53 := by norm_num [width]
        linarith
      exact hexponent.trans (by change unit + 1 ≤ 971; omega)
  rw [ofRatio, if_neg (not_lt.mpr hexponent)]

/-- Less than half a unit above the largest double nothing is rounded to an infinity. -/
theorem isInfinite_ofRatio (negative : Bool) (hden : 0 < den)
    (h : (num / den : ℚ) < (2 ^ 53 - 1 / 2) * 2 ^ (971 : ℤ)) :
    (ofRatio negative num den).isInfinite = false := by
  rcases Nat.eq_zero_or_pos num with rfl | hnum
  · rfl
  · rw [ofRatio_of_lt negative hnum hden h]
    rfl

/-- A natural number is rounded to a double that is larger by little at most. -/
theorem ofInt_natCast {n : ℕ} (hn : 0 < n) (h : (n : ℚ) < (2 ^ 53 - 1 / 2) * 2 ^ (971 : ℤ)) :
    ∃ d : Dyadic, ofInt n = finite false d ∧ d.value ≤ n * (1 + 2 ^ (-53 : ℤ)) := by
  have hone : (n : ℚ) / (1 : ℕ) = n := by rw [Nat.cast_one, div_one]
  have hleast : (2 : ℚ) ^ ((width : ℤ) - 1 + leastExponent) ≤ n / (1 : ℕ) := by
    rw [hone]
    calc (2 : ℚ) ^ ((width : ℤ) - 1 + leastExponent) ≤ 2 ^ (0 : ℤ) :=
          zpow_le_zpow_right₀ one_le_two (by decide)
      _ ≤ n := by exact_mod_cast hn
  refine ⟨Dyadic.round width leastExponent n 1, ?_, ?_⟩
  · have hsign : decide ((n : ℤ) < 0) = false := by simp
    rw [ofInt, Int.natAbs_natCast, hsign]
    exact ofRatio_of_lt false hn Nat.one_pos (hone.symm ▸ h)
  · have hvalue := Dyadic.value_round_le hn Nat.one_pos (by decide) hleast
    rwa [hone] at hvalue

/-- The product of two finite numbers is finite when it is small enough. -/
theorem isInfinite_mul {s t : Bool} {a b : Dyadic}
    (h : a.value * b.value < (2 ^ 53 - 1 / 2) * 2 ^ (971 : ℤ)) :
    ((finite s a).mul (finite t b)).isInfinite = false := by
  have hmul : (finite s a).mul (finite t b) =
      ofRatio (s != t) (a.ratio.1 * b.ratio.1) (a.ratio.2 * b.ratio.2) := rfl
  rw [hmul]
  refine isInfinite_ofRatio _ (Nat.mul_pos a.ratio_snd_pos b.ratio_snd_pos) ?_
  rwa [Nat.cast_mul, Nat.cast_mul, ← div_mul_div_comm, a.ratio_eq, b.ratio_eq]

/-- The product of two natural numbers, each rounded before, is finite unless it comes close to the
largest doubles. -/
theorem isInfinite_mul_ofInt {m n : ℕ} (hm : 0 < m) (hn : 0 < n)
    (h : (m * n : ℚ) ≤ (2 ^ 53 - 5 / 2) * 2 ^ (971 : ℤ)) :
    ((ofInt m).mul (ofInt n)).isInfinite = false := by
  have hm' : (1 : ℚ) ≤ m := by exact_mod_cast hm
  have hn' : (1 : ℚ) ≤ n := by exact_mod_cast hn
  have hscale : (0 : ℚ) < 2 ^ (971 : ℤ) := by positivity
  have hroom : (2 ^ 53 - 5 / 2 : ℚ) * 2 ^ (971 : ℤ) < (2 ^ 53 - 1 / 2) * 2 ^ (971 : ℤ) :=
    mul_lt_mul_of_pos_right (by norm_num) hscale
  obtain ⟨a, ha, havalue⟩ := ofInt_natCast hm
    (((le_mul_of_one_le_right (zero_le_one.trans hm') hn').trans h).trans_lt hroom)
  obtain ⟨b, hb, hbvalue⟩ := ofInt_natCast hn
    (((le_mul_of_one_le_left (zero_le_one.trans hn') hm').trans h).trans_lt hroom)
  rw [ha, hb]
  have hbpos := b.value_nonneg
  refine isInfinite_mul ?_
  generalize (2 : ℚ) ^ (971 : ℤ) = scale at h hscale ⊢
  calc a.value * b.value ≤ m * (1 + 2 ^ (-53 : ℤ)) * (n * (1 + 2 ^ (-53 : ℤ))) := by gcongr
    _ = m * n * (1 + 2 ^ (-53 : ℤ)) ^ 2 := by ring
    _ ≤ (2 ^ 53 - 5 / 2) * scale * (1 + 2 ^ (-53 : ℤ)) ^ 2 := by gcongr
    _ = (2 ^ 53 - 5 / 2) * (1 + 2 ^ (-53 : ℤ)) ^ 2 * scale := by ring
    _ < (2 ^ 53 - 1 / 2) * scale := mul_lt_mul_of_pos_right (by norm_num) hscale

end Binary64

end DoubleEntry.Number
