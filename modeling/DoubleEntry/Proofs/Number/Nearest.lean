import DoubleEntry.Proofs.Number.Comparison

/-!
# Doubles nearest to integers

Rounding leaves a quotient alone that is a whole number of units, and takes no quotient past such a
number. So integers of up to 53 bits are doubles themselves, and rounding a larger one keeps it on
its side of every power of two.
-/

namespace DoubleEntry.Number

variable {num den c : ℕ}

/-- An integer that is no more than a quotient is no more than the nearest one. -/
theorem le_nearestEven (hden : 0 < den) (h : c * den ≤ num) : c ≤ nearestEven num den := by
  have hfloor : c ≤ num / den := (Nat.le_div_iff_mul_le hden).mpr h
  rw [nearestEven]
  split_ifs <;> omega

/-- An integer that is no less than a quotient is no less than the nearest one. -/
theorem nearestEven_le_of_le (hden : 0 < den) (h : num ≤ c * den) : nearestEven num den ≤ c := by
  have hfloor : num / den ≤ c := (Nat.div_le_iff_le_mul hden).mpr (by omega)
  rcases hfloor.lt_or_eq with hless | hsame
  · rw [nearestEven]
    split_ifs <;> omega
  · -- There is nothing left to round up.
    have hnone : num % den = 0 := by
      have hsplit := Nat.div_add_mod num den
      rw [hsame, Nat.mul_comm] at hsplit
      omega
    rw [nearestEven, hnone, if_pos (by omega), hsame]

namespace Dyadic

variable {width : ℕ} {least : ℤ}

/-- Rounding does not go below a whole number of units that is no more than the quotient. -/
theorem le_value_round (hnum : 0 < num) (hden : 0 < den) (hwidth : 0 < width)
    (h : (c : ℚ) * 2 ^ unitFor width least num den ≤ num / den) :
    (c : ℚ) * 2 ^ unitFor width least num den ≤ (round width least num den).value := by
  rw [value_round hnum hwidth]
  have hmeasured : (c : ℚ) ≤ (measure num den (unitFor width least num den)).1 /
      (measure num den (unitFor width least num den)).2 := by
    rw [measure_eq, le_div_iff₀ (by positivity)]
    exact h
  have hpos := measure_snd_pos num hden (unitFor width least num den)
  rw [le_div_iff₀ (by exact_mod_cast hpos)] at hmeasured
  gcongr
  exact le_nearestEven hpos (by exact_mod_cast hmeasured)

/-- A whole number of units is rounded to itself. -/
theorem value_round_eq (hnum : 0 < num) (hden : 0 < den) (hwidth : 0 < width)
    (h : (num / den : ℚ) = c * 2 ^ unitFor width least num den) :
    (round width least num den).value = num / den := by
  refine le_antisymm ?_ (h ▸ le_value_round hnum hden hwidth h.ge)
  rw [value_round hnum hwidth, h]
  have hmeasured : ((measure num den (unitFor width least num den)).1 : ℚ) /
      (measure num den (unitFor width least num den)).2 ≤ c := by
    rw [measure_eq, h, mul_div_cancel_right₀ _ (by positivity)]
  have hpos := measure_snd_pos num hden (unitFor width least num den)
  rw [div_le_iff₀ (by exact_mod_cast hpos)] at hmeasured
  gcongr
  exact nearestEven_le_of_le hpos (by exact_mod_cast hmeasured)

/-- A quotient that is no less than a power of two is rounded to no less. -/
theorem two_zpow_le_value_round (hnum : 0 < num) (hden : 0 < den) (hwidth : 0 < width) {k : ℤ}
    (hleast : least ≤ k) (h : 2 ^ k ≤ (num / den : ℚ)) :
    2 ^ k ≤ (round width least num den).value := by
  obtain ⟨-, -, hbits⟩ := unitFor_bounds hnum hden width least
  have hround : ∀ c : ℕ, (c : ℚ) * 2 ^ unitFor width least num den ≤ num / den →
      (c : ℚ) * 2 ^ unitFor width least num den ≤ (round width least num den).value :=
    fun c => le_value_round hnum hden hwidth
  generalize unitFor width least num den = unit at hbits hround
  have hgrid : ∀ i : ℕ, ((2 ^ i : ℕ) : ℚ) * 2 ^ unit = 2 ^ (i + unit) := fun i => by
    rw [zpow_add₀ two_ne_zero, Nat.cast_pow, Nat.cast_ofNat, zpow_natCast]
  by_cases hunit : unit ≤ k
  · have hpower := hround (2 ^ (k - unit).toNat)
    rw [hgrid, Int.toNat_of_nonneg (by omega), sub_add_cancel] at hpower
    exact hpower h
  · -- The unit is greater than the power, and the quotient has all its bits.
    have hfull := hbits.resolve_left (by omega)
    have hpower := hround (2 ^ (width - 1))
    rw [hgrid, Nat.cast_pred hwidth] at hpower
    exact (zpow_le_zpow_right₀ one_le_two (by omega)).trans (hpower hfull)

end Dyadic

namespace Binary64

/-- The double nearest to a quotient that is no less than a power of two is no less. -/
theorem two_pow_le_value_ofInt {n : ℤ} {k : ℕ} (h : 2 ^ k ≤ n) :
    exactly (2 ^ k) ≤ (ofInt n).value := by
  have hpos : 0 < n := lt_of_lt_of_le (by positivity) h
  obtain ⟨n, rfl⟩ := Int.eq_ofNat_of_zero_le hpos.le
  have hnum : 0 < n := by omega
  have hquotient : (2 : ℚ) ^ (k : ℤ) ≤ n / (1 : ℕ) := by
    rw [Nat.cast_one, div_one, zpow_natCast]
    exact_mod_cast h
  have hround : 2 ^ (k : ℤ) ≤ (Dyadic.round width leastExponent n 1).value :=
    Dyadic.two_zpow_le_value_round hnum Nat.one_pos (by decide) (by rw [leastExponent]; omega)
      hquotient
  rw [zpow_natCast] at hround
  have hsign : decide ((n : ℤ) < 0) = false := by simp
  rw [ofInt, Int.natAbs_natCast, hsign, ofRatio]
  split_ifs
  · exact le_top
  · exact strictMono_exactly.monotone hround

/-- A natural number of up to 53 bits is a double. -/
theorem value_ofInt_natCast {n : ℕ} (h : n ≤ 2 ^ 53) : (ofInt n).value = exactly n := by
  rcases Nat.eq_zero_or_pos n with rfl | hnum
  · decide +kernel
  have hone : (n : ℚ) / (1 : ℕ) = n := by rw [Nat.cast_one, div_one]
  have hn : (n : ℚ) ≤ 2 ^ 53 := by exact_mod_cast h
  have hexact : ∃ c : ℕ, (n : ℚ) / (1 : ℕ) = c * 2 ^ Dyadic.unitFor width leastExponent n 1 := by
    obtain ⟨-, -, hbits⟩ := Dyadic.unitFor_bounds hnum Nat.one_pos width leastExponent
    rw [hone] at hbits ⊢
    generalize Dyadic.unitFor width leastExponent n 1 = unit at hbits
    by_cases hunit : unit ≤ 0
    · refine ⟨n * 2 ^ (-unit).toNat, ?_⟩
      push_cast
      rw [mul_assoc, ← zpow_natCast, ← zpow_add₀ two_ne_zero, Int.toNat_of_nonneg (by omega),
        neg_add_cancel, zpow_zero, mul_one]
    · -- Only the largest of these numbers is measured in units of two.
      have hfull : (2 : ℚ) ^ ((width : ℤ) - 1 + unit) ≤ n :=
        hbits.resolve_left fun hleast => hunit (by rw [hleast]; decide)
      have hwidth : (width : ℤ) = 53 := rfl
      have hunit : unit = 1 := by
        have hless : (2 : ℚ) ^ ((width : ℤ) - 1 + unit) ≤ 2 ^ (53 : ℤ) := hfull.trans hn
        have := (zpow_le_zpow_iff_right₀ one_lt_two).mp hless
        omega
      subst hunit
      refine ⟨2 ^ 52, le_antisymm (hn.trans_eq ?_) (le_of_eq_of_le ?_ hfull)⟩
      · norm_num
      · rw [hwidth]
        norm_num
  obtain ⟨c, hc⟩ := hexact
  have hvalue := Dyadic.value_round_eq hnum Nat.one_pos (by decide) hc
  have hsign : decide ((n : ℤ) < 0) = false := by simp
  rw [ofInt, Int.natAbs_natCast, hsign, ofRatio_of_lt false hnum Nat.one_pos]
  · rw [value, if_neg Bool.false_ne_true, hvalue, hone]
    rfl
  · rw [hone]
    calc (n : ℚ) ≤ 2 ^ 53 := hn
      _ < (2 ^ 53 - 1 / 2) * 2 ^ (2 : ℤ) := by norm_num
      _ ≤ (2 ^ 53 - 1 / 2) * 2 ^ (971 : ℤ) := by
        gcongr
        norm_num

/-- Rounding an integer other than zero with the opposite sign gives the opposite double. -/
theorem ofInt_neg {n : ℤ} (hn : 0 < n) : ofInt (-n) = (ofInt n).neg := by
  have hnegative : decide (-n < 0) = true := decide_eq_true (by omega)
  have hpositive : decide (n < 0) = false := decide_eq_false (by omega)
  rw [ofInt, ofInt, Int.natAbs_neg, hnegative, hpositive, ofRatio, ofRatio]
  split_ifs <;> rfl

/-- The opposite of a double that is no less than a number is no more than its opposite. -/
theorem value_neg_le {x : Binary64} {q : ℚ} (h : exactly q ≤ x.value) :
    x.neg.value ≤ exactly (-q) := by
  cases x with
  | finite negative d =>
    have hle := strictMono_exactly.le_iff_le.mp h
    refine strictMono_exactly.le_iff_le.mpr ?_
    cases negative <;> simpa using neg_le_neg hle
  | infinite negative =>
    cases negative with
    | false => exact bot_le
    | true => exact absurd h (not_le.mpr (WithBot.bot_lt_coe _))

/-- The opposite of a double that is a number is its opposite. -/
theorem value_neg_eq {x : Binary64} {q : ℚ} (h : x.value = exactly q) :
    x.neg.value = exactly (-q) := by
  cases x with
  | finite negative d =>
    have heq := strictMono_exactly.injective h
    refine congrArg exactly ?_
    rw [← heq]
    cases negative <;> simp
  | infinite negative => cases negative <;> exact absurd h (by simp [value, exactly])

variable {n : ℤ} {k : ℕ}

/-- An integer of up to 53 bits is a double. -/
theorem value_ofInt (h : n.natAbs ≤ 2 ^ 53) : (ofInt n).value = exactly n := by
  rcases lt_or_ge n 0 with hneg | hpos
  · have hopposite := value_neg_eq (value_ofInt_natCast h)
    rw [← ofInt_neg (by omega), Int.ofNat_natAbs_of_nonpos hneg.le, neg_neg] at hopposite
    rw [hopposite, ← Int.cast_natCast, Int.ofNat_natAbs_of_nonpos hneg.le, Int.cast_neg, neg_neg]
  · rw [← Int.natAbs_of_nonneg hpos, value_ofInt_natCast h, Int.cast_natCast]

/-- The double nearest to an integer beyond the opposite of a power of two is no more than that. -/
theorem value_ofInt_le_neg_two_pow (h : n ≤ -2 ^ k) : (ofInt n).value ≤ exactly (-2 ^ k) := by
  have hpos : 0 < -n := by
    have : (0 : ℤ) < 2 ^ k := by positivity
    omega
  have hle := value_neg_le (two_pow_le_value_ofInt (n := -n) (k := k) (by omega))
  rwa [← ofInt_neg hpos, neg_neg] at hle

end Binary64

end DoubleEntry.Number
