import DoubleEntry.Number.Numeral
import DoubleEntry.Proofs.Number.Rounding

/-!
# Scaling step by step

Scaling a number by a power of ten gives a double, and it gives one at all unless the result comes
close to the largest doubles. Shrinking always ends with a number. So a numeral whose digits fit a
word is read unless it has to grow too far.
-/

namespace DoubleEntry.Number

namespace Binary64

variable {x y : Binary64}

/-- Zero is a double. -/
theorem isDouble_zero (negative : Bool) : (zero negative).IsDouble :=
  ⟨by decide, by decide, by decide⟩

/-- An integer is rounded to a double. -/
theorem isDouble_ofInt (n : ℤ) : (ofInt n).IsDouble := isDouble_ofRatio _ _ Nat.one_pos

/-- The opposite of a double is one. -/
theorem IsDouble.neg (hx : x.IsDouble) : x.neg.IsDouble := by
  cases x with
  | finite negative d => exact hx
  | infinite negative => trivial

/-- A product is a double. -/
theorem isDouble_mul (x y : Binary64) : (x.mul y).IsDouble := by
  unfold mul
  split
  · exact isDouble_ofRatio _ _ (Nat.mul_pos (Dyadic.ratio_snd_pos _) (Dyadic.ratio_snd_pos _))
  · split_ifs
    · exact isDouble_zero _
    · trivial

/-- A quotient is a double. -/
theorem isDouble_div (x y : Binary64) : (x.div y).IsDouble := by
  unfold div
  split
  · next s a t b =>
    split_ifs with hzero
    · trivial
    · have hpos : 0 < b.ratio.1 := by
        rw [Dyadic.ratio]
        split_ifs
        · exact Nat.mul_pos (Nat.pos_of_ne_zero hzero) (Nat.two_pow_pos _)
        · exact Nat.pos_of_ne_zero hzero
      exact isDouble_ofRatio _ _ (Nat.mul_pos a.ratio_snd_pos hpos)
  · exact isDouble_zero _
  · trivial

end Binary64

open Binary64 (ofInt)

namespace Numeral

/-- Zero times a number is not infinite. -/
theorem isInfinite_zero_mul (x : Binary64) : ((ofInt 0).mul x).isInfinite = false := by
  cases x with
  | finite negative d =>
    refine Binary64.isInfinite_mul (a := ⟨0, Binary64.leastExponent⟩) ?_
    rw [Dyadic.value, Nat.cast_zero, zero_mul, zero_mul]
    exact mul_pos (by norm_num) (by positivity)
  | infinite negative => rfl

/-- Scaling gives a number unless the result comes close to the largest doubles. -/
theorem isSome_grow? {c k : ℕ} (h : (c * 10 ^ k : ℚ) ≤ (2 ^ 53 - 5 / 2) * 2 ^ (971 : ℤ)) :
    (grow? (ofInt c) k).isSome = true := by
  have hpower : (k ≤ 308 ∧ ((ofInt c).mul (powerOfTen k)).isInfinite = false) ∨ c = 0 := by
    rcases Nat.eq_zero_or_pos c with hzero | hc
    · exact .inr hzero
    · have hcast : (Nat.pow 10 k : ℚ) = 10 ^ k := by exact_mod_cast Nat.pow_eq
      refine .inl ⟨?_, Binary64.isInfinite_mul_ofInt hc (Nat.pow_pos (by decide))
        (by rw [hcast]; exact h)⟩
      have hone : (1 : ℚ) ≤ c := by exact_mod_cast hc
      have hten : (10 : ℚ) ^ k < 10 ^ 309 := by
        calc (10 : ℚ) ^ k ≤ c * 10 ^ k := le_mul_of_one_le_left (by positivity) hone
          _ ≤ (2 ^ 53 - 5 / 2) * 2 ^ (971 : ℤ) := h
          _ < 2 ^ 53 * 2 ^ (971 : ℤ) := mul_lt_mul_of_pos_right (by norm_num) (by positivity)
          _ = ((2 ^ 1024 : ℕ) : ℚ) := by
              rw [Nat.cast_pow, Nat.cast_ofNat, show 1024 = 53 + 971 by rfl, pow_add]
              rfl
          _ < ((10 ^ 309 : ℕ) : ℚ) := Nat.cast_lt.mpr (by decide +kernel)
          _ = 10 ^ 309 := by rw [Nat.cast_pow, Nat.cast_ofNat]
      exact Nat.lt_succ_iff.mp ((pow_lt_pow_iff_right₀ (by norm_num)).mp hten)
  rw [grow?]
  rcases hpower with ⟨hk, hfinite⟩ | rfl
  · simp only [if_pos hk, hfinite]
    rfl
  · split_ifs with hk
    · simp only [Nat.cast_zero, isInfinite_zero_mul]
      rfl
    · rfl
    · next hne => exact absurd rfl hne

/-- Shrinking a double gives a double. -/
theorem isDouble_shrink {x : Binary64} (hx : x.IsDouble) (k : ℕ) : (shrink x k).IsDouble := by
  fun_induction shrink x k with
  | case1 x k _ => exact Binary64.isDouble_div _ _
  | case2 => exact hx
  | case3 x k _ _ ih => exact ih (Binary64.isDouble_div _ _)

/-- Growing a double gives a double. -/
theorem isDouble_grow? {x y : Binary64} {k : ℕ} (hx : x.IsDouble) (h : grow? x k = some y) :
    y.IsDouble := by
  rw [grow?] at h
  dsimp only at h
  split_ifs at h
  · rw [← Option.some.inj h]
    exact Binary64.isDouble_mul _ _
  · rw [← Option.some.inj h]
    exact hx

/-- What a numeral is read as is a double. -/
theorem isDouble_stepwise? {n : Numeral} {x : Binary64} (h : n.stepwise? = some x) :
    x.IsDouble := by
  obtain ⟨y, hy, rfl⟩ := Option.map_eq_some_iff.mp h
  have hdouble : y.IsDouble := by
    split_ifs at hy
    · exact isDouble_grow? (Binary64.isDouble_ofInt _) hy
    · rw [← Option.some.inj hy]
      exact isDouble_shrink (Binary64.isDouble_ofInt _) _
  change Binary64.IsDouble (if n.negative then y.neg else y)
  split_ifs
  · exact hdouble.neg
  · exact hdouble

/-- Appending digits makes no number smaller. -/
theorem le_foldl_digits (digits : List ℕ) (start : ℕ) :
    start ≤ digits.foldl (fun n d => n * 10 + d) start := by
  induction digits generalizing start with
  | nil => exact le_refl _
  | cons d rest ih => exact le_trans (by omega) (ih (start * 10 + d))

/-- All digits are taken when the number they write fits a word. -/
theorem takeWord_of_le {digits : List ℕ} {start : ℕ}
    (h : digits.foldl (fun n d => n * 10 + d) start ≤ wordMax) :
    takeWord start digits = (digits.foldl (fun n d => n * 10 + d) start, []) := by
  induction digits generalizing start with
  | nil => rfl
  | cons d rest ih =>
    have hfits : start * 10 + d ≤ wordMax := (le_foldl_digits rest _).trans h
    rw [takeWord, if_pos hfits, ih h]
    rfl

/-- A numeral whose digits fit a word is read when it need not grow too far. -/
theorem isSome_stepwise? {n : Numeral} (hfits : ofDigits (n.whole ++ n.fraction) ≤ wordMax)
    (hgrow : 0 ≤ n.exponent - n.fraction.length →
      (grow? (ofInt (ofDigits (n.whole ++ n.fraction)))
        (n.exponent - n.fraction.length).toNat).isSome = true) :
    n.stepwise?.isSome = true := by
  rw [ofDigits, List.foldl_append] at hfits hgrow
  have hwhole := takeWord_of_le ((le_foldl_digits n.fraction _).trans hfits)
  have hfraction := takeWord_of_le hfits
  have hscale : (([] : List ℕ).length - (n.fraction.length - ([] : List ℕ).length : ℕ) +
      n.exponent : ℤ) = n.exponent - n.fraction.length := by
    simp only [List.length_nil]
    omega
  rw [stepwise?, hwhole]
  dsimp only
  rw [hfraction]
  dsimp only
  rw [hscale, Option.isSome_map]
  split_ifs with hsign
  · exact hgrow hsign
  · rfl

end Numeral

end DoubleEntry.Number
