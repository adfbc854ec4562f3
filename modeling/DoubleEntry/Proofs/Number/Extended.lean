import DoubleEntry.Proofs.Number.Scaling
import DoubleEntry.Proofs.Text.Digits

/-!
# Whole numbers read with 64 significant bits

A word has no more digits than are gathered, except for the sixteen largest words. So reading the
digits of a word with 64 significant bits loses nothing before the result is rounded to a double,
and the sixteen words that are left are rounded to the same double in both ways.
-/

namespace DoubleEntry.Number.Numeral

open Text.Reader (digitValues ofDigits_digitValues)

/-- All digits are gathered when the bound is not reached before the last. -/
theorem gather_eq_foldl {start : ℕ} {ds : List ℕ}
    (h : ds.foldl (fun n d => n * 10 + d) start < 10 * gatherBound) :
    gather start ds = (ds.foldl (fun n d => n * 10 + d) start, 0) := by
  induction ds generalizing start with
  | nil => rfl
  | cons d rest ih =>
    have hstart : start < gatherBound := by
      have hle := le_foldl_digits rest (start * 10 + d)
      rw [List.foldl_cons] at h
      omega
    rw [gather, if_pos hstart, ih h]
    rfl

/-- A whole number that is not beyond all doubles is rounded once. -/
theorem narrow_whole {n : ℕ} (h : n ≤ largestFinite) (negative : Bool) :
    narrow negative ⟨n, 0⟩ = Binary64.ofRatio negative n 1 := by
  have hratio : (⟨n, 0⟩ : Dyadic).ratio = (n, 1) := by simp [Dyadic.ratio]
  rw [narrow, hratio]
  exact if_neg (by simpa using h)

/-- A whole number of which all digits are gathered is rounded once. -/
theorem extended_of_gather {n : ℕ} {whole : List ℕ} (hpos : 0 < n) (h : n ≤ largestFinite)
    (hgather : gather 0 whole = (n, 0)) (negative : Bool) :
    extended ⟨negative, whole, [], 0⟩ = Binary64.ofRatio negative n 1 := by
  have hfraction : gather n [] = (n, 0) := rfl
  have hscale : ((0 : ℕ) : ℤ) - (([] : List ℕ).length - 0 : ℕ) +
      max (-exponentBound) (min 0 exponentBound) = 0 := by decide
  have habsorb : absorb n 0 = (n, 0) := rfl
  have hscaled : ∀ factor x, scaleExtended factor x 0 = x := fun _ _ => rfl
  rw [extended, hgather]
  simp only [hfraction, hscale, if_neg hpos.ne', le_refl, if_true, Int.toNat_zero, habsorb, hscaled]
  exact narrow_whole h negative

/-- A positive word is read from its digits as the nearest double. -/
theorem extended_toDigits {n : ℕ} (hpos : 0 < n) (hword : n < wordCount 64) (negative : Bool) :
    extended ⟨negative, digitValues (Nat.toDigits 10 n), [], 0⟩ =
      Binary64.ofRatio negative n 1 := by
  have hbound : wordCount 64 = 10 * gatherBound + 16 := by decide
  by_cases hall : n < 10 * gatherBound
  · have hdigits : (digitValues (Nat.toDigits 10 n)).foldl (fun n d => n * 10 + d) 0 = n := by
      change ofDigits _ = n
      rw [ofDigits_digitValues, Nat.ofDigitChars_ten_toDigits]
    refine extended_of_gather hpos ?_ ?_ negative
    · have hlarge : wordCount 64 ≤ largestFinite := by decide +kernel
      omega
    · rw [gather_eq_foldl (by rwa [hdigits]), hdigits]
  · -- The last digit of these words is not gathered.
    have hlast : ∀ k < 16, ∀ negative,
        extended ⟨negative, digitValues (Nat.toDigits 10 (10 * gatherBound + k)), [], 0⟩ =
          Binary64.ofRatio negative (10 * gatherBound + k) 1 := by decide +kernel
    have hn : n = 10 * gatherBound + (n - 10 * gatherBound) := by omega
    rw [hn]
    exact hlast _ (by omega) negative

end DoubleEntry.Number.Numeral
