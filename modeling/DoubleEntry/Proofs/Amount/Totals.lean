import Mathlib
import DoubleEntry.Amount

/-!
# Running totals

Adding amounts one after another gives their exact sum when every running total is an amount, and
nothing otherwise. A sum that is itself an amount is not enough: a running total before it may leave
the range.
-/

namespace DoubleEntry.Amount

/-- Every amount is in the range of amounts. -/
theorem fits_toInt (a : Amount) : Fits a.toInt := by
  have hle : -9223372036854775808 ≤ a.toInt := a.le_toInt
  have hlt : a.toInt < 9223372036854775808 := a.toInt_lt
  exact ⟨hle, hlt⟩

/-- An integer in the range is read as the amount with that value. -/
theorem ofInt?_eq_some_iff {n : Int} {a : Amount} : ofInt? n = some a ↔ a.toInt = n := by
  have hvalue : Fits n → (Int64.ofInt n).toInt = n := fun h =>
    Int64.toInt_ofInt_of_le h.1 h.2
  unfold ofInt?
  split_ifs with hfits
  · rw [Option.some.injEq, ← Int64.toInt_inj, hvalue hfits, eq_comm]
  · constructor
    · intro h
      exact absurd h (by simp)
    · rintro rfl
      exact absurd a.fits_toInt hfits

/-- An amount is read back from its value. -/
theorem ofInt?_toInt (a : Amount) : ofInt? a.toInt = some a := ofInt?_eq_some_iff.mpr rfl

/-- An amount is added when the exact sum is an amount. -/
theorem plus?_eq_some_iff {total delta next : Amount} :
    plus? total delta = some next ↔ next.toInt = total.toInt + delta.toInt :=
  ofInt?_eq_some_iff

/-! ## Exact sums -/

/-- No amounts add up to zero. -/
@[simp] theorem sum_nil : sum [] = 0 := rfl

/-- The first amount is added to the sum of the others. -/
@[simp] theorem sum_cons (d : Amount) (rest : List Amount) : sum (d :: rest) = d.toInt + sum rest :=
  rfl

/-- The exact sum is the sum of the values. -/
theorem sum_eq (deltas : List Amount) : sum deltas = (deltas.map Int64.toInt).sum := rfl

/-! ## Running totals -/

/-- Every running total of amounts is an amount. -/
def TotalsFit (deltas : List Amount) : Prop := ∀ first, first <+: deltas → Fits (sum first)

/-- Amounts are added to a start when every total on the way is an amount. -/
theorem foldlM_plus?_eq_some_iff {start total : Amount} {deltas : List Amount} :
    deltas.foldlM plus? start = some total ↔
      (∀ first, first <+: deltas → Fits (start.toInt + sum first)) ∧
        total.toInt = start.toInt + sum deltas := by
  induction deltas generalizing start with
  | nil =>
    have hstart := start.fits_toInt
    simp only [List.foldlM_nil, List.prefix_nil, forall_eq, sum_nil, Int.add_zero, hstart, true_and,
      Int64.toInt_inj]
    exact ⟨fun h => (Option.some.inj h).symm, fun h => h ▸ rfl⟩
  | cons d rest ih =>
    rw [List.foldlM_cons]
    constructor
    · intro h
      obtain ⟨mid, hmid, hrest⟩ := Option.bind_eq_some_iff.mp h
      have hnext := plus?_eq_some_iff.mp hmid
      obtain ⟨hfits, htotal⟩ := ih.mp hrest
      refine ⟨fun first hfirst => ?_, by rw [htotal, hnext, sum_cons]; omega⟩
      obtain rfl | ⟨more, rfl, hmore⟩ := List.prefix_cons_iff.mp hfirst
      · simpa using start.fits_toInt
      · have := hfits more hmore
        rwa [hnext, Int.add_assoc] at this
    · rintro ⟨hfits, htotal⟩
      have hd : Fits (start.toInt + d.toInt) := by
        simpa using hfits [d] (by simp)
      obtain ⟨mid, hmid⟩ : ∃ mid, plus? start d = some mid := ⟨_, if_pos hd⟩
      have hnext := plus?_eq_some_iff.mp hmid
      rw [hmid]
      refine ih.mpr ⟨fun more hmore => ?_, by rw [htotal, hnext, sum_cons]; omega⟩
      have := hfits (d :: more) (List.prefix_cons_iff.mpr (.inr ⟨more, rfl, hmore⟩))
      rwa [sum_cons, ← Int.add_assoc, ← hnext] at this

/-- Amounts have a total when every running total is an amount, and it is their exact sum. -/
theorem total?_eq_some_iff {deltas : List Amount} {total : Amount} :
    total? deltas = some total ↔ TotalsFit deltas ∧ total.toInt = sum deltas := by
  have hzero : (0 : Amount).toInt = 0 := rfl
  rw [total?, foldlM_plus?_eq_some_iff]
  simp only [hzero, Int.zero_add, TotalsFit]

/-- Amounts have no total when some running total is no amount. -/
theorem total?_eq_none_iff {deltas : List Amount} : total? deltas = none ↔ ¬ TotalsFit deltas := by
  constructor
  · intro hnone hfits
    have hsum : ofInt? (sum deltas) = some (Int64.ofInt (sum deltas)) :=
      if_pos (hfits deltas (List.prefix_refl deltas))
    have htotal := total?_eq_some_iff.mpr ⟨hfits, ofInt?_eq_some_iff.mp hsum⟩
    rw [hnone] at htotal
    exact absurd htotal (by simp)
  · intro hfits
    cases htotal : total? deltas with
    | none => rfl
    | some total => exact absurd (total?_eq_some_iff.mp htotal).1 hfits

/-- Whether all running totals fit is found by adding up. -/
instance (deltas : List Amount) : Decidable (TotalsFit deltas) :=
  decidable_of_iff (total? deltas ≠ none) (by rw [Ne, total?_eq_none_iff, not_not])

/-- A sum that fits can be out of reach. -/
example : Fits (sum [9223372036854775807, 1, -1]) ∧
    ¬ TotalsFit [9223372036854775807, 1, -1] := by decide

end DoubleEntry.Amount
