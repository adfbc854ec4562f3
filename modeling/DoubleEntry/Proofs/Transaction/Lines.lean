import Mathlib
import DoubleEntry.Transaction

/-!
# Lines as a multiset

Lines are put in a linear order, so sorting two lists gives one list exactly when they are
rearrangements of each other. The accounts of lines are listed once each, whatever the order and
number of the lines that name them.
-/

namespace DoubleEntry.Line

/-- Any two lines are in order one way or the other. -/
theorem le_total (a b : Line) : (le a b || le b a) = true := by
  by_cases h : a.account = b.account
  · simpa [le, h] using Int.le_total a.delta.toInt b.delta.toInt
  · have h' : b.account ≠ a.account := fun e => h e.symm
    simpa [le, h, h'] using lt_or_gt_of_ne h

/-- The order of lines is transitive. -/
theorem le_trans (a b c : Line) (hab : le a b = true) (hbc : le b c = true) : le a c = true := by
  unfold le at hab hbc ⊢
  by_cases h : a.account = b.account
  · rw [if_pos h, decide_eq_true_eq] at hab
    by_cases h' : b.account = c.account
    · rw [if_pos h', decide_eq_true_eq] at hbc
      rw [if_pos (h.trans h'), decide_eq_true_eq]
      exact hab.trans hbc
    · rw [if_neg h', decide_eq_true_eq] at hbc
      rw [h, if_neg h', decide_eq_true_eq]
      exact hbc
  · rw [if_neg h, decide_eq_true_eq] at hab
    have hac : a.account < c.account := by
      by_cases h' : b.account = c.account
      · exact h' ▸ hab
      · rw [if_neg h', decide_eq_true_eq] at hbc
        exact hab.trans hbc
    rw [if_neg hac.ne, decide_eq_true_eq]
    exact hac

/-- Lines in order both ways are equal. -/
theorem eq_of_le_of_le (a b : Line) (hab : le a b = true) (hba : le b a = true) : a = b := by
  unfold le at hab hba
  by_cases h : a.account = b.account
  · rw [if_pos h, decide_eq_true_eq] at hab
    rw [if_pos h.symm, decide_eq_true_eq] at hba
    have hdelta : a.delta = b.delta := Int64.toInt.inj (Int.le_antisymm hab hba)
    cases a
    cases b
    exact congrArg₂ Line.mk h hdelta
  · rw [if_neg h, decide_eq_true_eq] at hab
    rw [if_neg (Ne.symm h), decide_eq_true_eq] at hba
    exact absurd hba (lt_asymm hab)

/-- Two lists hold the same lines exactly when one is a rearrangement of the other. -/
theorem same_iff_perm (left right : List Line) : same left right = true ↔ left.Perm right := by
  unfold same
  rw [decide_eq_true_eq]
  constructor
  · rintro ⟨-, hsorted⟩
    have hleft : left.Perm (right.mergeSort le) := hsorted ▸ (List.mergeSort_perm left le).symm
    exact hleft.trans (List.mergeSort_perm right le)
  · intro hperm
    have hsorted : (left.mergeSort le).Perm (right.mergeSort le) :=
      (List.mergeSort_perm left le).trans (hperm.trans (List.mergeSort_perm right le).symm)
    exact ⟨hperm.length_eq, List.Perm.eq_of_pairwise (fun a b _ _ => eq_of_le_of_le a b)
      (List.pairwise_mergeSort le_trans le_total left)
      (List.pairwise_mergeSort le_trans le_total right) hsorted⟩

/-- Two lists hold the same lines exactly when every amount stands on every account equally often in
both. -/
theorem same_iff_count (left right : List Line) : same left right = true ↔
    ∀ account delta, left.count ⟨account, delta⟩ = right.count ⟨account, delta⟩ := by
  rw [same_iff_perm, List.perm_iff_count]
  constructor
  · intro h account delta
    exact h ⟨account, delta⟩
  · intro h line
    exact h line.account line.delta

/-- To hold the same lines is an equivalence. -/
theorem same_equivalence : Equivalence fun left right => same left right = true where
  refl lines := (same_iff_perm lines lines).mpr (List.Perm.refl lines)
  symm h := (same_iff_perm _ _).mpr ((same_iff_perm _ _).mp h).symm
  trans h h' := (same_iff_perm _ _).mpr (((same_iff_perm _ _).mp h).trans ((same_iff_perm _ _).mp h'))

/-- The order in which lines are given makes no difference. -/
theorem same_congr {left left' right right' : List Line} (hleft : left.Perm left')
    (hright : right.Perm right') : same left right = same left' right' := by
  rw [Bool.eq_iff_iff, same_iff_perm, same_iff_perm]
  constructor
  · intro h
    exact (hleft.symm.trans h).trans hright
  · intro h
    exact (hleft.trans h).trans hright.symm

/-- Sorting both lists decides whether they are one multiset of lines: whether every amount stands on
every account equally often in both, that is whether one is a rearrangement of the other. So this is
an equivalence, and neither list has to be given in any order. -/
theorem same_decides_multiset :
    (∀ left right, same left right = true ↔
      ∀ account delta, left.count ⟨account, delta⟩ = right.count ⟨account, delta⟩) ∧
    (∀ left right, same left right = true ↔ right.Perm left) ∧
    (Equivalence fun left right => same left right = true) ∧
    ∀ left left' right right' : List Line, left.Perm left' → right.Perm right' →
      same left right = same left' right' := by
  refine ⟨same_iff_count, fun left right => ?_, same_equivalence, fun _ _ _ _ => same_congr⟩
  rw [same_iff_perm, List.perm_comm]

/-- A payment in two parts, with the parts in different orders. -/
theorem same_decides_multiset_parts :
    let parts : List Line := [⟨"a", 5⟩, ⟨"b", -10⟩, ⟨"a", 5⟩]
    let inOrder : List Line := [⟨"a", 5⟩, ⟨"a", 5⟩, ⟨"b", -10⟩]
    let whole : List Line := [⟨"a", 10⟩, ⟨"b", -10⟩]
    parts.Perm inOrder ∧ whole.Perm whole.reverse ∧
      same parts whole = same inOrder whole.reverse ∧ same parts inOrder = true := by
  have hparts : [⟨"a", 5⟩, ⟨"b", -10⟩, ⟨"a", 5⟩].Perm
      [(⟨"a", 5⟩ : Line), ⟨"a", 5⟩, ⟨"b", -10⟩] := by decide
  obtain ⟨-, hperm, -, hcongr⟩ := same_decides_multiset
  have hwhole := (List.reverse_perm [(⟨"a", 10⟩ : Line), ⟨"b", -10⟩]).symm
  exact ⟨hparts, hwhole, hcongr _ _ _ _ hparts hwhole, (hperm _ _).mpr hparts.symm⟩

/-- Dropping repetitions leaves every element once. -/
private theorem nodup_eraseDups (names : List String) : names.eraseDups.Nodup := by
  induction hn : names.length using Nat.strong_induction_on generalizing names with
  | _ n ih =>
    cases names with
    | nil => simp
    | cons name rest =>
      rw [List.eraseDups_cons, List.nodup_cons]
      refine ⟨by simp [List.mem_eraseDups], ih _ ?_ _ rfl⟩
      have := List.length_filter_le (fun b => !b == name) rest
      rw [← hn, List.length_cons]
      omega

/-- The accounts of lines are listed once each. -/
theorem nodup_accounts (lines : List Line) : (accounts lines).Nodup := nodup_eraseDups _

/-- The accounts of lines are those that a line names. -/
theorem mem_accounts {lines : List Line} {name : String} :
    name ∈ accounts lines ↔ ∃ line ∈ lines, line.account = name := by
  rw [accounts, List.mem_eraseDups, List.mem_map]

end DoubleEntry.Line
