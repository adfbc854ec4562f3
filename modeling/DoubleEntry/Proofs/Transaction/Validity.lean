import Mathlib
import DoubleEntry.Transaction

/-!
# Valid transactions

What the checks of a transaction and of a data map let through, in terms of the data and not of the
order in which the checks are made.
-/

namespace DoubleEntry

namespace DataKey

/-- A key of one or more ASCII letters and underscores. -/
def Matches (key : String) : Prop :=
  key ≠ "" ∧ ∀ c ∈ key.toList, ('a' ≤ c ∧ c ≤ 'z') ∨ ('A' ≤ c ∧ c ≤ 'Z') ∨ c = '_'

/-- The letters of a key are the ASCII letters and the underscore. -/
theorem isLetter_iff (c : Char) :
    isLetter c = true ↔ ('a' ≤ c ∧ c ≤ 'z') ∨ ('A' ≤ c ∧ c ≤ 'Z') ∨ c = '_' := by
  simp only [isLetter, Char.isAlpha, Char.isUpper, Char.isLower, Bool.or_eq_true,
    Bool.and_eq_true, decide_eq_true_eq, beq_iff_eq, Char.le_def]
  tauto

/-- A key is valid exactly when it is made of letters and underscores. -/
theorem isValid_iff (key : String) : isValid key = true ↔ Matches key := by
  simp only [isValid, Matches, Bool.and_eq_true, Bool.not_eq_true', List.isEmpty_eq_false_iff,
    List.all_eq_true, isLetter_iff, ne_eq, String.toList_eq_nil_iff]

/-- The check of a data map passes exactly when all its keys are valid. -/
theorem check_eq_ok_iff (data : Data) : check data = .ok () ↔ ∀ key ∈ data.keys, Matches key := by
  have hfind := List.find?_eq_none (p := fun key => !isValid key) (l := data.keys)
  simp only [Bool.not_eq_true', Bool.not_eq_false, isValid_iff] at hfind
  rw [← hfind, check]
  cases data.keys.find? fun key => !isValid key <;> simp

end DataKey

/-- What a submitted transaction has to be: it has an id, all its lines have an account, the deltas
add up to zero as integers, and all keys of its data are valid. -/
structure Transaction.Valid (t : Transaction) : Prop where
  id_not_blank : Text.isBlankText t.id = false
  accounts_not_blank : ∀ line ∈ t.lines, Text.isBlankText line.account = false
  balanced : (t.lines.map fun line => line.delta.toInt).sum = 0
  keys_match : ∀ key ∈ t.data.keys, DataKey.Matches key

namespace Transaction

/-- The checks of a transaction pass exactly when it is valid. -/
theorem validate_eq_ok_iff (t : Transaction) : t.validate = .ok () ↔ t.Valid := by
  have hbalanced : t.isBalanced = true ↔ (t.lines.map fun line => line.delta.toInt).sum = 0 := by
    rw [isBalanced, Amount.sum, List.map_map, beq_iff_eq]
    rfl
  unfold validate
  constructor
  · intro h
    split_ifs at h with hid haccounts hsum
    simp only [Bool.not_eq_true, List.any_eq_false] at hid haccounts hsum
    exact ⟨hid, haccounts, hbalanced.mp (by simpa using hsum), (DataKey.check_eq_ok_iff _).mp h⟩
  · intro h
    have haccounts : t.lines.any (fun line => Text.isBlankText line.account) = false := by
      simpa using h.accounts_not_blank
    rw [h.id_not_blank, haccounts, hbalanced.mpr h.balanced]
    exact (DataKey.check_eq_ok_iff _).mpr h.keys_match

/-- A transaction that is not valid is answered with a fault. -/
theorem exists_validate_eq_error {t : Transaction} (h : ¬ t.Valid) :
    ∃ fault, t.validate = .error fault := by
  cases hv : t.validate with
  | error fault => exact ⟨fault, rfl⟩
  | ok u => exact absurd ((validate_eq_ok_iff t).mp hv) h

end Transaction

end DoubleEntry
