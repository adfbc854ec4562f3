import DoubleEntry.Proofs.Number.Nearest
import DoubleEntry.Proofs.Search.Comparisons
import DoubleEntry.Proofs.Search.StoredValues

/-!
# Integers in searches

A relation compares an entry as a double, so a stored integer is rounded to 53 bits first, while the
operand is exact as long as it fits a signed word. The comparison is that of the integers when one
of them is small enough: the entry because it is a double, or the operand because it is on the same
side of all doubles beyond. A value to be contained is compared with the entry as it is seen, which
is exact unless neither fits a signed word.
-/

namespace DoubleEntry.Search

open Constraint
open Number (Binary64)

variable {space : Namespace} {row : Row} {key : String} {m n : ℤ}

/-- The number that is held for an integer: the integer itself if it fits a signed word, and
otherwise the nearest double. -/
def heldValue (n : ℤ) : WithBot (WithTop ℚ) :=
  if fitsSigned n then Binary64.exactly n else (Binary64.ofInt n).value

/-- An integer operand has the place of the number that is held for it. -/
theorem Operand.place_ofInt (n : ℤ) : (Operand.ofInt n).place = .number (heldValue n) := by
  rw [ofInt, heldValue]
  split_ifs <;> rfl

/-- A word that does not fit a signed word is larger than all that do. -/
theorem le_of_not_fitsSigned (h : Json.fitsWord n = true) (hsigned : ¬ fitsSigned n = true) :
    2 ^ 63 ≤ n := by
  have hcount : (Number.wordCount 63 : ℤ) = 2 ^ 63 := by decide
  simp only [Json.fitsWord, fitsSigned, decide_eq_true_eq] at h hsigned
  omega

/-- An integer that fits a signed word is smaller than all that do not. -/
theorem lt_of_fitsSigned (h : fitsSigned n = true) : n < 2 ^ 63 := by
  have hcount : (Number.wordCount 63 : ℤ) = 2 ^ 63 := by decide
  simp only [fitsSigned, decide_eq_true_eq] at h
  omega

/-- An integer of up to 53 bits fits a signed word. -/
theorem fitsSigned_of_natAbs_le (h : n.natAbs ≤ 2 ^ 53) : fitsSigned n = true := by
  have hcount : (Number.wordCount 63 : ℤ) = 2 ^ 63 := by decide
  simp only [fitsSigned, decide_eq_true_eq]
  omega

/-- What is held for an integer beyond the signed words is larger than every integer that fits. -/
theorem exactly_lt_heldValue (hm : fitsSigned m = true) (hn : Json.fitsWord n = true)
    (hsigned : ¬ fitsSigned n = true) : Binary64.exactly m < heldValue n := by
  rw [heldValue, if_neg hsigned]
  refine lt_of_lt_of_le (Binary64.strictMono_exactly ?_)
    (Binary64.two_pow_le_value_ofInt (le_of_not_fitsSigned hn hsigned))
  exact_mod_cast lt_of_fitsSigned hm

/-- The same number is held for two integers only if they are the same, or neither fits a signed
word and both have one nearest double. -/
theorem heldValue_eq_iff (hm : Json.fitsWord m = true) (hn : Json.fitsWord n = true) :
    heldValue m = heldValue n ↔
      m = n ∨ 2 ^ 63 ≤ m ∧ 2 ^ 63 ≤ n ∧ (Binary64.ofInt m).value = (Binary64.ofInt n).value := by
  have hexact : ∀ k : ℤ, fitsSigned k = true → heldValue k = Binary64.exactly k :=
    fun _ h => if_pos h
  have hround : ∀ k : ℤ, ¬ fitsSigned k = true → heldValue k = (Binary64.ofInt k).value :=
    fun _ h => if_neg h
  by_cases hsigned : fitsSigned m = true <;> by_cases hsigned' : fitsSigned n = true
  · have hm' := lt_of_fitsSigned hsigned
    have hinj : Binary64.exactly m = Binary64.exactly n ↔ m = n := by
      rw [Binary64.strictMono_exactly.injective.eq_iff, Int.cast_inj]
    rw [hexact m hsigned, hexact n hsigned', hinj]
    omega
  · have hne := (exactly_lt_heldValue hsigned hn hsigned').ne
    have hm' := lt_of_fitsSigned hsigned
    have hn' := le_of_not_fitsSigned hn hsigned'
    rw [hexact m hsigned]
    simp only [hne, false_iff]
    omega
  · have hne := (exactly_lt_heldValue hsigned' hm hsigned).ne'
    have hm' := le_of_not_fitsSigned hm hsigned
    have hn' := lt_of_fitsSigned hsigned'
    rw [hexact n hsigned']
    simp only [hne, false_iff]
    omega
  · have hm' := le_of_not_fitsSigned hm hsigned
    have hn' := le_of_not_fitsSigned hn hsigned'
    rw [hround m hsigned, hround n hsigned']
    constructor
    · exact fun h => .inr ⟨hm', hn', h⟩
    · rintro (rfl | ⟨-, -, h⟩)
      · rfl
      · exact h

/-- The double nearest to an integer compares with what is held for another as the integers do, if
the first has up to 53 bits or the second is less than all larger ones. -/
theorem compares_heldValue (hn : Json.fitsWord n = true)
    (h : m.natAbs ≤ 2 ^ 53 ∨ n.natAbs < 2 ^ 53) :
    (compare m n).Compares (Binary64.ofInt m).value (heldValue n) := by
  by_cases hm : m.natAbs ≤ 2 ^ 53
  · rw [Binary64.value_ofInt hm]
    by_cases hsigned : fitsSigned n = true
    · rw [heldValue, if_pos hsigned]
      exact compare_int_compares m n
    · have hless : m < n := by
        have := le_of_not_fitsSigned hn hsigned
        omega
      rw [compare_lt_iff_lt.mpr hless]
      exact exactly_lt_heldValue (fitsSigned_of_natAbs_le hm) hn hsigned
  · have hsmall := h.resolve_left hm
    rw [heldValue, if_pos (fitsSigned_of_natAbs_le hsmall.le)]
    rcases lt_or_ge m 0 with hneg | hpos
    · have hless : m < n := by omega
      rw [compare_lt_iff_lt.mpr hless]
      refine lt_of_le_of_lt (Binary64.value_ofInt_le_neg_two_pow (k := 53) (by omega))
        (Binary64.strictMono_exactly ?_)
      exact_mod_cast (by omega : -2 ^ 53 < n)
    · have hgreater : n < m := by omega
      rw [compare_gt_iff_gt.mpr hgreater]
      refine lt_of_lt_of_le (Binary64.strictMono_exactly ?_)
        (Binary64.two_pow_le_value_ofInt (k := 53) (by omega))
      exact_mod_cast (by omega : n < 2 ^ 53)

/-! ## Comparisons -/

/-- A stored integer is compared as its nearest double. -/
theorem double?_seen_integer (hm : Json.fitsWord m = true) :
    Entry.double? (seen (.integer m)) = some (Binary64.ofInt m) := by
  rw [seen_integer hm]
  split_ifs <;> rfl

/-- A stored integer equals an integer when the same number is held for both. -/
theorem isScalar_seen_integer_iff (hm : Json.fitsWord m = true) :
    Entry.isScalar (seen (.integer m)) (.integer n) = true ↔ heldValue m = heldValue n := by
  obtain ⟨v, hv, hplace⟩ := exists_number?_seen_integer hm
  have hn : Operand.ofNumber? (.integer n) = some (.ofInt n) := rfl
  rw [Entry.isScalar_number_iff hn, hv, Operand.place_ofInt]
  simp [hplace, Operand.place_ofInt, Place.strictMono_number.injective.eq_iff]

/-- For an integer that is stored under a key, a relation with an integer holds between the double
nearest to the first and the second itself, or its nearest double if it does not fit a signed word.
That is the relation between the integers when the first has up to 53 bits or the second is less
than all larger ones. As a value to be contained an integer matches itself, and when neither fits a
signed word every integer with the same nearest double. -/
theorem integers_compared (hrow : row.IsOf space) (hm : row.Stores key (.integer m))
    (hkey : DataKey.Matches key) (hn : Json.fitsWord n = true) :
    (∀ r : Relation, (range key r.name (.integer n)).Matches space row ↔
      r.Holds (Binary64.ofInt m).value
        (if fitsSigned n then Binary64.exactly n else (Binary64.ofInt n).value)) ∧
    (m.natAbs ≤ 2 ^ 53 ∨ n.natAbs < 2 ^ 53 →
      ∀ r : Relation, (range key r.name (.integer n)).Matches space row ↔ r.Holds m n) ∧
    ((term key (.integer n)).Matches space row ↔
      m = n ∨ 2 ^ 63 ≤ m ∧ 2 ^ 63 ≤ n ∧ (Binary64.ofInt m).value = (Binary64.ofInt n).value) := by
  have hword : Json.fitsWord m = true := hm.isDocument
  have hentry := hm.entry?_eq
  have hrange : ∀ r : Relation, (range key r.name (.integer n)).Matches space row ↔
      r.Holds (Binary64.ofInt m).value (heldValue n) := by
    intro r
    rw [matches_range_relation_iff hrow.hasTexts hkey (.inl (.integer n)),
      ← r.holds_map_iff Place.strictMono_number, ← Operand.place_ofInt]
    constructor
    · rintro ⟨entry, a, b, hfound, hcompared, hholds⟩
      obtain rfl := Option.some.inj (hentry.symm.trans hfound)
      have hnumber := Entry.Compared.number (double?_seen_integer hword)
        (rfl : Operand.ofNumber? (.integer n) = some (.ofInt n))
      obtain ⟨rfl, rfl⟩ := hcompared.unique hnumber
      exact hholds
    · exact fun hholds => ⟨_, _, _, hentry, .number (double?_seen_integer hword) rfl, hholds⟩
  refine ⟨hrange, fun hsmall r => (hrange r).trans ?_, ?_⟩
  · rw [← r.admits_iff_holds (compares_heldValue hn hsmall),
      r.admits_iff_holds ((compare_iff m n).mp rfl)]
  · have htop : Entry.containsTop (seen (.integer m)) (.integer n) =
        Entry.isScalar (seen (.integer m)) (.integer n) := by
      rw [seen_integer hword]
      split_ifs <;> exact Bool.or_false _
    have hkeys : ∀ inside, KeyInside inside (.integer n) → DataKey.Matches inside := by
      rintro inside (_ | _ | _)
    rw [matches_term_iff hrow.hasTexts, ← heldValue_eq_iff hword hn,
      ← isScalar_seen_integer_iff hword, ← htop, hentry, and_iff_right ⟨hkey, hkeys⟩]
    simp

/-- An account with an integer that is no double. -/
def counted : Row := .holding "k" (.integer 9007199254740993)

/-- The integer is greater than the largest of 53 bits, and as a value to be contained it is told
apart from the one before it, which is its nearest double. -/
theorem integers_compared_counted :
    counted.IsOf .accounts ∧ counted.Stores "k" (.integer 9007199254740993) ∧
      (range "k" "gt" (.integer 9007199254740991)).Matches .accounts counted ∧
      (term "k" (.integer 9007199254740993)).Matches .accounts counted ∧
      ¬ (term "k" (.integer 9007199254740992)).Matches .accounts counted := by
  have hrow : counted.IsOf .accounts := Row.isOf_holding _ _
  have hstores : counted.Stores "k" (.integer 9007199254740993) :=
    Row.stores_holding (by decide : Json.fitsWord 9007199254740993 = true) (.integer _)
  have hkey : DataKey.Matches "k" := (DataKey.isValid_iff _).mp rfl
  obtain ⟨-, hsmall, -⟩ := integers_compared (n := 9007199254740991) hrow hstores hkey (by decide)
  obtain ⟨-, -, hsame⟩ := integers_compared (n := 9007199254740993) hrow hstores hkey (by decide)
  obtain ⟨-, -, hother⟩ := integers_compared (n := 9007199254740992) hrow hstores hkey (by decide)
  refine ⟨hrow, hstores, (hsmall (by decide) .gt).mpr ?_, hsame.mpr (.inl rfl), ?_⟩
  · exact (by decide : (9007199254740993 : ℤ) > 9007199254740991)
  · rw [hother]
    omega

/-- An integer that is no double is not equal to itself under the relations, and of two integers
that do not fit a signed word one is found as the other. -/
theorem truthOn_rounded_integers :
    Predicate.ofRange "k" "eq" (.integer 9007199254740993) =
        .ok (.numeric "k" .eq (.integer 9007199254740993)) ∧
      (Predicate.numeric "k" .eq (.integer 9007199254740993)).truthOn
        [("k", .integer 9007199254740993)] = some .no ∧
      Predicate.ofTerm "k" (.integer 18446744073709551615) =
        .ok (.contains "k" (.integer 18446744073709551615)) ∧
      (Predicate.contains "k" (.integer 18446744073709551615)).truthOn
        [("k", .integer 18446744073709551614)] = some .yes := by
  exact ⟨rfl, by decide +kernel, rfl, by decide +kernel⟩

end DoubleEntry.Search
