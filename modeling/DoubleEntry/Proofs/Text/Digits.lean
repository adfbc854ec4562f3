import Mathlib
import DoubleEntry.Text.Reader

/-!
# Decimal digits read back

Readers of digits stop where the digits stop or where they have taken as many as they may. The
number they give is the one that the digits write, also behind zeros in front.
-/

namespace DoubleEntry.Text

/-- A text that does not start with a blank has nothing to trim in front. -/
theorem trimLeft_eq_self {cs : List Char} (h : ∀ c ∈ cs.head?, isBlank c = false) :
    trimLeft cs = cs := by
  cases cs with
  | nil => rfl
  | cons c rest => simp [trimLeft, h c (by simp)]

/-- A text that neither starts nor ends with a blank has nothing to trim. -/
theorem trim_eq_self {cs : List Char} (hfirst : ∀ c ∈ cs.head?, isBlank c = false)
    (hlast : ∀ c ∈ cs.getLast?, isBlank c = false) : trim cs = cs := by
  have hreverse : trimLeft cs.reverse = cs.reverse := by
    apply trimLeft_eq_self
    rwa [List.head?_reverse]
  rw [trim, trimLeft_eq_self hfirst, trimRight, hreverse, List.reverse_reverse]

/-- A text that has given letters and blanks around them. -/
def Wraps (text : String) (cs : List Char) : Prop :=
  ∃ front back, (∀ c ∈ front, isBlank c = true) ∧ (∀ c ∈ back, isBlank c = true) ∧
    text.toList = front ++ cs ++ back

/-- Blanks around letters that neither start nor end with one are trimmed. -/
theorem Wraps.trim_eq {text : String} {cs : List Char} (h : Wraps text cs) (hne : cs ≠ [])
    (hfirst : ∀ c ∈ cs.head?, isBlank c = false) (hlast : ∀ c ∈ cs.getLast?, isBlank c = false) :
    trim text.toList = cs := by
  obtain ⟨front, back, hfront, hback, htext⟩ := h
  have hleft : trimLeft text.toList = cs ++ back := by
    rw [htext, List.append_assoc, trimLeft, List.dropWhile_append_of_pos hfront]
    apply trimLeft_eq_self
    rwa [List.head?_append_of_ne_nil _ hne]
  have hright : trimLeft (cs ++ back).reverse = cs.reverse := by
    rw [List.reverse_append, trimLeft,
      List.dropWhile_append_of_pos fun c hc => hback c (List.mem_reverse.mp hc)]
    apply trimLeft_eq_self
    rwa [List.head?_reverse]
  rw [trim, hleft, trimRight, hright, List.reverse_reverse]

/-- The digits are ten characters in a row. -/
theorem toNat_of_isDigit {c : Char} (h : c.isDigit = true) : 48 ≤ c.toNat ∧ c.toNat ≤ 57 := by
  simpa [Char.isDigit, UInt32.le_iff_toNat_le] using h

/-- No digit is blank. -/
theorem isBlank_of_isDigit {c : Char} (h : c.isDigit = true) : isBlank c = false := by
  have hn := toNat_of_isDigit h
  simp only [isBlank, Bool.or_eq_false_iff, decide_eq_false_iff_not, beq_eq_false_iff_ne]
  omega

/-- A number is less than the power of ten with as many zeros as it has digits. -/
theorem lt_pow_length_toDigits (n : Nat) : n < 10 ^ (Nat.toDigits 10 n).length :=
  (Nat.length_toDigits_le_iff (by decide) (List.length_pos_iff.mpr Nat.toDigits_ne_nil)).mp le_rfl

/-- A number other than zero is no less than the power of ten with as many digits. -/
theorem pow_length_toDigits_le {n : Nat} (hn : 0 < n) :
    10 ^ ((Nat.toDigits 10 n).length - 1) ≤ n := by
  by_contra hless
  rcases Nat.eq_zero_or_pos ((Nat.toDigits 10 n).length - 1) with hone | hmore
  · rw [hone, pow_zero] at hless
    omega
  · have hshort := (Nat.length_toDigits_le_iff (by decide) hmore).mpr (not_le.mp hless)
    omega

namespace Reader

open Number (ofDigits)

/-- A reader that succeeds hands its value and the rest of the text to what follows. -/
theorem bind_of_eq_some {α β : Type} {r : Reader α} {f : α → Reader β} {cs rest : List Char} {a : α}
    (h : r cs = some (a, rest)) : (r >>= f) cs = f a rest := by
  change (r cs >>= fun p => f p.1 p.2) = f a rest
  rw [h]
  rfl

/-- A reader that fails hands nothing to what follows. -/
theorem bind_of_eq_none {α β : Type} {r : Reader α} {f : α → Reader β} {cs : List Char}
    (h : r cs = none) : (r >>= f) cs = none := by
  change (r cs >>= fun p => f p.1 p.2) = none
  rw [h]
  rfl

/-- Mapping the value of a reader leaves the rest of the text alone. -/
theorem map_of_eq_some {α β : Type} {r : Reader α} {f : α → β} {cs rest : List Char} {a : α}
    (h : r cs = some (a, rest)) : (f <$> r) cs = some (f a, rest) := by
  change (r cs >>= fun p => pure (f p.1, p.2)) = some (f a, rest)
  rw [h]
  rfl

/-- Looking at the text leaves it as it is. -/
theorem get_apply (cs : List Char) : (get : Reader (List Char)) cs = some (cs, cs) := rfl

/-- The separator that is next is taken. -/
theorem expect_cons (c : Char) (rest : List Char) : expect c (c :: rest) = some ((), rest) := by
  simp [expect]

/-- There is nothing to skip before a character that is not blank. -/
theorem skipBlanks_eq_self {cs : List Char} (h : ∀ c ∈ cs.head?, isBlank c = false) :
    skipBlanks cs = some ((), cs) := by
  rw [skipBlanks, trimLeft_eq_self h]

/-- The values of digit characters. -/
def digitValues (cs : List Char) : List Nat := cs.map fun c => c.toNat - 48

/-- Digits are taken up to the most that may be, or up to the first character that is none. -/
theorem digitsUpTo_append {ds : List Char} (hds : ∀ c ∈ ds, c.isDigit = true) {most : Nat}
    {rest : List Char}
    (h : ds.length = most ∨ ds.length ≤ most ∧ ∀ c ∈ rest.head?, c.isDigit = false) :
    digitsUpTo most (ds ++ rest) = (digitValues ds, rest) := by
  induction ds generalizing most with
  | nil =>
    cases most with
    | zero => simp [digitsUpTo, digitValues]
    | succ most =>
      have hrest : ∀ c ∈ rest.head?, c.isDigit = false := by
        rcases h with h | ⟨-, h⟩
        · simp at h
        · exact h
      cases rest with
      | nil => simp [digitsUpTo, digitValues]
      | cons c rest => simp [digitsUpTo, digitValues, hrest c (by simp)]
  | cons d ds ih =>
    cases most with
    | zero => simp at h
    | succ most =>
      have hd : d.isDigit = true := hds d (by simp)
      have htail : digitsUpTo most (ds ++ rest) = (digitValues ds, rest) :=
        ih (fun c hc => hds c (by simp [hc])) (by simpa using h)
      simp [digitsUpTo, hd, htail, digitValues]

/-- The number that digit characters write. -/
theorem ofDigits_digitValues (ds : List Char) :
    ofDigits (digitValues ds) = Nat.ofDigitChars 10 ds 0 := by
  rw [ofDigits, digitValues, List.foldl_map, Nat.ofDigitChars_eq_foldl]
  congr 1
  funext n c
  rw [Nat.mul_comm n 10]
  rfl

/-- A number is read from its digits when they are enough and not followed by more. -/
theorem number_append {ds : List Char} (hds : ∀ c ∈ ds, c.isDigit = true) {least most : Nat}
    (hleast : least ≤ ds.length) {rest : List Char}
    (h : ds.length = most ∨ ds.length ≤ most ∧ ∀ c ∈ rest.head?, c.isDigit = false) :
    number least most (ds ++ rest) = some (Nat.ofDigitChars 10 ds 0, rest) := by
  have hdigits : digits least most (ds ++ rest) = some (digitValues ds, rest) := by
    have hlength : least ≤ (digitValues ds).length := by simpa [digitValues] using hleast
    simp [digits, digitsUpTo_append hds h, hlength]
  rw [number, map_of_eq_some hdigits, ofDigits_digitValues]

/-- All digits in front are taken. -/
theorem allDigits_append {ds : List Char} (hds : ∀ c ∈ ds, c.isDigit = true) (hne : ds ≠ [])
    {rest : List Char} (hrest : ∀ c ∈ rest.head?, c.isDigit = false) :
    allDigits (ds ++ rest) = some (digitValues ds, rest) := by
  have hpos : 1 ≤ (digitValues ds).length := by
    rw [digitValues, List.length_map]
    exact List.length_pos_iff.mpr hne
  have h : digitsUpTo (ds ++ rest).length (ds ++ rest) = (digitValues ds, rest) :=
    digitsUpTo_append hds (Or.inr ⟨by simp, hrest⟩)
  simp only [allDigits, digits, h, if_pos hpos]

end Reader

end DoubleEntry.Text
