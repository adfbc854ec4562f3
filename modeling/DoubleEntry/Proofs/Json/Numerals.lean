import DoubleEntry.Json.Word
import DoubleEntry.Json.Writer
import DoubleEntry.Proofs.Text.Digits

/-!
# Numerals

A numeral is a sign, digits that start with no zero that does not belong there, perhaps a point and
more digits, and perhaps an exponent. Whatever is put together like that is taken apart again into
the same pieces.
-/

namespace DoubleEntry.Json

open Number (Numeral)
open Text.Reader (digitValues)

/-! ## Digits -/

/-- Digits are taken up to the first character that is none. -/
theorem takeDigits_append {ds rest : List Char} (hds : ∀ c ∈ ds, c.isDigit = true)
    (hrest : ∀ c ∈ rest.head?, c.isDigit = false) :
    takeDigits (ds ++ rest) = (digitValues ds, rest) := by
  induction ds with
  | nil =>
    cases rest with
    | nil => rfl
    | cons c more =>
      have hc : digitValue? c = none := if_neg (by rw [hrest c rfl]; exact Bool.false_ne_true)
      simp only [List.nil_append, takeDigits, hc]
      rfl
  | cons d more ih =>
    have hd : digitValue? d = some (d.toNat - 48) := if_pos (hds d List.mem_cons_self)
    have hmore := ih fun c hc => hds c (List.mem_cons_of_mem _ hc)
    simp only [List.cons_append, takeDigits, hd, hmore]
    rfl

/-- Digits of which the first is a zero only when it stands alone. -/
structure IsWhole (digits : List Char) : Prop where
  ne_nil : digits ≠ []
  isDigit : ∀ c ∈ digits, c.isDigit = true
  zero_alone : digits.head? = some '0' → digits = ['0']

namespace IsWhole

variable {digits : List Char}

/-- The first of several digits does not have the value zero. -/
theorem digitValues_ne (h : IsWhole digits) (d : ℕ) (ds : List ℕ) :
    digitValues digits ≠ 0 :: d :: ds := by
  intro hvalues
  obtain ⟨c, cs, rfl⟩ := List.exists_cons_of_ne_nil h.ne_nil
  obtain ⟨hzero, hmore⟩ := List.cons.inj hvalues
  have hbounds := Text.toNat_of_isDigit (h.isDigit c List.mem_cons_self)
  have hvalue : c.toNat - 48 = 0 := hzero
  have hc : c = '0' := Char.toNat_inj.mp (by change c.toNat = 48; omega)
  subst hc
  obtain rfl := (List.cons.inj (h.zero_alone rfl)).2
  exact absurd hmore (by simp)

/-- There are values of digits. -/
theorem digitValues_ne_nil (h : IsWhole digits) : digitValues digits ≠ [] :=
  fun hnil => h.ne_nil (List.map_eq_nil_iff.mp hnil)

/-- Digits that do not start with a zero may be followed by any others. -/
theorem append (h : IsWhole digits) (hhead : digits.head? ≠ some '0') {more : List Char}
    (hmore : ∀ c ∈ more, c.isDigit = true) : IsWhole (digits ++ more) where
  ne_nil := List.append_ne_nil_of_left_ne_nil h.ne_nil more
  isDigit := fun c hc => (List.mem_append.mp hc).elim (h.isDigit c) (hmore c)
  zero_alone := fun hzero => by
    rw [List.head?_append_of_ne_nil _ h.ne_nil] at hzero
    exact absurd hzero hhead

/-- Digits that do not start with a zero may be cut short. -/
theorem take (h : IsWhole digits) (hhead : digits.head? ≠ some '0') {n : ℕ} (hn : 0 < n) :
    IsWhole (digits.take n) where
  ne_nil := by
    rw [Ne, List.take_eq_nil_iff]
    exact fun hnil => hnil.elim hn.ne' h.ne_nil
  isDigit := fun c hc => h.isDigit c (List.mem_of_mem_take hc)
  zero_alone := fun hzero => by
    rw [List.head?_take, if_neg hn.ne'] at hzero
    exact absurd hzero hhead

end IsWhole

/-- The digits of a number other than zero do not start with a zero. -/
theorem head?_toDigits_ne_zero {n : Nat} (hn : n ≠ 0) : (Nat.toDigits 10 n).head? ≠ some '0' := by
  induction n using Nat.strong_induction_on with
  | _ n ih =>
    by_cases hsmall : n < 10
    · rw [Nat.toDigits_of_lt_base hsmall]
      interval_cases n
      · exact absurd rfl hn
      all_goals decide
    · have hdiv : n / 10 ≠ 0 := by omega
      rw [Nat.toDigits_of_base_le (by decide) (by omega),
        List.head?_append_of_ne_nil _ Nat.toDigits_ne_nil]
      exact ih (n / 10) (by omega) hdiv

/-- A number is written without zeros in front. -/
theorem isWhole_toDigits (n : Nat) : IsWhole (Nat.toDigits 10 n) where
  ne_nil := Nat.toDigits_ne_nil
  isDigit := fun _ hc => Nat.isDigit_of_mem_toDigits (by decide) (by decide) hc
  zero_alone := fun hzero => by
    by_cases hn : n = 0
    · rw [hn, Nat.toDigits_zero]
    · exact absurd hzero (head?_toDigits_ne_zero hn)

/-! ## Signs -/

/-- A minus or nothing. -/
def sign (negative : Bool) : List Char := if negative then ['-'] else []

/-- A numeral without its sign. -/
def unsigned? (negative : Bool) (letters : List Char) : Option (Numeral × Bool) :=
  match takeDigits letters with
  | ([], _) => none
  | (0 :: _ :: _, _) => none
  | (whole, '.' :: rest) =>
    match takeDigits rest with
    | ([], _) => none
    | (fraction, tail) => (exponent? tail).map fun e => (⟨negative, whole, fraction, e⟩, true)
  | (whole, tail) => (exponent? tail).map fun e => (⟨negative, whole, [], e⟩, !tail.isEmpty)

/-- A numeral is a sign and what stands behind it. -/
theorem numeral?_sign (negative : Bool) {letters : List Char} (h : letters.head? ≠ some '-') :
    numeral? (sign negative ++ letters) = unsigned? negative letters := by
  cases negative with
  | true => rfl
  | false =>
    change numeral? letters = _
    unfold numeral?
    split
    next negative unsigned hsign =>
      split at hsign
      · exact absurd rfl h
      · obtain ⟨rfl, rfl⟩ := Prod.mk.inj hsign
        rfl

/-- Digits are not a sign. -/
theorem IsWhole.head?_append_ne_minus {digits : List Char} (h : IsWhole digits)
    (more : List Char) : (digits ++ more).head? ≠ some '-' := by
  obtain ⟨c, cs, rfl⟩ := List.exists_cons_of_ne_nil h.ne_nil
  rintro hminus
  obtain rfl : c = '-' := by simpa using hminus
  exact absurd (h.isDigit '-' List.mem_cons_self) (by decide)

/-! ## Points and exponents -/

variable {whole fraction tail : List Char} {e : ℤ}

/-- Digits without a point are a numeral, also in front of an exponent. -/
theorem numeral?_whole (negative : Bool) (hwhole : IsWhole whole) (htail : exponent? tail = some e)
    (hend : ∀ c ∈ tail.head?, c.isDigit = false ∧ c ≠ '.') :
    numeral? (sign negative ++ (whole ++ tail)) =
      some (⟨negative, digitValues whole, [], e⟩, !tail.isEmpty) := by
  have htake := takeDigits_append hwhole.isDigit fun c hc => (hend c hc).1
  rw [numeral?_sign negative (hwhole.head?_append_ne_minus tail), unsigned?, htake]
  split
  next heq => exact absurd (Prod.mk.inj heq).1 hwhole.digitValues_ne_nil
  next heq => exact absurd (Prod.mk.inj heq).1 (hwhole.digitValues_ne _ _)
  next heq =>
    obtain ⟨-, rfl⟩ := Prod.mk.inj heq
    exact absurd rfl (hend '.' rfl).2
  next heq =>
    obtain ⟨rfl, rfl⟩ := Prod.mk.inj heq
    rw [htail]
    rfl

/-- Digits with a point among them are a numeral, also in front of an exponent. -/
theorem numeral?_fraction (negative : Bool) (hwhole : IsWhole whole)
    (hfraction : ∀ c ∈ fraction, c.isDigit = true) (hne : fraction ≠ [])
    (htail : exponent? tail = some e) (hend : ∀ c ∈ tail.head?, c.isDigit = false) :
    numeral? (sign negative ++ (whole ++ '.' :: (fraction ++ tail))) =
      some (⟨negative, digitValues whole, digitValues fraction, e⟩, true) := by
  have hpoint : ∀ c ∈ ('.' :: (fraction ++ tail)).head?, c.isDigit = false := by
    intro c hc
    obtain rfl : '.' = c := by simpa using hc
    decide
  have htakewhole := takeDigits_append hwhole.isDigit hpoint
  have htakefraction := takeDigits_append hfraction hend
  rw [numeral?_sign negative (hwhole.head?_append_ne_minus _), unsigned?, htakewhole]
  split
  next heq => exact absurd (Prod.mk.inj heq).1 hwhole.digitValues_ne_nil
  next heq => exact absurd (Prod.mk.inj heq).1 (hwhole.digitValues_ne _ _)
  next heq =>
    obtain ⟨rfl, hrest⟩ := Prod.mk.inj heq
    obtain rfl := (List.cons.inj hrest).2
    rw [htakefraction]
    split
    next heq => exact absurd (List.map_eq_nil_iff.mp (Prod.mk.inj heq).1) hne
    next heq =>
      obtain ⟨rfl, rfl⟩ := Prod.mk.inj heq
      rw [htail]
      rfl
  next hno heq => exact absurd (Prod.mk.inj heq).2.symm (hno _)

/-- Digits are an exponent behind a sign or without one. -/
theorem exponent?_digits {digits : List Char} (h : IsWhole digits) :
    exponent? ('e' :: digits) = some (Number.ofDigits (digitValues digits) : ℤ) ∧
      exponent? ('e' :: '-' :: digits) = some (-(Number.ofDigits (digitValues digits) : ℤ)) := by
  obtain ⟨c, cs, rfl⟩ := List.exists_cons_of_ne_nil h.ne_nil
  have hsign : ∀ d : Char, d.isDigit = false → c ≠ d := by
    rintro d hd rfl
    exact absurd (h.isDigit c List.mem_cons_self) (by rw [hd]; exact Bool.false_ne_true)
  have htake : takeDigits (c :: cs) = (digitValues (c :: cs), []) := by
    have hall : takeDigits ((c :: cs) ++ []) = (digitValues (c :: cs), []) :=
      takeDigits_append h.isDigit (by simp)
    rwa [List.append_nil] at hall
  constructor
  · rw [exponent?, if_pos (.inl rfl), htake]
    · rfl
    · exact fun more hminus => hsign '-' (by decide) (List.cons.inj hminus).1
    · exact fun more hplus => hsign '+' (by decide) (List.cons.inj hplus).1
  · simp only [exponent?, htake]
    rfl

/-- The exponent of a number in scientific notation. -/
theorem exponent?_integerText (n : ℤ) : exponent? ('e' :: integerText n) = some n := by
  obtain ⟨hplain, hminus⟩ := exponent?_digits (isWhole_toDigits n.natAbs)
  rw [Text.Reader.ofDigits_digitValues, Nat.ofDigitChars_ten_toDigits] at hplain hminus
  rw [integerText]
  split_ifs with hneg
  · rw [hminus]
    congr 1
    omega
  · rw [hplain]
    congr 1
    omega

end DoubleEntry.Json
