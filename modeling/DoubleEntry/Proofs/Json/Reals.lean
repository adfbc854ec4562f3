import DoubleEntry.Proofs.Json.Integers
import DoubleEntry.Proofs.Number.Shortest

/-!
# Doubles read back

Every double that is written is read again as a double, though not always as itself: reading rounds
in steps. In positional notation the digits fit a word and are only scaled down. In scientific
notation they may have to be scaled up, and those of a shortest decimal do not grow beyond the
largest double.
-/

namespace DoubleEntry.Json

open Number (Binary64 Dyadic Layout Numeral ofDigits)
open Number.Binary64 (ofInt)
open Number.Numeral (grow? wordMax)
open Text.Reader (digitValues ofDigits_digitValues)

/-- Letters of a number with a point or an exponent whose digits fit a word and that need not grow
beyond the largest double. -/
def WritesReal (letters : List Char) : Prop :=
  ∃ (digits : List ℕ) (whole fraction : List ℕ) (exponent : ℤ),
    (∀ negative, numeral? (sign negative ++ letters) =
      some (⟨negative, whole, fraction, exponent⟩, true)) ∧
    digits = whole ++ fraction ∧ ofDigits digits ≤ wordMax ∧
    (0 ≤ exponent - fraction.length →
      (grow? (ofInt (ofDigits digits)) (exponent - fraction.length).toNat).isSome = true)

/-- What writes a number is read as a double, also behind a minus. -/
theorem WritesReal.isSome_ofWord? {letters : List Char} (h : WritesReal letters) (negative : Bool) :
    (ofWord? (sign negative ++ letters)).isSome = true := by
  obtain ⟨digits, whole, fraction, exponent, hnumeral, rfl, hfits, hgrow⟩ := h
  rw [ofWord?_of_numeral? (hnumeral negative), number?, hnumeral negative, Option.bind_eq_bind,
    Option.bind_some]
  change ((Numeral.stepwise? _).map Json.real).isSome = true
  rw [Option.isSome_map]
  exact Numeral.isSome_stepwise? hfits hgrow

/-- Digits in two pieces write the number of all of them. -/
theorem ofDigits_pieces (whole fraction : List Char) :
    ofDigits (digitValues whole ++ digitValues fraction) =
      Nat.ofDigitChars 10 (whole ++ fraction) 0 := by
  rw [← ofDigits_digitValues, digitValues, digitValues, digitValues, List.map_append]

/-- Zeros are digits. -/
theorem isDigit_of_mem_zeros {n : ℕ} {c : Char} (h : c ∈ List.replicate n '0') :
    c.isDigit = true := by
  rw [List.eq_of_mem_replicate h]
  decide

/-- A zero stands alone. -/
theorem isWhole_zero : IsWhole ['0'] :=
  ⟨by simp, fun _ hc => isDigit_of_mem_zeros (n := 1) hc, fun _ => rfl⟩

/-- Digits in front of a point and behind it. -/
theorem writesReal_point {whole fraction : List Char} (hwhole : IsWhole whole)
    (hfraction : ∀ c ∈ fraction, c.isDigit = true) (hne : fraction ≠ [])
    (hfits : ofDigits (digitValues whole ++ digitValues fraction) ≤ wordMax) :
    WritesReal (whole ++ '.' :: fraction) := by
  refine ⟨_, digitValues whole, digitValues fraction, 0, fun negative => ?_, rfl, hfits,
    fun h => ?_⟩
  · have hend : exponent? [] = some 0 := rfl
    have hnumeral := numeral?_fraction negative hwhole hfraction hne hend (by simp)
    rwa [List.append_nil] at hnumeral
  · have hlength : 0 < (digitValues fraction).length := by
      rw [digitValues, List.length_map]
      exact List.length_pos_iff.mpr hne
    omega

/-- Digits in scientific notation. -/
theorem writesReal_scientific {c : ℕ} {k : ℤ} (hfits : c ≤ wordMax)
    (hgrow : 0 ≤ k → (grow? (ofInt c) k.toNat).isSome = true) :
    WritesReal (Layout.mantissa (Nat.toDigits 10 c) ++
      'e' :: integerText ((Nat.toDigits 10 c).length + k - 1)) := by
  have hdigits := isWhole_toDigits c
  have hword := ofDigits_digitValues (Nat.toDigits 10 c)
  rw [Nat.ofDigitChars_ten_toDigits] at hword
  generalize Nat.toDigits 10 c = digits at hdigits hword
  have hfirst : ∀ d ∈ digits, IsWhole [d] := fun d hd =>
    ⟨by simp, fun e he => List.mem_singleton.mp he ▸ hdigits.isDigit d hd, by simp⟩
  have hletter : ∀ c ∈ ('e' :: integerText (digits.length + k - 1)).head?,
      c.isDigit = false ∧ c ≠ '.' := by
    intro c hc
    obtain rfl : 'e' = c := by simpa using hc
    decide
  have hexponent := exponent?_integerText (digits.length + k - 1)
  refine ⟨digitValues digits, ?_⟩
  rw [hword]
  match digits with
  | [] => exact absurd rfl hdigits.ne_nil
  | [d] =>
    refine ⟨digitValues [d], [], _, fun negative =>
      numeral?_whole negative (hfirst d (by simp)) hexponent hletter, by simp, hfits, ?_⟩
    simpa using hgrow
  | d :: f :: rest =>
    refine ⟨digitValues [d], digitValues (f :: rest), _, fun negative =>
      numeral?_fraction negative (hfirst d (by simp))
        (fun e he => hdigits.isDigit e (List.mem_cons_of_mem d he)) (by simp) hexponent
        fun c hc => (hletter c hc).1, rfl, hfits, ?_⟩
    have hscale : ((d :: f :: rest).length + k - 1 - (digitValues (f :: rest)).length : ℤ) = k := by
      simp [digitValues]
      omega
    rw [hscale]
    exact hgrow

/-- The text of a positive decimal with few digits that need not grow too far. -/
theorem writesReal_renderPositive {c : ℕ} {k : ℤ} (hpos : 0 < c) (hfew : c ≤ 10 ^ 17)
    (hgrow : 0 ≤ k → (grow? (ofInt c) k.toNat).isSome = true) :
    WritesReal (numberLayout.renderPositive c k).toList := by
  have hfits : c ≤ wordMax := hfew.trans (by decide +kernel)
  have hdigits := isWhole_toDigits c
  have hhead := head?_toDigits_ne_zero hpos.ne'
  simp only [Layout.renderPositive]
  split_ifs with hpositional hwhole hpoint
  · -- Digits, zeros and the mark of a whole number.
    have hword : ofDigits (digitValues (Nat.toDigits 10 c ++ List.replicate k.toNat '0') ++
        digitValues ['0']) ≤ wordMax := by
      have hzero : ['0'] = List.replicate 1 '0' := rfl
      rw [ofDigits_pieces, hzero, List.append_assoc, List.replicate_append_replicate,
        Nat.ofDigitChars_append, Nat.ofDigitChars_ten_toDigits, Nat.ofDigitChars_replicate_zero]
      have hless := (Text.lt_pow_length_toDigits c).le
      have hshort : ((Nat.toDigits 10 c).length : ℤ) + k ≤ 16 := by
        simpa [Layout.isPositional, numberLayout] using (Bool.and_eq_true_iff.mp hpositional).1
      calc 10 ^ (k.toNat + 1) * c
          ≤ 10 ^ (k.toNat + 1) * 10 ^ (Nat.toDigits 10 c).length := by gcongr
        _ = 10 ^ (k.toNat + 1 + (Nat.toDigits 10 c).length) := (pow_add _ _ _).symm
        _ ≤ 10 ^ 17 := Nat.pow_le_pow_right (by decide) (by omega)
        _ ≤ wordMax := by decide +kernel
    have hmark : numberLayout.wholeMark.toList = '.' :: ['0'] := rfl
    rw [String.toList_append, String.toList_ofList, hmark]
    exact writesReal_point (hdigits.append hhead fun _ hd => isDigit_of_mem_zeros hd)
      isWhole_zero.isDigit isWhole_zero.ne_nil hword
  · -- Digits with a point among them.
    rw [String.toList_ofList]
    refine writesReal_point (hdigits.take hhead (by omega))
      (fun d hd => hdigits.isDigit d (List.mem_of_mem_drop hd)) ?_ ?_
    · rw [Ne, List.drop_eq_nil_iff]
      omega
    · rwa [ofDigits_pieces, List.take_append_drop, Nat.ofDigitChars_ten_toDigits]
  · -- Zeros and a point in front of the digits.
    rw [String.toList_ofList]
    refine writesReal_point isWhole_zero (fun d hd => ?_) ?_ ?_
    · exact (List.mem_append.mp hd).elim isDigit_of_mem_zeros (hdigits.isDigit d)
    · exact List.append_ne_nil_of_right_ne_nil _ hdigits.ne_nil
    · have hzeros : ∀ n, ['0'] ++ (List.replicate n '0' ++ Nat.toDigits 10 c) =
          List.replicate (n + 1) '0' ++ Nat.toDigits 10 c := fun _ => rfl
      rwa [ofDigits_pieces, hzeros, Nat.ofDigitChars_append, Nat.ofDigitChars_replicate_zero,
        Nat.mul_zero, Nat.ofDigitChars_ten_toDigits]
  · simp only [String.toList_append, String.toList_ofList, toList_toString]
    rw [List.append_assoc]
    exact writesReal_scientific hfits hgrow

/-- Every double that is written is read again as a value. -/
theorem isSome_ofWord?_realLetters {x : Binary64} (hx : x.IsDouble) :
    (ofWord? (realLetters x)).isSome = true := by
  cases x with
  | infinite negative => rfl
  | finite negative d =>
    have hbody : ∃ body, WritesReal body ∧ realLetters (.finite negative d) =
        sign negative ++ body := by
      have hsign : (if (Binary64.finite negative d).isNegative then "-" else "").toList =
          sign negative := by
        change (if negative then "-" else "").toList = _
        cases negative <;> rfl
      change ∃ body, _ ∧ (numberLayout.render (.finite negative d)).toList = _
      simp only [Layout.render]
      by_cases hzero : d.significand = 0
      · refine ⟨['0'] ++ '.' :: ['0'], writesReal_point isWhole_zero isWhole_zero.isDigit
          isWhole_zero.ne_nil (by decide), ?_⟩
        rw [if_pos hzero, String.append_assoc, String.toList_append, hsign]
        rfl
      · refine ⟨_, writesReal_renderPositive (hx.shortest_pos (Nat.pos_of_ne_zero hzero))
          d.shortest_spec.1 (Number.isSome_grow?_shortest hx), ?_⟩
        rw [if_neg hzero, String.toList_append, hsign]
    obtain ⟨body, hwrites, hletters⟩ := hbody
    rw [hletters]
    exact hwrites.isSome_ofWord? negative

end DoubleEntry.Json
