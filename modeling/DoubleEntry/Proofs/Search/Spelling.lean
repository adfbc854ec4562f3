import DoubleEntry.Proofs.Search.Membership
import DoubleEntry.Proofs.Text.Digits

/-!
# Numbers and the texts that spell them

A relation may be asked for with an integer or with a text that spells it, also one with zeros in
front. Both read the same number, so they agree on every entry that compares as a number. They differ
on other texts only: these compare with the text that was asked for, and never with the number. In a
list each element decides as it does alone.
-/

namespace DoubleEntry.Search

open Constraint
open Text.Reader (digitValues ofDigits_digitValues)

variable {space : Namespace} {row : Row} {key s : String} {n : ℤ} {v : Json} {r : Relation}

/-! ## Spellings -/

/-- A text that spells an integer: digits, perhaps behind a minus. -/
inductive Spells : String → ℤ → Prop
  | digits {ds : List Char} (hne : ds ≠ []) (hds : ∀ c ∈ ds, c.isDigit = true) :
      Spells (String.ofList ds) (Nat.ofDigitChars 10 ds 0)
  | minus {ds : List Char} (hne : ds ≠ []) (hds : ∀ c ∈ ds, c.isDigit = true) :
      Spells (String.ofList ('-' :: ds)) (-(Nat.ofDigitChars 10 ds 0 : ℤ))

/-- Digits alone are an unsigned decimal. -/
theorem isDecimal_of_digits {ds : List Char} (hne : ds ≠ []) (hds : ∀ c ∈ ds, c.isDigit = true) :
    isDecimal ds = true := by
  have hsome : ds.any Char.isDigit = true := by
    obtain ⟨d, hd⟩ := List.exists_mem_of_ne_nil ds hne
    exact List.any_eq_true.mpr ⟨d, hd, hds d hd⟩
  have hall : (ds.all fun c => c.isDigit || c == '.') = true :=
    List.all_eq_true.mpr fun c hc => by rw [hds c hc, Bool.true_or]
  have hdots : ds.count '.' = 0 :=
    List.count_eq_zero.mpr fun hdot => absurd (hds '.' hdot) (by decide)
  simp [isDecimal, hsome, hall, hdots]

/-- The whole part of a decimal without a dot is all of its digits. -/
theorem whole_decimalNumeral {ds : List Char} (hds : ∀ c ∈ ds, c.isDigit = true) (negative : Bool) :
    (decimalNumeral negative ds).whole = digitValues ds := by
  rw [decimalNumeral, List.takeWhile_eq_self_iff.mpr hds, digitValues]

/-- A text that spells an integer within the signed words is that operand. -/
theorem Spells.ofDecimal?_eq (h : Spells s n) (hn : fitsSigned n = true) :
    Operand.ofDecimal? s = some (.integer n) := by
  cases h with
  | @digits ds hne hds =>
    have hsign : ∀ rest, ds ≠ '-' :: rest := by
      rintro rest rfl
      exact absurd (hds '-' List.mem_cons_self) (by decide)
    have hall : ds.all Char.isDigit = true := List.all_eq_true.mpr hds
    simp [Operand.ofDecimal?, isDecimal_of_digits hne hds, whole_decimalNumeral hds,
      ofDigits_digitValues, hall, hn]
  | @minus ds hne hds =>
    have hall : ds.all Char.isDigit = true := List.all_eq_true.mpr hds
    simp [Operand.ofDecimal?, isDecimal_of_digits hne hds, whole_decimalNumeral hds,
      ofDigits_digitValues, hall, hn]

/-! ## One operand -/

/-- An entry is asked for an integer. -/
theorem ofRange_integer (hn : fitsSigned n = true) (key : String) (r : Relation) :
    Predicate.ofRange key r.name (.integer n) = .ok (.numeric key r (.integer n)) := by
  have hnumber : Operand.ofNumber? (.integer n) = some (.integer n) := by
    simp [Operand.ofNumber?, Operand.ofInt, hn]
  rw [Predicate.ofRange_name, Predicate.ofEntry_of_ofNumber? hnumber]

/-- An entry is asked for a text that spells an integer as for both. -/
theorem Spells.ofRange_eq (h : Spells s n) (hn : fitsSigned n = true) (key : String)
    (r : Relation) :
    Predicate.ofRange key r.name (.text s) = .ok (.numericOrText key r (.integer n) s) := by
  rw [Predicate.ofRange_name]
  simp only [Predicate.ofEntry, h.ofDecimal?_eq hn]

/-- An integer is accepted by each relation. -/
theorem accepted_range_integer (hkey : DataKey.Matches key) (n : ℤ) (r : Relation) :
    (range key r.name (.integer n)).Accepted space :=
  forall_accepted_range_iff.mpr ⟨hkey, .inl (.integer n)⟩ r

/-- A text is accepted by each relation. -/
theorem accepted_range_text (hkey : DataKey.Matches key) (s : String) (r : Relation) :
    (range key r.name (.text s)).Accepted space :=
  forall_accepted_range_iff.mpr ⟨hkey, .inr ⟨s, rfl⟩⟩ r

/-- Only an entry that compares as a number matches an integer. -/
theorem exists_isNumeric_of_matches_integer (hrow : row.HasTexts) (hkey : DataKey.Matches key)
    (hmatches : (range key r.name (.integer n)).Matches space row) :
    ∃ entry, row.entry? key = some entry ∧ Entry.IsNumeric entry := by
  obtain ⟨entry, a, b, hentry, hcompared, -⟩ :=
    (matches_range_relation_iff hrow hkey (.inl (.integer n)) r).mp hmatches
  cases hcompared with
  | number hx _ => exact ⟨entry, hentry, Entry.exists_double?_iff.mp ⟨_, hx⟩⟩

/-- A text that spells an integer matches what the integer matches, and other texts as a text. -/
theorem Spells.matches_iff (h : Spells s n) (hn : fitsSigned n = true) (hrow : row.HasTexts)
    (hkey : DataKey.Matches key) : (range key r.name (.text s)).Matches space row ↔
      (range key r.name (.integer n)).Matches space row ∨
        ∃ words, row.entry? key = some (.text words) ∧ ¬ Entry.IsNumeric (.text words) ∧
          r.Holds (String.ofList (untilNul words)) s := by
  rw [matches_range_iff hrow hkey, matches_range_iff hrow hkey, h.ofRange_eq hn,
    ofRange_integer hn]
  simp only [Except.ok.injEq, exists_eq_left', Predicate.holds_numericOrText_iff]
  refine or_congr_right ?_
  rw [Predicate.holds_text_iff]
  constructor
  · rintro ⟨⟨entry, hentry, hnone⟩, found, words, hfound, hwords, hholds⟩
    obtain rfl := Option.some.inj (hentry.symm.trans hfound)
    cases entry with
    | text written =>
      obtain rfl := Option.some.inj hwords
      refine ⟨written, hentry, ?_, (r.holds_map_iff Place.strictMono_text).mp hholds⟩
      rw [← Entry.exists_double?_iff, hnone]
      simp
    | _ => simp [Entry.words?] at hwords
  · rintro ⟨written, hentry, hother, hholds⟩
    have hnone : Entry.double? (.text written) = none := by
      rw [← Entry.exists_double?_iff] at hother
      simpa [Option.eq_none_iff_forall_ne_some] using hother
    exact ⟨⟨_, hentry, hnone⟩, _, _, hentry, rfl,
      (r.holds_map_iff Place.strictMono_text).mpr hholds⟩

/-- An entry that compares as a number matches a text that spells an integer when it matches the
integer. -/
theorem Spells.matches_iff_of_isNumeric (h : Spells s n) (hn : fitsSigned n = true)
    (hrow : row.HasTexts) (hkey : DataKey.Matches key) {entry : Json}
    (hentry : row.entry? key = some entry) (hnumeric : Entry.IsNumeric entry) :
    (range key r.name (.text s)).Matches space row ↔
      (range key r.name (.integer n)).Matches space row := by
  rw [h.matches_iff hn hrow hkey]
  refine or_iff_left ?_
  rintro ⟨words, hwords, hother, -⟩
  obtain rfl := Option.some.inj (hentry.symm.trans hwords)
  exact hother hnumeric

/-! ## Lists -/

/-- An operand and itself, or a text that spells it. -/
inductive Respelled : Json → Json → Prop
  | same (v : Json) : Respelled v v
  | text {s : String} {n : ℤ} (h : Spells s n) (hn : fitsSigned n = true) :
      Respelled (.text s) (.integer n)

/-- A respelled operand is accepted by a relation when the operand is. -/
theorem Respelled.accepted_iff {w : Json} (h : Respelled v w) (hkey : DataKey.Matches key) :
    (range key r.name v).Accepted space ↔ (range key r.name w).Accepted space := by
  cases h with
  | same => rfl
  | text => exact iff_of_true (accepted_range_text hkey _ r) (accepted_range_integer hkey _ r)

/-- A respelled operand decides as the operand does about an entry that compares as a number. -/
theorem Respelled.matches_iff {w : Json} (h : Respelled v w) (hrow : row.HasTexts)
    (hkey : DataKey.Matches key) {entry : Json} (hentry : row.entry? key = some entry)
    (hnumeric : Entry.IsNumeric entry) :
    (range key r.name v).Matches space row ↔ (range key r.name w).Matches space row := by
  cases h with
  | same => rfl
  | text h hn => exact h.matches_iff_of_isNumeric hn hrow hkey hentry hnumeric

/-! ## Verdicts -/

/-- An integer and a text that spells it are accepted by each relation. They give the same verdict
on an entry that compares as a number, which is a number or text that is an unsigned decimal up to
its first NUL. Other text never matches the integer, and matches the text that spells it as texts
compare; nothing else matches either. An accepted list matches by its elements, each as it does
alone, so respelling elements changes neither what is accepted nor the verdict on an entry that
compares as a number. -/
theorem spelled_integer_agrees (hrow : row.IsOf space) (hkey : DataKey.Matches key) :
    (∀ s n, Spells s n → fitsSigned n = true → ∀ r : Relation,
      ((range key r.name (.text s)).Accepted space ∧
        (range key r.name (.integer n)).Accepted space) ∧
      (∀ entry, row.entry? key = some entry → Entry.IsNumeric entry →
        ((range key r.name (.text s)).Matches space row ↔
          (range key r.name (.integer n)).Matches space row)) ∧
      (∀ words, row.entry? key = some (.text words) → ¬ Entry.IsNumeric (.text words) →
        ¬ (range key r.name (.integer n)).Matches space row ∧
        ((range key r.name (.text s)).Matches space row ↔
          r.Holds (String.ofList (untilNul words)) s)) ∧
      ((∀ entry, row.entry? key = some entry →
          ¬ Entry.IsNumeric entry ∧ ∀ words, entry ≠ .text words) →
        ¬ (range key r.name (.text s)).Matches space row ∧
          ¬ (range key r.name (.integer n)).Matches space row)) ∧
    (∀ vs ws, List.Forall₂ Respelled vs ws →
      ((range key "in" (.array vs)).Accepted space ↔
        (range key "in" (.array ws)).Accepted space) ∧
      ((range key "nin" (.array vs)).Accepted space ↔
        (range key "nin" (.array ws)).Accepted space) ∧
      ((range key "in" (.array vs)).Accepted space →
        ((range key "in" (.array vs)).Matches space row ↔
          ∃ v ∈ vs, (range key "eq" v).Matches space row) ∧
        ((range key "nin" (.array vs)).Matches space row ↔
          ∀ v ∈ vs, (range key "ne" v).Matches space row) ∧
        ∀ entry, row.entry? key = some entry → Entry.IsNumeric entry →
          ((range key "in" (.array vs)).Matches space row ↔
            (range key "in" (.array ws)).Matches space row) ∧
          ((range key "nin" (.array vs)).Matches space row ↔
            (range key "nin" (.array ws)).Matches space row))) := by
  have htexts := hrow.hasTexts
  constructor
  case left =>
    intro s n hs hn r
    refine ⟨⟨accepted_range_text hkey s r, accepted_range_integer hkey n r⟩,
      fun entry => hs.matches_iff_of_isNumeric hn htexts hkey, ?words, ?other⟩
    case words =>
      intro words hwords hother
      have hnot : ¬ (range key r.name (.integer n)).Matches space row := by
        intro hmatches
        obtain ⟨entry, hentry, hnumeric⟩ :=
          exists_isNumeric_of_matches_integer htexts hkey hmatches
        obtain rfl := Option.some.inj (hwords.symm.trans hentry)
        exact hother hnumeric
      refine ⟨hnot, ?_⟩
      rw [hs.matches_iff hn htexts hkey, or_iff_right hnot]
      simp [hwords, hother]
    case other =>
      intro hother
      have hnot : ¬ (range key r.name (.integer n)).Matches space row := by
        intro hmatches
        obtain ⟨entry, hentry, hnumeric⟩ :=
          exists_isNumeric_of_matches_integer htexts hkey hmatches
        exact (hother entry hentry).1 hnumeric
      refine ⟨?_, hnot⟩
      rw [hs.matches_iff hn htexts hkey, or_iff_right hnot]
      rintro ⟨words, hwords, -, -⟩
      exact (hother _ hwords).2 words rfl
  case right =>
    intro vs ws hvs
    have hlists := takesLists_range space hkey
    have hin : (range key "in" (.array vs)).Accepted space ↔
        (range key "in" (.array ws)).Accepted space := by
      rw [hlists.accepted_in_iff, hlists.accepted_in_iff]
      exact forall_mem_iff_of_forall₂ hvs fun v w h => h.accepted_iff (r := .eq) hkey
    have hnin : (range key "nin" (.array vs)).Accepted space ↔
        (range key "nin" (.array ws)).Accepted space := by
      rw [hlists.accepted_nin_iff, hlists.accepted_nin_iff]
      exact forall_mem_iff_of_forall₂ hvs fun v w h => h.accepted_iff (r := .ne) hkey
    refine ⟨hin, hnin, fun haccepted => ?_⟩
    have heach := hlists.accepted_in_iff.mp haccepted
    have havoided := hlists.accepted_nin_iff.mpr fun v hv => accepted_range_ne_iff.mpr (heach v hv)
    refine ⟨hlists.matches_in_iff htexts haccepted, hlists.matches_nin_iff htexts havoided, ?_⟩
    intro entry hentry hnumeric
    rw [hlists.matches_in_iff htexts haccepted, hlists.matches_in_iff htexts (hin.mp haccepted),
      hlists.matches_nin_iff htexts havoided, hlists.matches_nin_iff htexts (hnin.mp havoided)]
    exact ⟨exists_mem_iff_of_forall₂ hvs fun v w h =>
        h.matches_iff (r := .eq) htexts hkey hentry hnumeric,
      forall_mem_iff_of_forall₂ hvs fun v w h =>
        h.matches_iff (r := .ne) htexts hkey hentry hnumeric⟩

/-- A size of 3 is at least 3, and so it is at least what is spelled with zeros in front; a kind
that is a word comes behind a text that spells a number and does not compare with the number. -/
theorem spelled_integer_agrees_labelled :
    labelled.IsOf .accounts ∧ Spells "003" 3 ∧ Spells "-7" (-7) ∧
      (range "size" "gte" (.text "003")).Matches .accounts labelled ∧
      (range "size" "in" (.array [.text "-7", .text "003"])).Matches .accounts labelled ∧
      (range "kind" "gt" (.text "-7")).Matches .accounts labelled ∧
      ¬ (range "kind" "gt" (.integer (-7))).Matches .accounts labelled := by
  have hrow : labelled.IsOf .accounts := .account _ _ _
  have hthree : Spells "003" 3 := @Spells.digits ['0', '0', '3'] (by simp) (by simp)
  have hseven : Spells "-7" (-7) := @Spells.minus ['7'] (by simp) (by simp)
  have hsizeKey : DataKey.Matches "size" := (DataKey.isValid_iff _).mp rfl
  have hkindKey : DataKey.Matches "kind" := (DataKey.isValid_iff _).mp rfl
  obtain ⟨hsize, hlists⟩ := spelled_integer_agrees hrow hsizeKey
  obtain ⟨hkind, -⟩ := spelled_integer_agrees hrow hkindKey
  obtain ⟨-, hsame, -⟩ := hsize "003" 3 hthree rfl .gte
  obtain ⟨-, -, hwords, -⟩ := hkind "-7" (-7) hseven rfl .gt
  have hcash : ¬ Entry.IsNumeric (.text "cash") := by
    rintro ⟨⟩
    contradiction
  obtain ⟨hnot, hgreater⟩ := hwords "cash" rfl hcash
  have hrespelled : List.Forall₂ Respelled [.text "-7", .text "003"] [.integer (-7), .integer 3] :=
    .cons (.text hseven rfl) (.cons (.text hthree rfl) .nil)
  obtain ⟨-, -, hlist⟩ := hlists _ _ hrespelled
  obtain ⟨-, -, hverdict⟩ := hlist ⟨_, rfl⟩
  refine ⟨hrow, hthree, hseven, (hsame (.integer 3) rfl (.integer 3)).mpr ?_,
    (hverdict (.integer 3) rfl (.integer 3)).1.mpr ?_, hgreater.mpr ?_, hnot⟩
  · exact ⟨_, rfl, by decide +kernel⟩
  · exact ⟨_, rfl, by decide +kernel⟩
  · show "cash" > "-7"
    decide

/-- An account with a text that goes on behind a NUL. -/
def truncated : Row :=
  ⟨accountColumn ⟨"a", Data.stored []⟩ (some 0), .object [("k", .text "5\x00x")]⟩

/-- Text that is no unsigned decimal matches an integer, alone and in a list, when it is one up to
its first NUL. -/
theorem matches_text_beyond_nul :
    truncated.IsOf .accounts ∧ truncated.entry? "k" = some (.text "5\x00x") ∧
      isDecimal "5\x00x".toList = false ∧
      (range "k" "eq" (.integer 5)).Matches .accounts truncated ∧
      (range "k" "in" (.array [.integer 5])).Matches .accounts truncated := by
  exact ⟨.account _ _ _, rfl, by decide, ⟨_, rfl, by decide +kernel⟩, ⟨_, rfl, by decide +kernel⟩⟩

end DoubleEntry.Search
