import DoubleEntry.Proofs.Text.Words
import DoubleEntry.Search.Statement

/-!
# Words that name scans

A scan of an array is opened by fixed words around the array and its name, and goes on up to the
bracket that closes it. Words are scoped when they name the element of a scan only inside of it. From
that it is read off where the name of a scan stands, and what stands around the name of an element.
-/

namespace DoubleEntry.Search

open Text (IsBalanced)

/-- Whether a word is the name of a scan. -/
def isScanName (word : String) : Bool :=
  match word.toList with
  | 'e' :: d :: digits => d.isDigit && digits.all Char.isDigit
  | _ => false

/-- The word that stands for the path of the element of a scan. -/
def scanReference (scan : ℕ) : String := scanName scan ++ ".fullkey"

/-- The words that open a scan of an array. -/
def scanOpening (scan : ℕ) (array : List String) : List String :=
  ["EXISTS", "(", "SELECT", "1", "FROM", "json_each", "("] ++ (array ++
    [")", "AS", scanName scan, "WHERE"])

/-- The characters of words. -/
def lettersOf (words : List String) : List Char := words.flatMap String.toList

/-- A scan among words, with the words before and after it. Its brackets belong to each other. -/
structure IsScan (scan : ℕ) (before array inside after words : List String) : Prop where
  eq : words = before ++ (scanOpening scan array ++ (inside ++ ")" :: after))
  array : IsBalanced (lettersOf array)
  inside : IsBalanced (lettersOf inside)

/-- Whether a word with others before and after it stands inside of a scan. -/
def StandsInside (scan : ℕ) (before : List String) (word : String) (after : List String) : Prop :=
  ∃ outer array inner rest closing, before = outer ++ (scanOpening scan array ++ inner) ∧
    IsScan scan outer array (inner ++ word :: rest) closing (before ++ word :: after)

/-- Whether a word begins as the name of a scan does. -/
def beginsAsScan (word : String) : Bool :=
  match word.toList with
  | 'e' :: d :: _ => d.isDigit
  | _ => false

/-- Whether a word neither names a scan or its element nor opens one. -/
def isPlain (word : String) : Bool := word != "json_each" && !beginsAsScan word

/-- Words that name the elements of the given scans, and of the scans that they open themselves, only
inside of these scans. The scans that they open are told in order. -/
inductive Scoped : List ℕ → List ℕ → List String → Prop
  | nil (scans : List ℕ) : Scoped scans [] []
  | word (scans : List ℕ) {word : String} (hplain : isPlain word = true) : Scoped scans [] [word]
  | reference {scans : List ℕ} {scan : ℕ} (hscan : scan ∈ scans) :
      Scoped scans [] [scanReference scan]
  | append {scans opened later : List ℕ} {first second : List String}
      (hfirst : Scoped scans opened first) (hsecond : Scoped scans later second) :
      Scoped scans (opened ++ later) (first ++ second)
  | scan {scans opened : List ℕ} {scan : ℕ} {array inside : List String}
      (harray : Scoped scans [] array) (hbalanced : IsBalanced (lettersOf array))
      (hinside : Scoped (scan :: scans) opened inside) (hclosed : IsBalanced (lettersOf inside)) :
      Scoped scans (scan :: opened) (scanOpening scan array ++ (inside ++ [")"]))

/-! ## Names -/

/-- The name of a scan is a letter and the digits of its number. -/
theorem toList_scanName (scan : ℕ) : (scanName scan).toList = 'e' :: Nat.toDigits 10 scan := by
  rw [scanName, String.toList_append]
  exact congrArg _ Nat.toList_repr

/-- The element of a scan is named by the scan and a fixed ending. -/
theorem toList_scanReference (scan : ℕ) :
    (scanReference scan).toList = 'e' :: (Nat.toDigits 10 scan ++ ".fullkey".toList) := by
  rw [scanReference, String.toList_append, toList_scanName, List.cons_append]

/-- The digits of a number are digits. -/
theorem isDigit_of_mem_toDigits {n : ℕ} {c : Char} (hc : c ∈ Nat.toDigits 10 n) :
    c.isDigit = true :=
  Nat.isDigit_of_mem_toDigits (by decide) (by decide) hc

/-- A number has a first digit, and digits behind it. -/
theorem exists_toDigits_eq_cons (n : ℕ) : ∃ d digits, Nat.toDigits 10 n = d :: digits ∧
    d.isDigit = true ∧ ∀ c ∈ digits, c.isDigit = true := by
  obtain ⟨d, digits, heq⟩ := List.exists_cons_of_ne_nil (Nat.toDigits_ne_nil (b := 10) (n := n))
  have hdigits : ∀ c ∈ d :: digits, c.isDigit = true := fun c hc =>
    isDigit_of_mem_toDigits (heq ▸ hc)
  obtain ⟨hd, hrest⟩ := List.forall_mem_cons.mp hdigits
  exact ⟨d, digits, heq, hd, hrest⟩

/-- The name of a scan is one. -/
theorem isScanName_scanName (scan : ℕ) : isScanName (scanName scan) = true := by
  obtain ⟨d, digits, heq, hd, hdigits⟩ := exists_toDigits_eq_cons scan
  rw [isScanName, toList_scanName, heq]
  simpa [hd] using hdigits

/-- The element of a scan is not named as the scan is. -/
theorem isScanName_scanReference (scan : ℕ) : isScanName (scanReference scan) = false := by
  obtain ⟨d, digits, heq, -, -⟩ := exists_toDigits_eq_cons scan
  rw [isScanName, toList_scanReference, heq]
  simp

/-- The element of a scan is named by a word that begins as the name of the scan. -/
theorem beginsAsScan_scanReference (scan : ℕ) : beginsAsScan (scanReference scan) = true := by
  obtain ⟨d, digits, heq, hd, -⟩ := exists_toDigits_eq_cons scan
  rw [beginsAsScan, toList_scanReference, heq]
  exact hd

/-- A word that does not begin as the name of a scan is none. -/
theorem isScanName_eq_false {word : String} (h : beginsAsScan word = false) :
    isScanName word = false := by
  unfold isScanName
  unfold beginsAsScan at h
  split
  next d digits heq =>
    rw [heq] at h
    change d.isDigit = false at h
    rw [h, Bool.false_and]
  next => rfl

/-- Elements of different scans have different names. -/
theorem scanReference_injective {a b : ℕ} (h : scanReference a = scanReference b) : a = b := by
  have hletters := congrArg String.toList h
  rw [toList_scanReference, toList_scanReference, List.cons_inj_right, List.append_left_inj]
    at hletters
  calc a = Nat.ofDigitChars 10 (Nat.toDigits 10 a) 0 := Nat.ofDigitChars_ten_toDigits.symm
    _ = Nat.ofDigitChars 10 (Nat.toDigits 10 b) 0 := by rw [hletters]
    _ = b := Nat.ofDigitChars_ten_toDigits

/-- The name of a scan begins as one. -/
theorem beginsAsScan_scanName (scan : ℕ) : beginsAsScan (scanName scan) = true := by
  obtain ⟨d, digits, heq, hd, -⟩ := exists_toDigits_eq_cons scan
  rw [beginsAsScan, toList_scanName, heq]
  exact hd

/-- A word that begins as the name of a scan is none that does not. -/
theorem ne_of_beginsAsScan {a b : String} (ha : beginsAsScan a = true)
    (hb : beginsAsScan b = false) : a ≠ b := by
  rintro rfl
  exact absurd (ha.symm.trans hb) (by simp)

/-- A plain word does not begin as the name of a scan. -/
theorem beginsAsScan_of_isPlain {word : String} (h : isPlain word = true) :
    beginsAsScan word = false := by
  simpa using (Bool.and_eq_true_iff.mp h).2

/-- A plain word opens no scan. -/
theorem ne_json_each_of_isPlain {word : String} (h : isPlain word = true) : word ≠ "json_each" := by
  simpa using (Bool.and_eq_true_iff.mp h).1

/-- Of the words that open a scan only its name begins as one. -/
theorem beginsAsScan_fixed : ∀ word ∈ ["EXISTS", "(", "SELECT", "1", "FROM", "json_each", "(", ")",
    "AS", "WHERE"], beginsAsScan word = false := by
  decide +kernel

/-! ## Places among words -/

/-- A word among two lists of words is in the first or in the second. -/
theorem append_eq_append_cons {α : Type} {xs ys before after : List α} {x : α}
    (h : xs ++ ys = before ++ x :: after) :
    (∃ rest, xs = before ++ x :: rest ∧ after = rest ++ ys) ∨
      ∃ rest, before = xs ++ rest ∧ ys = rest ++ x :: after := by
  rcases List.append_eq_append_iff.mp h with ⟨rest, hbefore, hys⟩ | ⟨rest, hxs, hrest⟩
  · exact .inr ⟨rest, hbefore, hys⟩
  · cases rest with
    | nil => exact .inr ⟨[], by rw [hxs, List.append_nil, List.append_nil], hrest.symm⟩
    | cons y rest =>
      obtain ⟨rfl, hafter⟩ := List.cons.inj hrest
      exact .inl ⟨rest, hxs, hafter⟩

/-- A word with words before and after it is one of them. -/
theorem mem_of_eq_append_cons {α : Type} {xs before after : List α} {x : α}
    (h : xs = before ++ x :: after) : x ∈ xs :=
  h ▸ List.mem_append_right before List.mem_cons_self

/-- A scan is found among more words. -/
theorem IsScan.extend {scan : ℕ} {before array inside after found : List String}
    (h : IsScan scan before array inside after found) (left right : List String) :
    IsScan scan (left ++ before) array inside (after ++ right) (left ++ (found ++ right)) where
  eq := by
    rw [h.eq]
    simp
  array := h.array
  inside := h.inside

/-- A word stays inside of a scan among more words. -/
theorem StandsInside.extend {scan : ℕ} {before after : List String} {word : String}
    (h : StandsInside scan before word after) (left right : List String) :
    StandsInside scan (left ++ before) word (after ++ right) := by
  obtain ⟨outer, array, inner, rest, closing, hbefore, hscan⟩ := h
  refine ⟨left ++ outer, array, inner, rest, closing ++ right, ?_, ?_⟩
  · rw [hbefore, List.append_assoc]
  · have hmore := hscan.extend left right
    rwa [List.append_assoc, List.cons_append, ← List.append_assoc left] at hmore

/-- Of the words that open a scan only those of the array name elements. -/
theorem exists_of_scanOpening_eq {scan own : ℕ} {array before after : List String}
    (h : scanOpening own array = before ++ scanReference scan :: after) :
    ∃ left right, array = left ++ scanReference scan :: right ∧
      before = ["EXISTS", "(", "SELECT", "1", "FROM", "json_each", "("] ++ left ∧
      after = right ++ [")", "AS", scanName own, "WHERE"] := by
  have hbegins := beginsAsScan_scanReference scan
  have hfixed : ∀ word ∈ ["EXISTS", "(", "SELECT", "1", "FROM", "json_each", "(", ")", "AS",
      "WHERE"], scanReference scan ≠ word := fun word hword =>
    ne_of_beginsAsScan hbegins (beginsAsScan_fixed word hword)
  have hname : scanReference scan ≠ scanName own := by
    intro heq
    have hnot := isScanName_scanReference scan
    rw [heq, isScanName_scanName] at hnot
    exact absurd hnot (by simp)
  rcases append_eq_append_cons h with ⟨_, hfirst, -⟩ | ⟨left, hbefore, hmore⟩
  · exact absurd rfl (hfixed _ (List.mem_append_left [")", "AS", "WHERE"]
      (mem_of_eq_append_cons hfirst)))
  · rcases append_eq_append_cons hmore with ⟨right, harray, hafter⟩ | ⟨_, -, hlast⟩
    · exact ⟨left, right, harray, hbefore, hafter⟩
    · have hmem := mem_of_eq_append_cons hlast
      simp only [List.mem_cons, List.not_mem_nil, or_false] at hmem
      rcases hmem with heq | heq | heq | heq
      · exact absurd heq (hfixed _ (by simp))
      · exact absurd heq (hfixed _ (by simp))
      · exact absurd heq hname
      · exact absurd heq (hfixed _ (by simp))

/-! ## Words that are scoped -/

namespace Scoped

variable {scans opened : List ℕ} {found : List String}

/-- Plain words are scoped anywhere. -/
theorem of_isPlain (scans : List ℕ) {words : List String}
    (h : ∀ word ∈ words, isPlain word = true) : Scoped scans [] words := by
  induction words with
  | nil => exact .nil scans
  | cons word rest ih =>
    obtain ⟨hword, hrest⟩ := List.forall_mem_cons.mp h
    exact (Scoped.word scans hword).append (ih hrest)

/-- The names of scans are those of the scans that are opened, in order. -/
theorem filter_isScanName (h : Scoped scans opened found) :
    found.filter isScanName = opened.map scanName := by
  induction h with
  | nil => rfl
  | word _ hplain =>
    rw [List.filter_singleton, isScanName_eq_false (beginsAsScan_of_isPlain hplain)]
    rfl
  | reference =>
    rw [List.filter_singleton, isScanName_scanReference]
    rfl
  | append _ _ ihfirst ihsecond => rw [List.filter_append, ihfirst, ihsecond, List.map_append]
  | @scan _ opened scan array inside _ _ _ _ iharray ihinside =>
    have hopening : ["EXISTS", "(", "SELECT", "1", "FROM", "json_each", "("].filter isScanName =
        [] := by decide +kernel
    have hclosing : [")", "AS", scanName scan, "WHERE"].filter isScanName = [scanName scan] := by
      have hnames : isScanName ")" = false ∧ isScanName "AS" = false ∧
          isScanName "WHERE" = false := by decide +kernel
      simp [hnames, isScanName_scanName]
    have hend : [")"].filter isScanName = [] := by decide +kernel
    simp only [scanOpening, List.filter_append, hopening, hclosing, hend, iharray, ihinside]
    simp

/-- There is one scan for each that is opened. -/
theorem count_json_each (h : Scoped scans opened found) :
    found.count "json_each" = opened.length := by
  have hnone : beginsAsScan "json_each" = false := by decide +kernel
  induction h with
  | nil => rfl
  | word _ hplain => exact List.count_eq_zero.mpr (by simpa using (ne_json_each_of_isPlain hplain).symm)
  | @reference _ scan =>
    have hne := ne_of_beginsAsScan (beginsAsScan_scanReference scan) hnone
    exact List.count_eq_zero.mpr (by simpa using hne.symm)
  | append _ _ ihfirst ihsecond => rw [List.count_append, ihfirst, ihsecond, List.length_append]
  | @scan _ opened scan array inside _ _ _ _ iharray ihinside =>
    have hopening : ["EXISTS", "(", "SELECT", "1", "FROM", "json_each", "("].count "json_each" =
        1 := by decide +kernel
    have hclosing : [")", "AS", scanName scan, "WHERE"].count "json_each" = 0 := by
      have hne := ne_of_beginsAsScan (beginsAsScan_scanName scan) hnone
      exact List.count_eq_zero.mpr (by simpa using hne.symm)
    have hend : [")"].count "json_each" = 0 := by decide +kernel
    simp only [scanOpening, List.count_append, hopening, hclosing, hend, iharray, ihinside,
      List.length_nil, List.length_cons]
    omega

/-- Every scan that is opened is found among the words. -/
theorem exists_isScan (h : Scoped scans opened found) {scan : ℕ} (hscan : scan ∈ opened) :
    ∃ before array inside after, IsScan scan before array inside after found := by
  induction h with
  | nil | word | reference => exact absurd hscan List.not_mem_nil
  | @append _ _ _ first second _ _ ihfirst ihsecond =>
    rcases List.mem_append.mp hscan with hfirst | hsecond
    · obtain ⟨before, array, inside, after, h⟩ := ihfirst hfirst
      exact ⟨_, array, inside, _, h.extend [] second⟩
    · obtain ⟨before, array, inside, after, h⟩ := ihsecond hsecond
      have hmore := h.extend first []
      rw [List.append_nil second] at hmore
      exact ⟨_, array, inside, _, hmore⟩
  | @scan _ _ own array inside _ hbalanced _ hclosed _ ihinside =>
    rcases List.mem_cons.mp hscan with rfl | hinner
    · exact ⟨[], array, inside, [], rfl, hbalanced, hclosed⟩
    · obtain ⟨before, array', inside', after, h⟩ := ihinside hinner
      exact ⟨_, array', inside', _, h.extend (scanOpening own array) [")"]⟩

/-- The element of a scan is named inside of the scan, unless the scan was open before. -/
theorem mem_or_standsInside (h : Scoped scans opened found) {scan : ℕ} {before after : List String}
    (heq : found = before ++ scanReference scan :: after) :
    scan ∈ scans ∨ StandsInside scan before (scanReference scan) after := by
  have hbegins := beginsAsScan_scanReference scan
  induction h generalizing before after with
  | nil => exact absurd heq (by simp)
  | word _ hplain =>
    exact absurd (List.mem_singleton.mp (mem_of_eq_append_cons heq))
      (ne_of_beginsAsScan hbegins (beginsAsScan_of_isPlain hplain))
  | reference hopen =>
    obtain rfl := scanReference_injective (List.mem_singleton.mp (mem_of_eq_append_cons heq))
    exact .inl hopen
  | @append _ _ _ first second _ _ ihfirst ihsecond =>
    rcases append_eq_append_cons heq with ⟨rest, hfirst, rfl⟩ | ⟨rest, rfl, hsecond⟩
    · exact (ihfirst hfirst).imp_right fun h => h.extend [] second
    · refine (ihsecond hsecond).imp_right fun h => ?_
      have hmore := h.extend first []
      rwa [List.append_nil] at hmore
  | @scan scans _ own array inside _ hbalanced _ hclosed iharray ihinside =>
    rcases append_eq_append_cons heq with ⟨rest, hopening, rfl⟩ | ⟨rest, rfl, hrest⟩
    · obtain ⟨left, right, harray, rfl, rfl⟩ := exists_of_scanOpening_eq hopening
      refine (iharray harray).imp_right fun h => ?_
      rw [List.append_assoc]
      exact h.extend _ _
    · rcases append_eq_append_cons hrest with ⟨right, hinside, rfl⟩ | ⟨_, -, hend⟩
      · rcases ihinside hinside with hmem | h
        · rcases List.mem_cons.mp hmem with rfl | hopen
          · refine .inr ⟨[], array, rest, right, [], rfl, ?_, hbalanced, hinside ▸ hclosed⟩
            rw [List.append_assoc, List.append_assoc]
            rfl
          · exact .inl hopen
        · exact .inr (h.extend _ _)
      · have hbracket : beginsAsScan ")" = false := beginsAsScan_fixed ")" (by simp)
        exact absurd (List.mem_singleton.mp (mem_of_eq_append_cons hend))
          (ne_of_beginsAsScan hbegins hbracket)

end Scoped

end DoubleEntry.Search
