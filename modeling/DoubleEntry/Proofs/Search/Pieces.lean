import DoubleEntry.Proofs.Search.ScanWords
import DoubleEntry.Proofs.Text.Parts
import DoubleEntry.Proofs.Transaction.Validity

/-!
# Pieces that fit together

The pieces of a condition are put together in few ways: one after another, between two texts, or
before an operand. Each of these ways keeps three facts: what the operands are, how the words name
scans, and that the brackets are balanced.
-/

namespace DoubleEntry.Search

open Text (IsBalanced endsBroken split startsBroken words)

/-! ## Operands and their places -/

/-- The texts before a value: the signs of comparators, and the words of a page. -/
def valueWords : List String :=
  [" = ", " != ", " > ", " >= ", " < ", " <= ", " LIKE ", " NOT LIKE ", " LIMIT ", " OFFSET "]

/-- What an operand is, given the text before its placeholder: behind the data column it is a path of
keys from the root, behind the element of a scan it is keys that go on from there, and everywhere else
it is a value. -/
structure Suits (before : List Char) (operand : Operand) : Prop where
  path : ".data, ".toList <:+ before →
    ∃ keys, keys ≠ [] ∧ (∀ key ∈ keys, DataKey.Matches key) ∧ operand = .text ("$" ++ dotted keys)
  suffix : ".fullkey || ".toList <:+ before →
    ∃ keys, keys ≠ [] ∧ (∀ key ∈ keys, DataKey.Matches key) ∧ operand = .text (dotted keys)
  place : ".data, ".toList <:+ before ∨ ".fullkey || ".toList <:+ before ∨
    ∃ word ∈ valueWords, word.toList <:+ before

/-! ## The text of pieces -/

/-- The text of pieces. -/
def spelled (fragments : List Fragment) : List Char :=
  fragments.flatMap fun fragment => fragment.words.toList

@[simp] theorem spelled_nil : spelled [] = [] := rfl

@[simp] theorem spelled_text (fixed : String) (rest : List Fragment) :
    spelled (.text fixed :: rest) = fixed.toList ++ spelled rest := rfl

@[simp] theorem spelled_operand (operand : Operand) (rest : List Fragment) :
    spelled (.operand operand :: rest) = '?' :: spelled rest := by
  simp [spelled, Fragment.words]

@[simp] theorem spelled_append (first second : List Fragment) :
    spelled (first ++ second) = spelled first ++ spelled second := List.flatMap_append

/-- Pieces end with a break when their last text does. -/
theorem endsBroken_spelled {fixed : String} (h : endsBroken fixed.toList = true)
    (fragments : List Fragment) : endsBroken (spelled (fragments ++ [.text fixed])) = true := by
  rw [spelled_append, spelled_text, spelled_nil, List.append_nil]
  exact Text.endsBroken_append h _

/-- Pieces behind a text, without a placeholder in a fixed text, and with operands that suit the text
before them. -/
def Laid : List Char → List Fragment → Prop
  | _, [] => True
  | before, .text fixed :: rest => '?' ∉ fixed.toList ∧ Laid (before ++ fixed.toList) rest
  | before, .operand operand :: rest => Suits before operand ∧ Laid [] rest

/-- Pieces go on with pieces that may stand behind any text. -/
theorem Laid.append {before : List Char} {first second : List Fragment} (hfirst : Laid before first)
    (hsecond : ∀ before, Laid before second) : Laid before (first ++ second) := by
  induction first generalizing before with
  | nil => exact hsecond before
  | cons fragment rest ih =>
    cases fragment with
    | text fixed => exact ⟨hfirst.1, ih hfirst.2⟩
    | operand operand => exact ⟨hfirst.1, ih hfirst.2⟩

/-- The placeholders in the text of pieces are those of their operands. -/
theorem Laid.count_spelled {before : List Char} {fragments : List Fragment}
    (h : Laid before fragments) :
    (spelled fragments).count '?' = (fragments.filterMap Fragment.operand?).length := by
  induction fragments generalizing before with
  | nil => rfl
  | cons fragment rest ih =>
    cases fragment with
    | text fixed =>
      have hnone : fixed.toList.count '?' = 0 := List.count_eq_zero.mpr h.1
      rw [spelled_text, List.count_append, hnone, ih h.2, Nat.zero_add]
      rfl
    | operand operand =>
      rw [spelled_operand, List.count_cons_self, ih h.2]
      rfl

/-- Cut at its placeholders, the text of pieces has before each of them what its operand suits. -/
theorem Laid.suits_zip {before : List Char} {fragments : List Fragment} (h : Laid before fragments)
    (hbefore : '?' ∉ before) :
    ∀ p ∈ (split '?' (before ++ spelled fragments)).zip (fragments.filterMap Fragment.operand?),
      Suits p.1 p.2 := by
  induction fragments generalizing before with
  | nil => simp
  | cons fragment rest ih =>
    cases fragment with
    | text fixed =>
      have hmore : '?' ∉ before ++ fixed.toList := by simp [hbefore, h.1]
      have hrest := ih h.2 hmore
      rwa [List.append_assoc] at hrest
    | operand operand =>
      have hrest := ih h.2 List.not_mem_nil
      rw [spelled_operand, Text.split_append_cons hbefore]
      exact List.forall_mem_cons.mpr ⟨h.1, hrest⟩

/-- Pieces whose operands suit the texts before them, whose words are scoped and open the given scans,
and whose brackets are balanced. -/
structure Neat (scans opened : List ℕ) (fragments : List Fragment) : Prop where
  laid : ∀ before, Laid before fragments
  scope : Scoped scans opened (words (spelled fragments))
  balanced : IsBalanced (spelled fragments)

/-- A text without placeholders that is balanced and names no scan. -/
def IsFixed (fixed : String) : Prop :=
  '?' ∉ fixed.toList ∧ (∀ word ∈ words fixed.toList, isPlain word = true) ∧
    IsBalanced fixed.toList

instance (fixed : String) : Decidable (IsFixed fixed) := inferInstanceAs (Decidable (_ ∧ _ ∧ _))

/-- Two texts without placeholders that name no scan and are balanced when they are put around another
text. Words end where they meet it. -/
def IsPair (opening closing : String) : Prop :=
  '?' ∉ opening.toList ∧ '?' ∉ closing.toList ∧
    (∀ word ∈ words opening.toList, isPlain word = true) ∧
    (∀ word ∈ words closing.toList, isPlain word = true) ∧
    IsBalanced (opening.toList ++ closing.toList) ∧
    endsBroken opening.toList = true ∧ startsBroken closing.toList = true

instance (opening closing : String) : Decidable (IsPair opening closing) :=
  inferInstanceAs (Decidable (_ ∧ _ ∧ _ ∧ _ ∧ _ ∧ _ ∧ _))

/-- What stands behind a word for values stands behind no path: the word ends with a blank, but not
with a comma or a bar before it. -/
theorem not_suffix_of_mem_valueWords {word : String} (h : word ∈ valueWords) (before : List Char) :
    ¬ ".data, ".toList <:+ before ++ word.toList ∧
      ¬ ".fullkey || ".toList <:+ before ++ word.toList := by
  have hall : ∀ word ∈ valueWords, 2 ≤ word.toList.length ∧ ¬ [',', ' '] <:+ word.toList ∧
      ¬ ['|', ' '] <:+ word.toList := by
    decide +kernel
  obtain ⟨hlength, hcomma, hbar⟩ := hall word h
  have hword := List.suffix_append before word.toList
  constructor
  · intro hdata
    have htail : [',', ' '] <:+ ".data, ".toList := by decide +kernel
    exact hcomma (List.suffix_of_suffix_length_le (htail.trans hdata) hword hlength)
  · intro hkey
    have htail : ['|', ' '] <:+ ".fullkey || ".toList := by decide +kernel
    exact hbar (List.suffix_of_suffix_length_le (htail.trans hkey) hword hlength)

/-- Words for values are fixed texts between breaks. -/
theorem valueWords_spec {word : String} (h : word ∈ valueWords) :
    IsFixed word ∧ startsBroken word.toList = true ∧ endsBroken word.toList = true := by
  have hall : ∀ word ∈ valueWords, IsFixed word ∧ startsBroken word.toList = true ∧
      endsBroken word.toList = true := by
    decide +kernel
  exact hall word h

/-- Any operand suits a text that ends with a word for values. -/
theorem suits_of_mem_valueWords {word : String} (h : word ∈ valueWords) (before : List Char)
    (operand : Operand) : Suits (before ++ word.toList) operand where
  path hdata := ((not_suffix_of_mem_valueWords h before).1 hdata).elim
  suffix hkey := ((not_suffix_of_mem_valueWords h before).2 hkey).elim
  place := .inr (.inr ⟨word, h, List.suffix_append _ _⟩)

namespace Neat

variable {scans opened later : List ℕ} {first second : List Fragment}

/-- No pieces are neat. -/
theorem nil (scans : List ℕ) : Neat scans [] [] where
  laid _ := trivial
  scope := .nil scans
  balanced := rfl

/-- A fixed text is neat. -/
theorem text (scans : List ℕ) {fixed : String} (h : IsFixed fixed) :
    Neat scans [] [.text fixed] := by
  obtain ⟨hplaceholder, hplain, hbalanced⟩ := h
  constructor
  case laid => exact fun before => ⟨hplaceholder, trivial⟩
  case scope =>
    rw [spelled_text, spelled_nil, List.append_nil]
    exact .of_isPlain scans hplain
  case balanced => rwa [spelled_text, spelled_nil, List.append_nil]

/-- Neat pieces that meet at a break are neat together. -/
theorem append (hfirst : Neat scans opened first) (hsecond : Neat scans later second)
    (hmeet : endsBroken (spelled first) = true ∨ startsBroken (spelled second) = true) :
    Neat scans (opened ++ later) (first ++ second) where
  laid before := (hfirst.laid before).append hsecond.laid
  scope := by
    rw [spelled_append, Text.words_append hmeet]
    exact hfirst.scope.append hsecond.scope
  balanced := by
    rw [spelled_append]
    exact hfirst.balanced.append hsecond.balanced

/-- A fixed text that starts with a break is neat behind neat pieces. -/
theorem followed {closing : String} (h : Neat scans opened first) (hfixed : IsFixed closing)
    (hstarts : startsBroken closing.toList = true) :
    Neat scans opened (first ++ [.text closing]) := by
  have hspelled : startsBroken (spelled [.text closing]) = true := by
    rwa [spelled_text, spelled_nil, List.append_nil]
  have htogether := h.append (.text scans hfixed) (.inr hspelled)
  rwa [List.append_nil] at htogether

/-- An operand is neat behind a word for values. -/
theorem value (scans : List ℕ) {word : String} (h : word ∈ valueWords) (operand : Operand) :
    Neat scans [] [.text word, .operand operand] := by
  obtain ⟨⟨hplaceholder, hplain, hbalanced⟩, -, hends⟩ := valueWords_spec h
  have hspelled : spelled [.text word, .operand operand] = word.toList ++ ['?'] := by simp
  constructor
  case laid =>
    intro before
    exact ⟨hplaceholder, suits_of_mem_valueWords h before operand, trivial⟩
  case scope =>
    rw [hspelled, Text.words_append (.inl hends)]
    apply Scoped.of_isPlain
    exact List.forall_mem_append.mpr ⟨hplain, by decide +kernel⟩
  case balanced =>
    rw [hspelled]
    exact hbalanced.append (by decide)

/-- An operand is neat behind neat pieces and a word for values. -/
theorem valued {word : String} (h : Neat scans opened first) (hword : word ∈ valueWords)
    (operand : Operand) : Neat scans opened (first ++ [.text word, .operand operand]) := by
  have hstarts := Text.startsBroken_append (valueWords_spec hword).2.1
  have htogether := h.append (.value scans hword operand) (.inr (hstarts _))
  rwa [List.append_nil] at htogether

/-- Pieces are neat between two texts when their operands suit the text before them. -/
theorem between {opening closing : String} (hpair : IsPair opening closing)
    (hlaid : ∀ before, Laid (before ++ opening.toList) first)
    (hscope : Scoped scans opened (words (spelled first))) (hbalanced : IsBalanced (spelled first)) :
    Neat scans opened (.text opening :: (first ++ [.text closing])) := by
  obtain ⟨hopening, hclosing, hplain, hplain', houter, hends, hstarts⟩ := hpair
  have hspelled : spelled (.text opening :: (first ++ [.text closing])) =
      opening.toList ++ (spelled first ++ closing.toList) := by simp
  constructor
  case laid =>
    intro before
    exact ⟨hopening, (hlaid before).append fun _ => ⟨hclosing, trivial⟩⟩
  case scope =>
    have hinner := hscope.append (.of_isPlain scans hplain')
    rw [List.append_nil] at hinner
    rw [hspelled, Text.words_append (.inl hends), Text.words_append (.inr hstarts)]
    exact (Scoped.of_isPlain scans hplain).append hinner
  case balanced =>
    rw [hspelled]
    exact houter.insert hbalanced

/-- Neat pieces are neat between two texts. -/
theorem enclosed {opening closing : String} (hpair : IsPair opening closing)
    (h : Neat scans opened first) : Neat scans opened (.text opening :: (first ++ [.text closing])) :=
  .between hpair (fun _ => h.laid _) h.scope h.balanced

end Neat

end DoubleEntry.Search
