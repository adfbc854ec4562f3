import Mathlib

/-!
# Words and brackets

A text is cut into words at blanks and commas, and every round bracket is a word by itself. Two texts
may be cut apart from each other when a word ends where they meet. Brackets of a text are balanced
when each closing one belongs to the last one that is still open, and none is open at the end.
-/

namespace DoubleEntry.Text

/-! ## Words -/

/-- Whether a character is between words and part of none. -/
def isGap (c : Char) : Bool := c == ' ' || c == ','

/-- Whether a character ends the word before it: a gap, or a bracket that is a word itself. -/
def isBreak (c : Char) : Bool := isGap c || c == '(' || c == ')'

/-- The word of the letters gathered, if there are any. -/
def gathered (letters : List Char) : List String :=
  if letters.isEmpty then [] else [String.ofList letters]

/-- The words of the rest of a text, behind letters of a word that has begun. -/
def wordsFrom (letters : List Char) : List Char → List String
  | [] => gathered letters
  | c :: rest =>
    if isGap c then gathered letters ++ wordsFrom [] rest
    else if isBreak c then gathered letters ++ String.ofList [c] :: wordsFrom [] rest
    else wordsFrom (letters ++ [c]) rest

/-- The words of a text. -/
def words (cs : List Char) : List String := wordsFrom [] cs

/-- Whether a text starts with a break. -/
def startsBroken (cs : List Char) : Bool := cs.head?.any isBreak

/-- Whether a text ends with a break. -/
def endsBroken (cs : List Char) : Bool := cs.getLast?.any isBreak

/-- A text that starts with a break does so whatever follows. -/
theorem startsBroken_append {a : List Char} (h : startsBroken a = true) (b : List Char) :
    startsBroken (a ++ b) = true := by
  cases a with
  | nil => exact absurd h (by decide)
  | cons c rest => exact h

/-- A text that ends with a break does so whatever is before it. -/
theorem endsBroken_append {b : List Char} (h : endsBroken b = true) (a : List Char) :
    endsBroken (a ++ b) = true := by
  rcases List.eq_nil_or_concat' b with rfl | ⟨init, c, rfl⟩
  · exact absurd h (by decide)
  · rw [endsBroken, List.getLast?_concat] at h
    rwa [← List.append_assoc, endsBroken, List.getLast?_concat]

/-- A word that has begun ends at a break. -/
theorem wordsFrom_cons_of_isBreak {c : Char} (hc : isBreak c = true) (letters rest : List Char) :
    wordsFrom letters (c :: rest) = gathered letters ++ words (c :: rest) := by
  rw [words, wordsFrom, wordsFrom]
  split_ifs <;> rfl

/-- What follows a break is cut by itself. -/
theorem words_cons_of_isBreak {c : Char} (hc : isBreak c = true) (rest : List Char) :
    words (c :: rest) = words [c] ++ words rest := by
  simp only [words, wordsFrom]
  split_ifs <;> rfl

/-- A text that starts with a break ends the word that has begun before it. -/
theorem wordsFrom_append {a b : List Char} (h : startsBroken b = true) (letters : List Char) :
    wordsFrom letters (a ++ b) = wordsFrom letters a ++ words b := by
  induction a generalizing letters with
  | nil =>
    cases b with
    | nil => exact absurd h (by decide)
    | cons c rest => exact wordsFrom_cons_of_isBreak h letters rest
  | cons c rest ih =>
    rw [List.cons_append, wordsFrom, wordsFrom]
    split_ifs
    · rw [ih, List.append_assoc]
    · rw [ih, List.append_assoc, List.cons_append]
    · exact ih _

/-- A text that starts with a break is cut by itself. -/
theorem words_append_of_startsBroken {a b : List Char} (h : startsBroken b = true) :
    words (a ++ b) = words a ++ words b := wordsFrom_append h []

/-- Texts that meet at a break are cut one by one. -/
theorem words_append {a b : List Char} (h : endsBroken a = true ∨ startsBroken b = true) :
    words (a ++ b) = words a ++ words b := by
  rcases h with hends | hstarts
  · rcases List.eq_nil_or_concat' a with rfl | ⟨init, c, rfl⟩
    · exact absurd hends (by decide)
    · have hc : isBreak c = true := by simpa [endsBroken] using hends
      have hrest : startsBroken (c :: b) = true := hc
      have hlast : startsBroken [c] = true := hc
      calc words (init ++ [c] ++ b) = words (init ++ c :: b) := by
            rw [List.append_assoc, List.singleton_append]
        _ = words init ++ (words [c] ++ words b) := by
            rw [words_append_of_startsBroken hrest, words_cons_of_isBreak hc]
        _ = words (init ++ [c]) ++ words b := by
            rw [words_append_of_startsBroken hlast, List.append_assoc]
  · exact words_append_of_startsBroken hstarts

/-- Letters without a break among them are one word. -/
theorem words_of_forall {cs : List Char} (hne : cs ≠ []) (h : ∀ c ∈ cs, isBreak c = false) :
    words cs = [String.ofList cs] := by
  have hfrom : ∀ letters, wordsFrom letters cs = gathered (letters ++ cs) := by
    clear hne
    induction cs with
    | nil => intro letters; rw [wordsFrom, List.append_nil]
    | cons c rest ih =>
      intro letters
      obtain ⟨hc, hrest⟩ := List.forall_mem_cons.mp h
      have hgap : isGap c = false := by
        simp only [isBreak, Bool.or_eq_false_iff] at hc
        exact hc.1.1
      rw [wordsFrom, if_neg (by simp [hgap]), if_neg (by simp [hc]), ih hrest, List.append_assoc,
        List.singleton_append]
  rw [words, hfrom, List.nil_append, gathered, if_neg (by simpa using hne)]

/-- The words of a text have all its characters but the gaps. -/
theorem flatMap_words (cs : List Char) :
    (words cs).flatMap String.toList = cs.filter fun c => !isGap c := by
  have hgathered : ∀ letters, (gathered letters).flatMap String.toList = letters := by
    intro letters
    cases letters <;> simp [gathered]
  have hfrom : ∀ letters, (wordsFrom letters cs).flatMap String.toList =
      letters ++ cs.filter fun c => !isGap c := by
    induction cs with
    | nil => intro letters; rw [wordsFrom, hgathered, List.filter_nil, List.append_nil]
    | cons c rest ih =>
      intro letters
      rw [wordsFrom]
      split_ifs with hgap hbreak
      · rw [List.flatMap_append, hgathered, ih, List.nil_append,
          List.filter_cons_of_neg (by simp [hgap])]
      · rw [List.flatMap_append, List.flatMap_cons, hgathered, ih, List.nil_append,
          String.toList_ofList, List.singleton_append, List.filter_cons_of_pos (by simp [hgap])]
      · rw [ih, List.filter_cons_of_pos (by simp [hgap]), List.append_assoc, List.singleton_append]
  exact hfrom []

/-! ## Brackets -/

/-- The closing brackets that are waited for after one more character, the next one first. -/
def nest? (waiting : List Char) (c : Char) : Option (List Char) :=
  if c = '(' then some (')' :: waiting)
  else if c = '[' then some (']' :: waiting)
  else if c = ')' ∨ c = ']' then
    match waiting with
    | next :: rest => if next = c then some rest else none
    | [] => none
  else some waiting

/-- Whether the brackets of a text are balanced. -/
def IsBalanced (cs : List Char) : Prop := cs.foldlM nest? [] = some []

instance (cs : List Char) : Decidable (IsBalanced cs) := inferInstanceAs (Decidable (_ = _))

/-- Brackets that are waited for already change nothing before they are reached. -/
theorem nest?_append {waiting next : List Char} {c : Char} (h : nest? waiting c = some next)
    (outer : List Char) : nest? (waiting ++ outer) c = some (next ++ outer) := by
  unfold nest? at h ⊢
  split_ifs at h ⊢
  · exact Option.some.inj h ▸ rfl
  · exact Option.some.inj h ▸ rfl
  · cases waiting with
    | nil => exact absurd h (by simp)
    | cons expected rest =>
      dsimp only [List.cons_append] at h ⊢
      split_ifs at h ⊢
      exact Option.some.inj h ▸ rfl
  · exact Option.some.inj h ▸ rfl

/-- A balanced text leaves what is waited for as it is. -/
theorem IsBalanced.foldlM_nest? {cs : List Char} (h : IsBalanced cs) (waiting : List Char) :
    cs.foldlM nest? waiting = some waiting := by
  have hfrom : ∀ inner last, cs.foldlM nest? inner = some last →
      cs.foldlM nest? (inner ++ waiting) = some (last ++ waiting) := by
    clear h
    induction cs with
    | nil =>
      intro inner last h
      rw [List.foldlM_nil] at h ⊢
      exact Option.some.inj h ▸ rfl
    | cons c rest ih =>
      intro inner last h
      rw [List.foldlM_cons] at h ⊢
      obtain ⟨next, hnext, hrest⟩ := Option.bind_eq_some_iff.mp h
      exact Option.bind_eq_some_iff.mpr ⟨_, nest?_append hnext waiting, ih next last hrest⟩
  exact hfrom [] [] h

namespace IsBalanced

variable {a b cs : List Char}

/-- A balanced text may stand inside of another one. -/
theorem insert (houter : IsBalanced (a ++ b)) (h : IsBalanced cs) : IsBalanced (a ++ (cs ++ b)) := by
  unfold IsBalanced at houter ⊢
  rw [List.foldlM_append] at houter ⊢
  obtain ⟨waiting, ha, hb⟩ := Option.bind_eq_some_iff.mp houter
  refine Option.bind_eq_some_iff.mpr ⟨waiting, ha, ?_⟩
  rw [List.foldlM_append, h.foldlM_nest? waiting]
  exact hb

/-- Balanced texts one after another are balanced. -/
theorem append (ha : IsBalanced a) (hb : IsBalanced b) : IsBalanced (a ++ b) := by
  have hinner : IsBalanced ([] ++ (a ++ b)) := insert hb ha
  exact hinner

/-- Only brackets count. -/
theorem filter_iff {keep : Char → Bool} (hkeep : ∀ c, keep c = false → ∀ waiting,
    nest? waiting c = some waiting) : IsBalanced (cs.filter keep) ↔ IsBalanced cs := by
  have hfrom : ∀ waiting, (cs.filter keep).foldlM nest? waiting = cs.foldlM nest? waiting := by
    induction cs with
    | nil => exact fun _ => rfl
    | cons c rest ih =>
      intro waiting
      by_cases hc : keep c = true
      · rw [List.filter_cons_of_pos hc, List.foldlM_cons, List.foldlM_cons]
        exact congrArg _ (funext ih)
      · rw [List.filter_cons_of_neg hc, List.foldlM_cons, hkeep c (by simpa using hc), ih]
        rfl
  rw [IsBalanced, hfrom, IsBalanced]

/-- A text without brackets is balanced. -/
theorem of_forall (h : ∀ c ∈ cs, ∀ waiting, nest? waiting c = some waiting) : IsBalanced cs := by
  have hfrom : ∀ waiting, cs.foldlM nest? waiting = some waiting := by
    induction cs with
    | nil => exact fun _ => rfl
    | cons c rest ih =>
      intro waiting
      obtain ⟨hc, hrest⟩ := List.forall_mem_cons.mp h
      rw [List.foldlM_cons, hc waiting]
      exact ih hrest waiting
  exact hfrom []

end IsBalanced

/-- Gaps are no brackets. -/
theorem nest?_of_isGap {c : Char} (hc : isGap c = true) (waiting : List Char) :
    nest? waiting c = some waiting := by
  have hcases : c = ' ' ∨ c = ',' := by simpa [isGap] using hc
  rcases hcases with rfl | rfl <;> rfl

/-- A text is balanced when its words are. -/
theorem isBalanced_flatMap_words {cs : List Char} :
    IsBalanced ((words cs).flatMap String.toList) ↔ IsBalanced cs := by
  rw [flatMap_words]
  exact IsBalanced.filter_iff fun c hc waiting => nest?_of_isGap (by simpa using hc) waiting

end DoubleEntry.Text
