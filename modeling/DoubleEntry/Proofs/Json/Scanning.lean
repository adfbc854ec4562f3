import Mathlib
import DoubleEntry.Json.Token
import DoubleEntry.Json.Writer

/-!
# Scanning what was written

The compact text of a JSON value is cut into the tokens of that value and nothing else. Whatever
characters a text holds, none of them ends it early, and a number or literal ends only where the
next piece of punctuation starts.
-/

namespace DoubleEntry.Json

open Token (endsWord scanFrom)

/-- The letters of a value that is written as a word. -/
def realLetters (x : Number.Binary64) : List Char :=
  if x.isInfinite then ['n', 'u', 'l', 'l'] else (numberLayout.render x).toList

mutual

/-- The tokens of a value. -/
def tokens : Json → List Token
  | .null => [.word ['n', 'u', 'l', 'l']]
  | .bool true => [.word ['t', 'r', 'u', 'e']]
  | .bool false => [.word ['f', 'a', 'l', 's', 'e']]
  | .integer n => [.word (integerText n)]
  | .real x => [.word (realLetters x)]
  | .text s => [.text s]
  | .array items => .openArray :: (itemTokens items ++ [.closeArray])
  | .object fields => .openObject :: (fieldTokens fields ++ [.closeObject])

/-- The tokens of items separated by commas. -/
def itemTokens : List Json → List Token
  | [] => []
  | [v] => tokens v
  | v :: rest => tokens v ++ .comma :: itemTokens rest

/-- The tokens of fields separated by commas. -/
def fieldTokens : List (String × Json) → List Token
  | [] => []
  | [(k, v)] => .text k :: .colon :: tokens v
  | (k, v) :: rest => .text k :: .colon :: (tokens v ++ .comma :: fieldTokens rest)

end

/-! ## Words -/

/-- Whether a text may stand as one word. -/
def IsWord (cs : List Char) : Prop := cs ≠ [] ∧ ∀ c ∈ cs, endsWord c = false

/-- Whether a word ends in front of a text. -/
def EndsWord (rest : List Char) : Prop := ∀ c ∈ rest.head?, endsWord c = true

/-- That letters belong to words can be computed. -/
theorem endsWord_of_any {letters : List Char} (h : letters.any endsWord = false) :
    ∀ c ∈ letters, endsWord c = false := by
  intro c hc
  simpa using List.any_eq_false.mp h c hc

/-- Digits belong to words. -/
theorem endsWord_of_isDigit {c : Char} (h : c.isDigit = true) : endsWord c = false := by
  have hn : 48 ≤ c.toNat ∧ c.toNat ≤ 57 := by
    simpa [Char.isDigit, UInt32.le_iff_toNat_le] using h
  have hne : ∀ d : Char, d.toNat < 48 ∨ 57 < d.toNat → c ≠ d := by
    rintro d hd rfl
    omega
  simp [endsWord, Token.isSpace, Token.punctuation?, hne ' ' (by decide), hne '\t' (by decide),
    hne '\n' (by decide), hne '\r' (by decide), hne '"' (by decide), hne '\x7b' (by decide),
    hne '\x7d' (by decide), hne '[' (by decide), hne ']' (by decide), hne ':' (by decide),
    hne ',' (by decide)]

/-- The digits of a number belong to words. -/
theorem endsWord_of_mem_toDigits {n : Nat} {c : Char} (h : c ∈ Nat.toDigits 10 n) :
    endsWord c = false :=
  endsWord_of_isDigit (Nat.isDigit_of_mem_toDigits (by decide) (by decide) h)

/-- An integer is one word. -/
theorem isWord_integerText (n : Int) : IsWord (integerText n) := by
  unfold integerText
  split
  · refine ⟨List.cons_ne_nil _ _, fun c hc => ?_⟩
    rcases List.mem_cons.mp hc with rfl | hc
    · decide
    · exact endsWord_of_mem_toDigits hc
  · exact ⟨Nat.toDigits_ne_nil, fun c hc => endsWord_of_mem_toDigits hc⟩

/-- An integer has one text. -/
theorem toList_toString (n : Int) : (toString n).toList = integerText n := by
  rw [Int.toString_eq_repr, Int.repr_eq_if, integerText]
  by_cases hneg : n < 0
  · have habs : (-n).toNat = n.natAbs := by omega
    rw [if_neg (by omega), if_pos hneg, String.toList_append, Nat.toList_repr, habs]
    rfl
  · have habs : n.toNat = n.natAbs := by omega
    rw [if_pos (by omega), if_neg hneg, Nat.toList_repr, habs]

/-- The text of an integer belongs to words. -/
theorem endsWord_of_mem_toString {n : Int} {c : Char} (h : c ∈ (toString n).toList) :
    endsWord c = false :=
  (isWord_integerText n).2 c (toList_toString n ▸ h)

/-- Words are made of pieces of words. -/
theorem IsWord.append {left right : List Char} (hleft : IsWord left)
    (hright : ∀ c ∈ right, endsWord c = false) : IsWord (left ++ right) := by
  refine ⟨by simp [hleft.1], fun c hc => ?_⟩
  rcases List.mem_append.mp hc with hc | hc
  · exact hleft.2 c hc
  · exact hright c hc

/-- Letters of words may stand in front of a word. -/
theorem IsWord.prepend {left right : List Char} (hright : IsWord right)
    (hleft : ∀ c ∈ left, endsWord c = false) : IsWord (left ++ right) := by
  refine ⟨by simp [hright.1], fun c hc => ?_⟩
  rcases List.mem_append.mp hc with hc | hc
  · exact hleft c hc
  · exact hright.2 c hc

/-- A point behind the first of several digits keeps them one word. -/
theorem isWord_mantissa {digits : List Char} (h : IsWord digits) :
    IsWord (Number.Layout.mantissa digits) := by
  unfold Number.Layout.mantissa
  split
  · refine ⟨List.cons_ne_nil _ _, fun c hc => ?_⟩
    rcases List.mem_cons.mp hc with rfl | hc
    · exact h.2 _ List.mem_cons_self
    · rcases List.mem_cons.mp hc with rfl | hc
      · decide
      · exact h.2 c (List.mem_cons_of_mem _ hc)
  · exact h

/-- A double in the layout of numbers is made of letters of words. -/
theorem isWord_renderPositive (c : Nat) (k : Int) :
    IsWord (numberLayout.renderPositive c k).toList := by
  have hdigits : ∀ d ∈ Nat.toDigits 10 c, endsWord d = false := fun d hd =>
    endsWord_of_mem_toDigits hd
  have hzero : ∀ (n : Nat), ∀ d ∈ List.replicate n '0', endsWord d = false := by
    intro n d hd
    rw [List.eq_of_mem_replicate hd]
    decide
  simp only [Number.Layout.renderPositive]
  split_ifs
  · -- Digits, zeros and the mark of a whole number.
    rw [String.toList_append, String.toList_ofList]
    refine (IsWord.append ⟨Nat.toDigits_ne_nil, hdigits⟩ (hzero _)).append ?_
    exact endsWord_of_any rfl
  · -- Digits with a point among them.
    rw [String.toList_ofList]
    refine ⟨by simp, fun e he => ?_⟩
    rcases List.mem_append.mp he with he | he
    · exact hdigits e (List.mem_of_mem_take he)
    · rcases List.mem_cons.mp he with rfl | he
      · decide
      · exact hdigits e (List.mem_of_mem_drop he)
  · -- Zeros and a point in front of the digits.
    rw [String.toList_ofList]
    have hfront : IsWord ['0', '.'] := ⟨by simp, endsWord_of_any rfl⟩
    exact (hfront.append (hzero _)).append hdigits
  · -- Digits and an exponent.
    have hmantissa : IsWord (Number.Layout.mantissa (Nat.toDigits 10 c)) :=
      isWord_mantissa ⟨Nat.toDigits_ne_nil, hdigits⟩
    simp only [String.toList_append, String.toList_ofList]
    exact (hmantissa.append (endsWord_of_any rfl)).append fun e he => endsWord_of_mem_toString he

/-- A finite double in the layout of numbers is one word. -/
theorem isWord_render_finite (negative : Bool) (d : Number.Dyadic) :
    IsWord (numberLayout.render (.finite negative d)).toList := by
  have hsign : ∀ c ∈ (if negative then "-" else "").toList, endsWord c = false := by
    cases negative
    · exact endsWord_of_any rfl
    · exact endsWord_of_any rfl
  have hzero : IsWord ("0" ++ numberLayout.wholeMark).toList := ⟨by decide, endsWord_of_any rfl⟩
  simp only [Number.Layout.render, Number.Binary64.isNegative]
  split
  · rw [String.append_assoc, String.toList_append]
    exact hzero.prepend hsign
  · rw [String.toList_append]
    exact (isWord_renderPositive _ _).prepend hsign

/-- A double is one word. -/
theorem isWord_realLetters (x : Number.Binary64) : IsWord (realLetters x) := by
  cases x with
  | infinite negative => exact ⟨List.cons_ne_nil _ _, endsWord_of_any rfl⟩
  | finite negative d => exact isWord_render_finite negative d

/-! ## The scanner -/

namespace Token

/-- A letter of a word starts that word. -/
theorem Scan.start_of_endsWord_eq_false {c : Char} (h : endsWord c = false) :
    Scan.start c = ([], .inWord [c]) := by
  simp only [endsWord, Bool.or_eq_false_iff, beq_eq_false_iff_ne] at h
  obtain ⟨⟨hspace, hquote⟩, hpunctuation⟩ := h
  have hnone : punctuation? c = none := by simpa using hpunctuation
  rw [Scan.start, hspace, if_neg (by decide), if_neg hquote, hnone]

/-- What a letter that ends nothing adds is scanned after it. -/
theorem scanFrom_cons_of_eq {scan next : Scan} {c : Char} {out : List Token}
    (h : scan.step? c = some (out, next)) (rest : List Char) :
    scanFrom scan (c :: rest) = (scanFrom next rest).map (out ++ ·) := by
  rw [scanFrom, h]
  cases hrest : scanFrom next rest with
  | none => simp [hrest]
  | some more => simp [hrest]

/-- A word that was begun ends where its letters end. -/
theorem scanFrom_inWord {letters rest : List Char} (before : List Char)
    (hletters : ∀ c ∈ letters, endsWord c = false) (hrest : EndsWord rest) :
    scanFrom (.inWord before) (letters ++ rest) =
      (scanFrom .between rest).map (word (before.reverse ++ letters) :: ·) := by
  induction letters generalizing before with
  | nil =>
    cases rest with
    | nil => simp [scanFrom, Scan.finish?]
    | cons c rest =>
      have hc : endsWord c = true := hrest c (by simp)
      have hstep : (Scan.inWord before).step? c =
          some (word before.reverse :: (Scan.start c).1, (Scan.start c).2) := by
        simp [Scan.step?, hc]
      rw [List.nil_append, List.append_nil, scanFrom_cons_of_eq hstep,
        scanFrom_cons_of_eq (rfl : Scan.between.step? c = some (Scan.start c)), Option.map_map]
      rfl
  | cons c letters ih =>
    have hc : endsWord c = false := hletters c (by simp)
    have hstep : (Scan.inWord before).step? c = some ([], .inWord (c :: before)) := by
      simp [Scan.step?, hc]
    rw [List.cons_append, scanFrom_cons_of_eq hstep,
      ih (c :: before) (fun d hd => hletters d (by simp [hd])), Option.map_map]
    congr 1
    funext more
    simp

/-- A word is one token. -/
theorem scanFrom_word {letters rest : List Char} (hword : IsWord letters) (hrest : EndsWord rest) :
    scanFrom .between (letters ++ rest) =
      (scanFrom .between rest).map (word letters :: ·) := by
  obtain ⟨c, more, rfl⟩ := List.exists_cons_of_ne_nil hword.1
  have hstep : Scan.between.step? c = some ([], .inWord [c]) :=
    congrArg some (Scan.start_of_endsWord_eq_false (hword.2 c (by simp)))
  rw [List.cons_append, scanFrom_cons_of_eq hstep,
    scanFrom_inWord [c] (fun d hd => hword.2 d (by simp [hd])) hrest, Option.map_map]
  rfl

/-- A hexadecimal digit has the value that it was written for. -/
theorem hexValue?_hexDigit : ∀ d < 16, hexValue? (hexDigit d) = some d := by decide

/-- A control character is scanned from its number. -/
theorem scanFrom_control (before : List Char) {c : Char} (hc : c.toNat < 0x20) (rest : List Char) :
    scanFrom (.codeUnit before 4 0)
        ('0' :: '0' :: hexDigit (c.toNat / 16) :: hexDigit (c.toNat % 16) :: rest) =
      scanFrom (.inText (c :: before)) rest := by
  have hzero : ∀ missing, (Scan.codeUnit before (missing + 2) 0).step? '0' =
      some ([], .codeUnit before (missing + 1) 0) := by
    intro missing
    simp [Scan.step?, hexValue?]
  have hhigh : (Scan.codeUnit before 2 0).step? (hexDigit (c.toNat / 16)) =
      some ([], .codeUnit before 1 (c.toNat / 16)) := by
    simp [Scan.step?, hexValue?_hexDigit _ (by omega : c.toNat / 16 < 16)]
  have hunit : c.toNat / 16 * 16 + c.toNat % 16 = c.toNat := by omega
  have hlow : (Scan.codeUnit before 1 (c.toNat / 16)).step? (hexDigit (c.toNat % 16)) =
      some ([], .inText (c :: before)) := by
    have hhalves : isHighSurrogate c.toNat = false ∧ isLowSurrogate c.toNat = false := by
      simp only [isHighSurrogate, isLowSurrogate, decide_eq_false_iff_not]
      omega
    simp [Scan.step?, hexValue?_hexDigit _ (by omega : c.toNat % 16 < 16), hunit, Scan.afterUnit?,
      hhalves]
  rw [scanFrom_cons_of_eq (hzero 2), scanFrom_cons_of_eq (hzero 1), scanFrom_cons_of_eq hhigh,
    scanFrom_cons_of_eq hlow]
  simp only [List.nil_append, Option.map_id_fun', id]

/-- A character inside a text is scanned as itself, escaped or not. -/
theorem scanFrom_escapedChar (before : List Char) (c : Char) (rest : List Char) :
    scanFrom (.inText before) (escapedChar c ++ rest) = scanFrom (.inText (c :: before)) rest := by
  have hescape : ∀ {e d : Char}, e ≠ 'u' → escaped? e = some d →
      scanFrom (.inText before) ('\\' :: e :: rest) = scanFrom (.inText (d :: before)) rest := by
    intro e d he hd
    have hback : (Scan.inText before).step? '\\' = some ([], .escape before) := by
      simp [Scan.step?]
    have hletter : (Scan.escape before).step? e = some ([], .inText (d :: before)) := by
      simp [Scan.step?, he, hd]
    rw [scanFrom_cons_of_eq hback, scanFrom_cons_of_eq hletter]
    simp only [List.nil_append, Option.map_id_fun', id]
  unfold escapedChar
  split_ifs with hquote hslash hb hf hn hr ht hcontrol
  · rw [hquote]; exact hescape (by decide) (by decide)
  · rw [hslash]; exact hescape (by decide) (by decide)
  · rw [hb]; exact hescape (by decide) (by decide)
  · rw [hf]; exact hescape (by decide) (by decide)
  · rw [hn]; exact hescape (by decide) (by decide)
  · rw [hr]; exact hescape (by decide) (by decide)
  · rw [ht]; exact hescape (by decide) (by decide)
  · have hback : (Scan.inText before).step? '\\' = some ([], .escape before) := by
      simp [Scan.step?]
    have hunit : (Scan.escape before).step? 'u' = some ([], .codeUnit before 4 0) := by
      simp [Scan.step?]
    have hcontrol := scanFrom_control before hcontrol rest
    simp only [List.cons_append, List.nil_append, scanFrom_cons_of_eq hback,
      scanFrom_cons_of_eq hunit, hcontrol, Option.map_id_fun', id]
  · have hstep : (Scan.inText before).step? c = some ([], .inText (c :: before)) := by
      simp [Scan.step?, hquote, hslash, hcontrol]
    rw [List.singleton_append, scanFrom_cons_of_eq hstep]
    simp

/-- The characters of a text are scanned up to its closing quote. -/
theorem scanFrom_inText (before : List Char) (cs rest : List Char) :
    scanFrom (.inText before) (cs.flatMap escapedChar ++ '"' :: rest) =
      (scanFrom .between rest).map (text (String.ofList (before.reverse ++ cs)) :: ·) := by
  induction cs generalizing before with
  | nil =>
    have hstep : (Scan.inText before).step? '"' =
        some ([text (String.ofList before.reverse)], .between) := by
      simp [Scan.step?]
    rw [List.flatMap_nil, List.nil_append, scanFrom_cons_of_eq hstep, List.append_nil]
    rfl
  | cons c cs ih =>
    rw [List.flatMap_cons, List.append_assoc, scanFrom_escapedChar, ih]
    simp

/-- A text between quotes is one token. -/
theorem scanFrom_textLiteral (s : String) (rest : List Char) :
    scanFrom .between (textLiteral s ++ rest) = (scanFrom .between rest).map (text s :: ·) := by
  have hstep : Scan.between.step? '"' = some ([], .inText []) := rfl
  rw [textLiteral, List.cons_append, List.append_assoc, List.singleton_append,
    scanFrom_cons_of_eq hstep, scanFrom_inText]
  simp [Function.comp_def]

/-- A piece of punctuation is one token. -/
theorem scanFrom_punctuation {c : Char} {t : Token} (h : Scan.start c = ([t], .between))
    (rest : List Char) :
    scanFrom .between (c :: rest) = (scanFrom .between rest).map (t :: ·) := by
  have hstep : Scan.between.step? c = some ([t], .between) := congrArg some h
  exact scanFrom_cons_of_eq hstep rest

end Token

/-! ## Values -/

open Token

/-- Nothing follows a word that ends a text. -/
theorem endsWord_nil : EndsWord [] := by simp [EndsWord]

/-- Punctuation ends a word. -/
theorem endsWord_cons {c : Char} (h : endsWord c = true) (rest : List Char) :
    EndsWord (c :: rest) := by
  simpa [EndsWord] using h

mutual

/-- The text of a value is scanned as the tokens of the value. -/
theorem scanFrom_letters (v : Json) {rest : List Char} (hrest : EndsWord rest) :
    scanFrom .between (letters v ++ rest) = (scanFrom .between rest).map (tokens v ++ ·) := by
  cases v with
  | null =>
    have hword : IsWord ['n', 'u', 'l', 'l'] := ⟨by simp, endsWord_of_any rfl⟩
    exact scanFrom_word hword hrest
  | bool b =>
    have htrue : IsWord ['t', 'r', 'u', 'e'] := ⟨by simp, endsWord_of_any rfl⟩
    have hfalse : IsWord ['f', 'a', 'l', 's', 'e'] := ⟨by simp, endsWord_of_any rfl⟩
    cases b
    · exact scanFrom_word hfalse hrest
    · exact scanFrom_word htrue hrest
  | integer n => exact scanFrom_word (isWord_integerText n) hrest
  | real x => exact scanFrom_word (isWord_realLetters x) hrest
  | text s => exact scanFrom_textLiteral s rest
  | array items =>
    have hclose := scanFrom_punctuation (rfl : Scan.start ']' = ([closeArray], .between)) rest
    have hitems := scanFrom_itemLetters items (endsWord_cons (by decide : endsWord ']' = true) rest)
    rw [letters, List.cons_append, List.append_assoc, List.singleton_append,
      scanFrom_punctuation (rfl : Scan.start '[' = ([openArray], .between)), hitems, hclose]
    simp [tokens, Function.comp_def]
  | object fields =>
    have hclose := scanFrom_punctuation
      (rfl : Scan.start '\x7d' = ([closeObject], .between)) rest
    have hfields := scanFrom_fieldLetters fields
      (endsWord_cons (by decide : endsWord '\x7d' = true) rest)
    rw [letters, List.cons_append, List.append_assoc, List.singleton_append,
      scanFrom_punctuation (rfl : Scan.start '\x7b' = ([openObject], .between)), hfields,
      hclose]
    simp [tokens, Function.comp_def]

/-- Items are scanned one after another. -/
theorem scanFrom_itemLetters (items : List Json) {rest : List Char} (hrest : EndsWord rest) :
    scanFrom .between (itemLetters items ++ rest) =
      (scanFrom .between rest).map (itemTokens items ++ ·) := by
  match items with
  | [] => simp [itemLetters, itemTokens]
  | [v] => exact scanFrom_letters v hrest
  | v :: w :: more =>
    have hcomma := endsWord_cons (by decide : endsWord ',' = true) (itemLetters (w :: more) ++ rest)
    rw [itemLetters, List.append_assoc, List.cons_append, scanFrom_letters v hcomma,
      scanFrom_punctuation (rfl : Scan.start ',' = ([comma], .between)),
      scanFrom_itemLetters (w :: more) hrest]
    · simp [itemTokens, Function.comp_def]
    · exact List.cons_ne_nil w more

/-- Fields are scanned one after another. -/
theorem scanFrom_fieldLetters (fields : List (String × Json)) {rest : List Char}
    (hrest : EndsWord rest) :
    scanFrom .between (fieldLetters fields ++ rest) =
      (scanFrom .between rest).map (fieldTokens fields ++ ·) := by
  match fields with
  | [] => simp [fieldLetters, fieldTokens]
  | [(k, v)] =>
    rw [fieldLetters, List.append_assoc, List.cons_append, scanFrom_textLiteral,
      scanFrom_punctuation (rfl : Scan.start ':' = ([colon], .between)),
      scanFrom_letters v hrest]
    simp [fieldTokens, Function.comp_def]
  | (k, v) :: field :: more =>
    have hcomma := endsWord_cons (by decide : endsWord ',' = true)
      (fieldLetters (field :: more) ++ rest)
    rw [fieldLetters, List.append_assoc, List.cons_append, scanFrom_textLiteral,
      scanFrom_punctuation (rfl : Scan.start ':' = ([colon], .between)), List.append_assoc,
      List.cons_append, scanFrom_letters v hcomma,
      scanFrom_punctuation (rfl : Scan.start ',' = ([comma], .between)),
      scanFrom_fieldLetters (field :: more) hrest]
    · simp [fieldTokens, Function.comp_def]
    · exact List.cons_ne_nil field more

end

/-- The compact text of a value has the tokens of that value. -/
theorem scan?_letters (v : Json) : scan? v.letters = some v.tokens := by
  have h := scanFrom_letters v endsWord_nil
  rw [List.append_nil] at h
  rw [scan?, h]
  simp [scanFrom, Scan.finish?]

end DoubleEntry.Json
