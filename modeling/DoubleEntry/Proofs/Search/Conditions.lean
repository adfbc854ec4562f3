import DoubleEntry.Proofs.Answers
import DoubleEntry.Proofs.Search.Meaning

/-!
# When conditions are true

Each form of condition is true on a row exactly when what is found at its path has the type, compares
or contains a value as asked. A condition that is not true may be false or unknown, because missing
values make it unknown; only the test of the characters of a text is negated, and it is asked of texts
alone, where its truth is known.
-/

namespace DoubleEntry.Search

open Number (Binary64)

/-! ## Truth in two values -/

namespace Truth

@[simp] theorem isYes_ofBool (b : Bool) : (ofBool b).isYes = b := by cases b <;> rfl

@[simp] theorem isYes_unknown : unknown.isYes = false := rfl

@[simp] theorem isYes_no : no.isYes = false := rfl

@[simp] theorem isYes_yes : yes.isYes = true := rfl

/-- A conjunction is true when both sides are. -/
@[simp] theorem isYes_and (a b : Truth) : (a.and b).isYes = (a.isYes && b.isYes) := by
  cases a <;> cases b <;> rfl

/-- A disjunction is true when a side is. -/
@[simp] theorem isYes_or (a b : Truth) : (a.or b).isYes = (a.isYes || b.isYes) := by
  cases a <;> cases b <;> rfl

/-- Known truths are joined as usual. -/
@[simp] theorem and_ofBool (a b : Bool) : (ofBool a).and (ofBool b) = ofBool (a && b) := by
  cases a <;> cases b <;> rfl

/-- A known truth has a known opposite. -/
@[simp] theorem not_ofBool (b : Bool) : (ofBool b).not = ofBool (!b) := by cases b <;> rfl

@[simp] theorem isYes_iff {t : Truth} : t.isYes = true ↔ t = yes := by
  cases t <;> simp [isYes]

end Truth

namespace Condition

variable {row : Row} {scans : Scans}

/-- A conjunction is true when all conditions are. -/
theorem isYes_truthOfAll (cs : List Condition) :
    (truthOfAll row scans cs).isYes = cs.all fun c => (c.truth row scans).isYes := by
  induction cs with
  | nil => rfl
  | cons c rest ih => rw [truthOfAll, Truth.isYes_and, List.all_cons, ih]

/-- A disjunction is true when some condition is. -/
theorem isYes_truthOfAny (cs : List Condition) :
    (truthOfAny row scans cs).isYes = cs.any fun c => (c.truth row scans).isYes := by
  induction cs with
  | nil => rfl
  | cons c rest ih => rw [truthOfAny, Truth.isYes_or, List.any_cons, ih]

/-! ## Values found at paths -/

/-- Keys one inside the other are followed one after another. -/
theorem entryAt?_append (before after : List String) (v : Json) :
    entryAt? (before ++ after) v = (entryAt? before v).bind (entryAt? after) := by
  induction before generalizing v with
  | nil => rfl
  | cons key rest ih =>
    cases v with
    | object fields =>
      simp only [List.cons_append, entryAt?, Option.bind_assoc]
      exact congrArg _ (funext ih)
    | _ => rfl

/-- One key further inside lies the value under that key. -/
theorem find?_child (key : String) (path : Path) :
    (path.child key).find? row scans = (path.find? row scans).bind (entryAt? [key]) := by
  cases path with
  | data keys => exact entryAt?_append keys [key] row.data
  | element scan keys =>
    simp only [Path.child, Path.find?, entryAt?_append]
    rw [Option.bind_assoc]

/-- An innermost scan is the element that it stands for. -/
theorem find?_element (scan : Nat) (v : Json) :
    (Path.element scan []).find? row ((scan, v) :: scans) = some v := by
  simp [Path.find?, entryAt?]

variable {path : Path}

theorem isYes_hasType (type : JsonType) :
    ((hasType path type).truth row scans).isYes =
      (path.find? row scans).any fun v => JsonType.of v = type := by
  rw [truth]
  cases path.find? row scans <;> simp

theorem isYes_isNumber :
    ((isNumber path).truth row scans).isYes =
      (path.find? row scans).any fun v => (Entry.number? v).isSome := by
  rw [truth]
  cases path.find? row scans with
  | none => rfl
  | some v =>
    cases v with
    | bool b => cases b <;> rfl
    | _ => rfl

/-- A comparison is true when it holds. -/
theorem isYes_relation (r : Relation) (v : Value) (operand : Operand) :
    ((Comparator.relation r).truth v operand).isYes =
      (Comparator.relation r).holds v operand := by
  simp only [Comparator.truth, Comparator.holds]
  cases v.cmp? operand <;> simp

/-- A value has the relation of equality to an operand when it compares equal. -/
theorem holds_eq (v : Value) (operand : Operand) :
    (Comparator.relation .eq).holds v operand = decide (v.cmp? operand = some .eq) := by
  simp only [Comparator.holds]
  cases v.cmp? operand with
  | none => rfl
  | some o => cases o <;> rfl

/-- The text at a path is compared. -/
theorem isYes_compareText (comparator : Comparator) (words : String) :
    ((all [.hasType path .text, .compare (.extract path) comparator (.text words)]).truth
        row scans).isYes =
      ((path.find? row scans).bind Entry.words?).any fun s =>
        comparator.holds (.text s) (.text words) := by
  rw [truth, isYes_truthOfAll]
  simp only [List.all_cons, List.all_nil, Bool.and_true, isYes_hasType]
  rw [truth, Term.value]
  cases path.find? row scans with
  | none => rfl
  | some v =>
    cases v with
    | text s =>
      cases comparator with
      | relation r => simp [JsonType.of, Value.ofJson, Entry.words?, isYes_relation]
      | like negated =>
        simp [JsonType.of, Value.ofJson, Entry.words?, Comparator.truth, Comparator.holds]
    | bool b => cases b <;> rfl
    | _ => rfl

/-- The number at a path is compared. -/
theorem isYes_equalsNumber (operand : Operand) :
    ((all [.isNumber path, .compare (.extract path) (.relation .eq) operand]).truth
        row scans).isYes =
      (path.find? row scans).any fun entry =>
        (Entry.number? entry).any fun v => v.cmp? operand = some .eq := by
  rw [truth, isYes_truthOfAll]
  simp only [List.all_cons, List.all_nil, Bool.and_true, isYes_isNumber]
  rw [truth, isYes_relation, Term.value]
  cases path.find? row scans with
  | none => rfl
  | some v => cases v <;> simp [Entry.number?, Value.ofJson, holds_eq]

/-! ## Containment -/

/-- The condition for a scalar is true when the entry is that scalar. -/
theorem isYes_scalarEquals {scalar : Json} (hitems : ∀ items, scalar ≠ .array items)
    (hfields : ∀ fields, scalar ≠ .object fields) :
    ((scalarEquals path scalar).truth row scans).isYes =
      (path.find? row scans).any fun entry => Entry.isScalar entry scalar := by
  cases scalar with
  | null =>
    rw [scalarEquals, isYes_hasType]
    simp only [Entry.isScalar_null]
  | bool b =>
    simp only [Entry.isScalar_bool]
    cases b <;> rw [scalarEquals, isYes_hasType] <;> rfl
  | integer n => rw [scalarEquals, isYes_equalsNumber]; rfl
  | real x => rw [scalarEquals, isYes_equalsNumber]; rfl
  | text s =>
    rw [scalarEquals, isYes_compareText]
    cases path.find? row scans with
    | none => rfl
    | some v => cases v <;> simp [Entry.isScalar, Entry.words?, holds_eq, Value.cmp?]
  | array items => exact absurd rfl (hitems items)
  | object fields => exact absurd rfl (hfields fields)

/-- "Some element" is true when the condition is true of some element of an array. -/
theorem isYes_someElement (scan : Nat) (condition : Condition) :
    ((someElement scan path condition).truth row scans).isYes =
      (path.find? row scans).any
        (Entry.anyElement fun v => (condition.truth row ((scan, v) :: scans)).isYes) := by
  rw [truth]
  cases path.find? row scans with
  | none => rfl
  | some v => cases v <;> simp [Entry.anyElement]

mutual

/-- The condition for containment is true when the value is contained in what is at the path. -/
theorem isYes_containing (v : Json) (path : Path) (n : Nat) (scans : Scans) :
    ((containing path n v).1.truth row scans).isYes =
      (path.find? row scans).any fun entry => Entry.contains entry v := by
  cases v with
  | object fields =>
    rw [containing, truth, isYes_truthOfAll, List.all_cons, isYes_hasType]
    cases hfound : path.find? row scans with
    | none => rfl
    | some entry =>
      cases entry with
      | object found =>
        rw [isYes_containingFields fields n hfound]
        simp [JsonType.of, Entry.contains]
      | bool b => cases b <;> simp [JsonType.of, Entry.contains]
      | _ => simp [JsonType.of, Entry.contains]
  | array items =>
    rw [containing, truth, isYes_truthOfAll, List.all_cons, isYes_hasType]
    cases hfound : path.find? row scans with
    | none => rfl
    | some entry =>
      cases entry with
      | array found =>
        rw [isYes_containingItems items n hfound]
        simp [JsonType.of, Entry.contains]
      | bool b => cases b <;> simp [JsonType.of, Entry.contains]
      | _ => simp [JsonType.of, Entry.contains]
  | null | bool | integer | real | text =>
    rw [containing, isYes_scalarEquals] <;> simp [Entry.contains]

/-- The conditions for items are all true when every item is contained in some element. -/
theorem isYes_containingItems (items : List Json) (n : Nat) {path : Path} {scans : Scans}
    {found : List Json} (hfound : path.find? row scans = some (.array found)) :
    ((containingItems path n items).1.all fun c => (c.truth row scans).isYes) =
      Entry.containsItems found items := by
  cases items with
  | nil => rfl
  | cons v rest =>
    rw [containingItems, List.all_cons, isYes_someElement, hfound,
      isYes_containingItems rest _ hfound, Entry.containsItems]
    simp only [Entry.anyElement, isYes_containing v, find?_element, Option.any_some]

/-- The conditions for fields are all true when every field is contained in the entry under its
key. -/
theorem isYes_containingFields (fields : List (String × Json)) (n : Nat) {path : Path}
    {scans : Scans} {found : Json.Fields} (hfound : path.find? row scans = some (.object found)) :
    ((containingFields path n fields).1.all fun c => (c.truth row scans).isYes) =
      Entry.containsFields found fields := by
  cases fields with
  | nil => rfl
  | cons field rest =>
    obtain ⟨key, v⟩ := field
    rw [containingFields, List.all_cons, isYes_containing v, find?_child, hfound,
      isYes_containingFields rest _ hfound, Entry.containsFields]
    simp [entryAt?]

end

/-- The conditions for a scalar alone and in an array are together true when the entry is that scalar
or an array that holds it. -/
theorem isYes_scalarTop {scalar : Json} (hitems : ∀ items, scalar ≠ .array items)
    (hfields : ∀ fields, scalar ≠ .object fields) (scan : Nat) :
    ((any [scalarEquals path scalar, all [.hasType path .array,
        .someElement scan path (scalarEquals (.element scan []) scalar)]]).truth row scans).isYes =
      (path.find? row scans).any fun entry => Entry.isScalar entry scalar ||
        Entry.anyElement (fun element => Entry.isScalar element scalar) entry := by
  have hscalar : ∀ path scans, ((scalarEquals path scalar).truth row scans).isYes =
      (path.find? row scans).any fun entry => Entry.isScalar entry scalar :=
    fun _ _ => isYes_scalarEquals hitems hfields
  have harray : ((all [.hasType path .array,
      .someElement scan path (scalarEquals (.element scan []) scalar)]).truth row scans).isYes =
      (path.find? row scans).any
        (Entry.anyElement fun element => Entry.isScalar element scalar) := by
    rw [truth, isYes_truthOfAll]
    simp only [List.all_cons, List.all_nil, Bool.and_true, isYes_hasType, isYes_someElement,
      hscalar, find?_element, Option.any_some]
    cases path.find? row scans with
    | none => rfl
    | some entry =>
      cases entry with
      | bool b => cases b <;> rfl
      | _ => simp [JsonType.of, Entry.anyElement]
  rw [truth, isYes_truthOfAny]
  simp only [List.any_cons, List.any_nil, Bool.or_false, hscalar, harray]
  cases path.find? row scans <;> rfl

/-- The condition for containment in the entry under a key is true when the value is contained in
it. -/
theorem isYes_entryContaining (key : String) (n : Nat) (value : Json) :
    ((entryContaining key n value).1.truth row scans).isYes =
      (row.entry? key).any fun entry => Entry.containsTop entry value := by
  have hentry : (Path.data [key]).find? row scans = row.entry? key := rfl
  cases value with
  | object fields => rw [entryContaining, isYes_containing, hentry]; rfl
  | array items => rw [entryContaining, isYes_containing, hentry]; rfl
  | null | bool | integer | real | text =>
    rw [entryContaining, isYes_scalarTop, hentry] <;> simp [Entry.containsTop]

/-- An entry is absent or null, or its opposite. -/
theorem isYes_isNull (negated : Bool) :
    ((isNull path negated).truth row scans).isYes =
      (((path.find? row scans).all fun entry => Entry.isScalar entry .null) != negated) := by
  have hvalue : (Term.extract path).value row scans = .null ↔
      ((path.find? row scans).all fun entry => Entry.isScalar entry .null) = true := by
    rw [Term.value]
    simp only [Entry.isScalar_null]
    cases path.find? row scans with
    | none => simp [Value.ofJson]
    | some v =>
      cases v with
      | bool b => cases b <;> simp [Value.ofJson, JsonType.of]
      | _ => simp [Value.ofJson, JsonType.of]
  rw [truth, Truth.isYes_ofBool]
  simp only [hvalue, Bool.decide_eq_true]

/-! ## Texts that spell numbers -/

/-- The tests for the characters of a text find out whether it is an unsigned decimal. -/
theorem looksDecimal_eq_isDecimal (cs : List Char) : looksDecimal cs = isDecimal cs := by
  have hother : (!Glob.someOther.admits cs) = cs.all fun c => c.isDigit || c == '.' := by
    simp only [Glob.admits, List.not_any_eq_all_not, Bool.not_and, Bool.not_not, bne]
  have hdots : (!Glob.twoDots.admits cs) = decide (cs.count '.' ≤ 1) := by
    rw [Glob.admits, ← decide_not, decide_eq_decide]
    omega
  rw [looksDecimal, hother, hdots]
  rfl

/-- What is left of a text up to its first NUL has none. -/
theorem untilNul_ofList_untilNul (s : String) :
    untilNul (String.ofList (untilNul s)) = untilNul s := by
  rw [untilNul, String.toList_ofList]
  exact List.takeWhile_idem

/-- A text passes the tests for its characters when it is an unsigned decimal. -/
theorem truth_decimalText {s : String} (hfound : path.find? row scans = some (.text s)) :
    (decimalText path).truth row scans = .ofBool (isDecimal (untilNul s)) := by
  have hglob : ∀ test negated, (glob path negated test).truth row scans =
      .ofBool (test.admits (untilNul s) != negated) := by
    intro test negated
    rw [truth, Term.value, hfound]
    change Truth.ofBool (test.admits (untilNul (String.ofList (untilNul s))) != negated) = _
    rw [untilNul_ofList_untilNul]
  have hyes : Truth.yes = .ofBool true := rfl
  rw [← looksDecimal_eq_isDecimal, decimalText, truth]
  simp only [truthOfAll, hglob, hyes, Truth.and_ofBool]
  simp [looksDecimal, Bool.and_assoc]

/-- A number found at a path is compared as a double. -/
theorem toDouble_of_double? {v : Json} {x : Binary64} (h : Entry.double? v = some x) :
    (Value.ofJson v).toDouble = .real x := by
  cases v with
  | integer n =>
    obtain rfl := Option.some.inj h
    rfl
  | real y =>
    obtain rfl := Option.some.inj h
    rfl
  | text s =>
    simp only [Entry.double?, Option.ite_none_right_eq_some, Option.some.injEq] at h
    obtain ⟨hdecimal, rfl⟩ := h
    simp only [Value.ofJson, Value.toDouble, untilNul_ofList_untilNul, looksDecimal_eq_isDecimal,
      if_pos hdecimal]
  | null | bool | array | object => simp [Entry.double?] at h

/-- An entry is like a number when it is one or spells one. -/
theorem isYes_numberLike :
    ((numberLike path).truth row scans).isYes =
      ((path.find? row scans).bind Entry.double?).isSome := by
  rw [numberLike, truth, isYes_truthOfAny]
  simp only [List.any_cons, List.any_nil, Bool.or_false, isYes_isNumber]
  rw [truth, isYes_truthOfAll]
  simp only [List.all_cons, List.all_nil, Bool.and_true, isYes_hasType]
  cases hfound : path.find? row scans with
  | none => rfl
  | some v =>
    cases v with
    | text s =>
      rw [truth_decimalText hfound]
      cases hdecimal : isDecimal (untilNul s) <;>
        simp [JsonType.of, Entry.number?, Entry.double?, hdecimal]
    | bool b => cases b <;> simp [JsonType.of, Entry.number?, Entry.double?]
    | _ => simp [JsonType.of, Entry.number?, Entry.double?]

/-- The comparison of a number is true when the entry is or spells a number that compares so. -/
theorem isYes_compareNumber (r : Relation) (number : Operand) :
    ((all [numberLike path, .compare (.double path) (.relation r) number]).truth
        row scans).isYes =
      ((path.find? row scans).bind Entry.double?).any fun x =>
        (Comparator.relation r).holds (.real x) number := by
  rw [truth, isYes_truthOfAll]
  simp only [List.all_cons, List.all_nil, Bool.and_true, isYes_numberLike]
  rw [truth, isYes_relation, Term.value]
  cases path.find? row scans with
  | none => rfl
  | some v =>
    cases hdouble : Entry.double? v with
    | none => simp [hdouble]
    | some x => simp [hdouble, toDouble_of_double? hdouble]

/-- The comparison of other text is true when the entry is text that spells no number and compares
so. -/
theorem isYes_compareOtherText (r : Relation) (words : String) :
    ((all [.hasType path .text, .not (decimalText path),
        .compare (.extract path) (.relation r) (.text words)]).truth row scans).isYes =
      (((path.find? row scans).bind Entry.double?).isNone &&
        ((path.find? row scans).bind Entry.words?).any fun s =>
          (Comparator.relation r).holds (.text s) (.text words)) := by
  rw [truth, isYes_truthOfAll]
  simp only [List.all_cons, List.all_nil, Bool.and_true, isYes_hasType]
  rw [truth, truth, isYes_relation, Term.value]
  cases hfound : path.find? row scans with
  | none => rfl
  | some v =>
    cases v with
    | text s =>
      rw [truth_decimalText hfound]
      cases hdecimal : isDecimal (untilNul s) <;>
        simp [JsonType.of, Entry.double?, Entry.words?, Value.ofJson, hdecimal]
    | bool b => cases b <;> simp [JsonType.of, Entry.words?]
    | _ => simp [JsonType.of, Entry.words?]

end Condition

end DoubleEntry.Search
