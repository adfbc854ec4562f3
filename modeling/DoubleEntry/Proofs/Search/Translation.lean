import DoubleEntry.Proofs.Search.Conditions
import DoubleEntry.Search.Stored
import DoubleEntry.Store.Basic

/-!
# Predicates as conditions

The condition that is written for a planned predicate is true on a row exactly when the predicate
holds of the row, whatever scans were opened before it. So the three truth values of conditions, the
types that they test and the nesting of their scans add nothing to what predicates say, and take
nothing away.
-/

namespace DoubleEntry.Search

/-! ## Planned predicates -/

namespace Predicate

/-- A predicate that a field, a term or a range of a query is turned into. -/
inductive IsPlanned : Predicate → Prop where
  | field {column : Column} {op : String} {operand : Json} {p : Predicate}
      (h : ofField column op operand = .ok p) : IsPlanned p
  | term {key : String} {value : Json} {p : Predicate} (h : ofTerm key value = .ok p) : IsPlanned p
  | range {key op : String} {operand : Json} {p : Predicate}
      (h : ofRange key op operand = .ok p) : IsPlanned p

/-- A predicate that matches no column with a pattern but columns of texts. -/
inductive MatchesTexts : Predicate → Prop where
  | relation (column : Column) (r : Relation) (operand : Operand) :
      MatchesTexts (.column column (.relation r) operand)
  | like {column : Column} (hcolumn : column ≠ .balance) (negated : Bool) (pattern : String) :
      MatchesTexts (.column column (.like negated) (.text pattern))
  | contains (key : String) (value : Json) : MatchesTexts (.contains key value)
  | numeric (key : String) (r : Relation) (number : Operand) : MatchesTexts (.numeric key r number)
  | numericOrText (key : String) (r : Relation) (number : Operand) (words : String) :
      MatchesTexts (.numericOrText key r number words)
  | text (key : String) (comparator : Comparator) (words : String) :
      MatchesTexts (.text key comparator words)
  | bool (key : String) (expected : Bool) : MatchesTexts (.bool key expected)
  | null (key : String) (negated : Bool) : MatchesTexts (.null key negated)
  | anyOf {predicates : List Predicate} (h : ∀ p ∈ predicates, MatchesTexts p) :
      MatchesTexts (.anyOf predicates)
  | allOf {predicates : List Predicate} (h : ∀ p ∈ predicates, MatchesTexts p) :
      MatchesTexts (.allOf predicates)

/-- What holds of each member of a list, and of a junction of predicates of which it holds, holds of
the predicate of the list. -/
theorem of_ofMembers {P : Predicate → Prop}
    (hany : ∀ predicates, (∀ p ∈ predicates, P p) → P (.anyOf predicates))
    (hall : ∀ predicates, (∀ p ∈ predicates, P p) → P (.allOf predicates)) {negated : Bool}
    {each : Relation → Json → Except QueryFault Predicate} {elements : List Json} {p : Predicate}
    (heach : ∀ r element p, each r element = .ok p → P p)
    (h : ofMembers negated each elements = .ok p) : P p := by
  unfold ofMembers at h
  cases negated with
  | true =>
    obtain ⟨predicates, hpredicates, rfl⟩ := map_eq_ok_iff.mp h
    refine hall _ fun p hp => ?_
    obtain ⟨element, -, helement⟩ := exists_mem_of_forall₂ (mapM_eq_ok_iff.mp hpredicates) hp
    exact heach _ _ _ helement
  | false =>
    obtain ⟨predicates, hpredicates, rfl⟩ := map_eq_ok_iff.mp h
    refine hany _ fun p hp => ?_
    obtain ⟨element, -, helement⟩ := exists_mem_of_forall₂ (mapM_eq_ok_iff.mp hpredicates) hp
    exact heach _ _ _ helement

/-- Patterns are refused for the balance. -/
theorem matchesTexts_ofColumn {column : Column} {comparator : Comparator} {op : String}
    {operand : Json} {p : Predicate} (h : ofColumn column comparator op operand = .ok p) :
    MatchesTexts p := by
  cases comparator with
  | relation r =>
    have hcolumn : ∃ value, p = .column column (.relation r) value := by
      unfold ofColumn at h
      repeat' split at h
      all_goals cases h
      all_goals exact ⟨_, rfl⟩
    obtain ⟨value, rfl⟩ := hcolumn
    exact .relation column r value
  | like negated =>
    cases column <;> cases operand <;>
      simp only [ofColumn, Except.ok.injEq, reduceCtorEq] at h
    all_goals
      subst h
      exact .like (by simp) negated _

/-- An entry is compared with texts as texts. -/
theorem matchesTexts_ofEntry {key : String} {comparator : Comparator} {op : String}
    {operand : Json} {p : Predicate} (h : ofEntry key comparator op operand = .ok p) :
    MatchesTexts p := by
  unfold ofEntry at h
  repeat' split at h
  all_goals cases h
  all_goals constructor

/-- Planned predicates match only texts with patterns. -/
theorem IsPlanned.matchesTexts {p : Predicate} (h : p.IsPlanned) : MatchesTexts p := by
  cases h with
  | field h =>
    obtain ⟨op, -, h⟩ := bind_eq_ok_iff.mp h
    cases op with
    | compare comparator => exact matchesTexts_ofColumn h
    | member negated =>
      obtain ⟨elements, -, h⟩ := bind_eq_ok_iff.mp h
      exact of_ofMembers (fun _ => .anyOf) (fun _ => .allOf)
        (fun r element p => matchesTexts_ofColumn) h
    | null negated => exact absurd h (by simp)
  | term h =>
    obtain ⟨-, -, h⟩ := bind_eq_ok_iff.mp h
    obtain ⟨-, -, h⟩ := bind_eq_ok_iff.mp h
    obtain rfl := Except.ok.inj h
    exact .contains _ _
  | range h =>
    obtain ⟨op, -, h⟩ := bind_eq_ok_iff.mp h
    cases op with
    | compare comparator => exact matchesTexts_ofEntry h
    | member negated =>
      obtain ⟨elements, -, h⟩ := bind_eq_ok_iff.mp h
      exact of_ofMembers (fun _ => .anyOf) (fun _ => .allOf)
        (fun r element p => matchesTexts_ofEntry) h
    | null negated =>
      dsimp only at h
      split at h
      · obtain rfl := Except.ok.inj h
        exact .null _ _
      · exact absurd h (by simp)

end Predicate

/-- A row whose columns other than the balance are texts where they are there at all. -/
def Row.HasTexts (row : Row) : Prop :=
  ∀ c, c ≠ .balance → row.column c = .null ∨ ∃ s, row.column c = .text s

/-- Lists with the same truths are true throughout together. -/
theorem all_eq_of_map_eq {α β : Type} {xs : List α} {ys : List β} {f : α → Bool} {g : β → Bool}
    (h : xs.map f = ys.map g) : xs.all f = ys.all g := by
  simpa [List.all_map] using congrArg (List.all · id) h

/-- Lists with the same truths are true somewhere together. -/
theorem any_eq_of_map_eq {α β : Type} {xs : List α} {ys : List β} {f : α → Bool} {g : β → Bool}
    (h : xs.map f = ys.map g) : xs.any f = ys.any g := by
  simpa [List.any_map] using congrArg (List.any · id) h

namespace Predicate

variable {row : Row}

mutual

/-- The condition of a predicate is true when the predicate holds, whatever scans were opened
before. -/
theorem isYes_condition (hrow : row.HasTexts) (p : Predicate) (hp : p.MatchesTexts) (n : Nat)
    (scans : Scans) : ((p.condition n).1.truth row scans).isYes = p.holds row := by
  cases p with
  | column c comparator operand =>
    rw [condition, Condition.truth, Term.value, holds]
    cases hp with
    | relation _ r _ => exact Condition.isYes_relation r _ _
    | like hcolumn negated pattern =>
      obtain hnull | ⟨s, hs⟩ := hrow c hcolumn
      · rw [hnull]
        rfl
      · rw [hs]
        exact Truth.isYes_ofBool _
  | contains key value => exact Condition.isYes_entryContaining key n value
  | numeric key r number => exact Condition.isYes_compareNumber r number
  | numericOrText key r number words =>
    rw [condition, Condition.truth, Condition.isYes_truthOfAny, holds]
    simp only [List.any_cons, List.any_nil, Bool.or_false, Condition.isYes_compareNumber,
      Condition.isYes_compareOtherText]
    have hentry : (Path.data [key]).find? row scans = row.entry? key := rfl
    rw [hentry]
    cases (row.entry? key).bind Entry.double? <;> simp
  | text key comparator words => exact Condition.isYes_compareText comparator words
  | bool key expected =>
    rw [condition, Condition.isYes_hasType, holds]
    simp only [Entry.isScalar_bool]
    rfl
  | null key negated => exact Condition.isYes_isNull negated
  | anyOf predicates =>
    cases hp with
    | anyOf h =>
      have hany := any_eq_of_map_eq (map_isYes_conditions hrow predicates h n scans)
      rw [holds, anyHolds_eq_any]
      cases predicates with
      | nil => rfl
      | cons p rest =>
        rw [condition, Condition.truth, Condition.isYes_truthOfAny]
        · exact hany
        · exact List.cons_ne_nil p rest
  | allOf predicates =>
    cases hp with
    | allOf h =>
      have hall := all_eq_of_map_eq (map_isYes_conditions hrow predicates h n scans)
      rw [holds, allHold_eq_all]
      cases predicates with
      | nil => rfl
      | cons p rest =>
        rw [condition, Condition.truth, Condition.isYes_truthOfAll]
        · exact hall
        · exact List.cons_ne_nil p rest

/-- The conditions of predicates are true one by one when the predicates hold. -/
theorem map_isYes_conditions (hrow : row.HasTexts) (ps : List Predicate)
    (hps : ∀ p ∈ ps, p.MatchesTexts) (n : Nat) (scans : Scans) :
    (conditions n ps).1.map (fun c => (c.truth row scans).isYes) = ps.map (holds row) := by
  cases ps with
  | nil => rfl
  | cons p rest =>
    rw [conditions, List.map_cons, List.map_cons, isYes_condition hrow p (hps p List.mem_cons_self),
      map_isYes_conditions hrow rest fun q hq => hps q (List.mem_cons_of_mem _ hq)]

end

/-- The condition of a planned predicate is true on a row exactly when the predicate holds of it. -/
theorem condition_true_iff_holds {p : Predicate} (hp : p.IsPlanned) (hrow : row.HasTexts)
    (n : Nat) : (p.condition n).1.truth row [] = .yes ↔ p.holds row = true := by
  rw [← Truth.isYes_iff, isYes_condition hrow p hp.matchesTexts n []]

/-- A row with a list of tags, one of them an object. -/
def tagged : Row :=
  ⟨fun _ => .null, .object [("tags", .array [.text "red", .object [("kind", .integer 5)]])]⟩

/-- The condition that asks for both tags in another order is true. -/
theorem condition_true_tagged :
    IsPlanned (.contains "tags" (.array [.object [("kind", .integer 5)], .text "red"])) ∧
      tagged.HasTexts ∧
      ((contains "tags" (.array [.object [("kind", .integer 5)], .text "red"])).condition
        0).1.truth tagged [] = .yes := by
  have hterm : ofTerm "tags" (.array [.object [("kind", .integer 5)], .text "red"]) = .ok _ := rfl
  have hrow : tagged.HasTexts := fun _ _ => .inl rfl
  exact ⟨.term hterm, hrow, (condition_true_iff_holds (.term hterm) hrow 0).mpr (by decide +kernel)⟩

/-- The truth of the condition of a predicate on stored data. -/
def truthOn (data : Data) (p : Predicate) : Option Truth :=
  (storedValue? (some data.stored)).map fun v => (p.condition 0).1.truth ⟨fun _ => .null, v⟩ []

/-- Two integers beyond a signed word are taken for one another, and a text with a NUL is not found
by itself. -/
theorem truthOn_inexact_scalars :
    (contains "n" (.integer 18446744073709551615)).truthOn
        [("n", .integer 18446744073709551614)] = some .yes ∧
      (contains "n" (.text "a\x00b")).truthOn [("n", .text "a\x00b")] = some .no := by
  decide +kernel

end Predicate

end DoubleEntry.Search
