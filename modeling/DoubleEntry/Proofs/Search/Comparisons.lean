import DoubleEntry.Proofs.Search.Verdicts

/-!
# Comparisons as an order

The six relations of the query language say of a row what the relations of a linear order say of two
places. The value of a column has its place in every row. An entry of the data has one only beside
an operand that it can be compared with: an entry that is a number, or text that spells one,
compares as a number, and text otherwise as text. So of being less, equal and greater a column
always has one, an entry at most one, and the other relations follow.
-/

namespace DoubleEntry.Search

open Constraint

/-! ## Relations and their names -/

/-- The name of a relation in the query language. -/
def Relation.name : Relation → String
  | eq => "eq"
  | ne => "ne"
  | gt => "gt"
  | gte => "gte"
  | lt => "lt"
  | lte => "lte"

variable {space : Namespace} {row : Row} {name key : String} {v : Json}

namespace Predicate

/-- The operator with the name of a relation compares by it. -/
theorem ofName_name (r : Relation) : Operator.ofName r.name = .ok (.compare (.relation r)) := by
  cases r <;> rfl

/-- A column is compared by the relation that is named. -/
theorem ofField_name (column : Column) (r : Relation) (v : Json) :
    ofField column r.name v = ofColumn column (.relation r) r.name v := by
  rw [ofField, ofName_name]
  rfl

/-- An entry is compared by the relation that is named. -/
theorem ofRange_name (key : String) (r : Relation) (v : Json) :
    ofRange key r.name v = ofEntry key (.relation r) r.name v := by
  rw [ofRange, ofName_name]
  rfl

end Predicate

/-- A relation is accepted on a column for what it takes. -/
theorem accepted_field_relation_iff (r : Relation) : (field name r.name v).Accepted space ↔
    ∃ column, Column.Named space name column ∧ column.Takes v := by
  rw [accepted_field_iff]
  refine exists_congr fun column => and_congr_right fun _ => ?_
  rw [← Predicate.exists_ofField_iff, Predicate.ofField_name,
    Predicate.exists_ofColumn_relation_iff]

/-- A relation is accepted on an entry for what it can be compared with by it. -/
theorem accepted_range_relation_iff (r : Relation) : (range key r.name v).Accepted space ↔
    DataKey.Matches key ∧ ∃ p, Predicate.ofEntry key (.relation r) r.name v = .ok p := by
  rw [accepted_range_iff, ← Predicate.ofRange_name]
  exact and_congr_right fun _ => Predicate.exists_ofRange_iff.symm

/-- All relations are accepted on an entry for numbers and texts. -/
theorem forall_accepted_range_iff :
    (∀ r : Relation, (range key r.name v).Accepted space) ↔
      DataKey.Matches key ∧ (IsNumber v ∨ ∃ s, v = .text s) := by
  simp only [accepted_range_relation_iff]
  constructor
  · intro h
    obtain ⟨hkey, hless⟩ := h .lt
    exact ⟨hkey, (Predicate.exists_ofEntry_order_iff (by simp) (by simp)).mp hless⟩
  · rintro ⟨hkey, hv⟩ r
    refine ⟨hkey, ?_⟩
    by_cases hr : r = .eq ∨ r = .ne
    · refine (Predicate.exists_ofEntry_equality_iff hr).mpr ?_
      obtain hnumber | ⟨s, rfl⟩ := hv
      · exact .number hnumber
      · exact .text s
    · obtain ⟨heq, hne⟩ := not_or.mp hr
      exact (Predicate.exists_ofEntry_order_iff heq hne).mpr hv

/-! ## Coherence -/

/-- Six relations that tell an order between two things if they are comparable, and nothing else. -/
structure Relation.Coherent (matched : Relation → Prop) (comparable : Prop) : Prop where
  not_lt_eq : ¬ (matched .lt ∧ matched .eq)
  not_lt_gt : ¬ (matched .lt ∧ matched .gt)
  not_eq_gt : ¬ (matched .eq ∧ matched .gt)
  lt_eq_gt : matched .lt ∨ matched .eq ∨ matched .gt ↔ comparable
  gte : matched .gte ↔ matched .gt ∨ matched .eq
  lte : matched .lte ↔ matched .lt ∨ matched .eq
  ne : matched .ne ↔ matched .lt ∨ matched .gt
  none : ¬ comparable → ∀ r, ¬ matched r

/-- Relations that are those between two places, or never hold, are coherent. -/
theorem Relation.coherent {matched : Relation → Prop} {comparable : Prop}
    (hsome : comparable → ∃ a b : Place, ∀ r, matched r ↔ Holds r a b)
    (hnone : ¬ comparable → ∀ r, ¬ matched r) : Coherent matched comparable := by
  by_cases h : comparable
  · obtain ⟨a, b, hmatched⟩ := hsome h
    have htotal := lt_trichotomy a b
    constructor
    case lt_eq_gt => simpa [hmatched, Holds, h] using htotal
    all_goals simp only [hmatched, Holds]
    case not_lt_eq =>
      rintro ⟨hless, hsame⟩
      exact hless.ne hsame
    case not_lt_gt =>
      rintro ⟨hless, hgreater⟩
      exact hless.asymm hgreater
    case not_eq_gt =>
      rintro ⟨hsame, hgreater⟩
      exact hgreater.ne' hsame
    case gte => rw [ge_iff_le, gt_iff_lt, le_iff_lt_or_eq, eq_comm]
    case lte => exact le_iff_lt_or_eq
    case ne => exact ne_iff_lt_or_gt
    case none => exact absurd h
  · have hmatched := hnone h
    constructor <;> simp [hmatched, h]

/-! ## Columns -/

/-- The value that a column is compared with for an operand. -/
inductive Column.Reads : Column → Json → Operand → Prop where
  | balance {v : Json} {number : Operand} (h : Operand.ofNumber? v = some number) :
      Reads .balance v number
  | id (s : String) : Reads .id (.text s) (.text s)
  | timestamp (s : String) : Reads .timestamp (.text s) (.text (Predicate.canonicalTime s))

/-- A column that takes an operand reads it. -/
theorem Column.Takes.exists_reads {column : Column} (h : column.Takes v) :
    ∃ operand, column.Reads v operand := by
  cases h with
  | balance h =>
    obtain ⟨number, hnumber⟩ := Predicate.exists_ofNumber?_iff.mpr h
    exact ⟨number, .balance hnumber⟩
  | id s => exact ⟨_, .id s⟩
  | timestamp s => exact ⟨_, .timestamp s⟩

/-- A column is compared with what it reads. -/
theorem Column.Reads.ofColumn_eq {column : Column} {operand : Operand}
    (h : column.Reads v operand) (r : Relation) (op : String) :
    Predicate.ofColumn column (.relation r) op v = .ok (.column column (.relation r) operand) := by
  cases h with
  | balance h =>
    dsimp only [Predicate.ofColumn]
    rw [h]
  | id s => rfl
  | timestamp s => rfl

/-- A row matches a relation on a column when it holds between the places of the column and of the
operand. -/
theorem matches_field_relation_iff (hrow : row.HasTexts) {column : Column} {operand : Operand}
    (hname : Column.Named space name column) (hreads : column.Reads v operand) (r : Relation) :
    (field name r.name v).Matches space row ↔
      ∃ a, (row.column column).place? = some a ∧ r.Holds a operand.place := by
  rw [matches_field_iff hrow hname, Predicate.ofField_name, hreads.ofColumn_eq,
    ← Comparator.holds_relation_iff]
  simp [Predicate.holds]

/-! ## Entries -/

namespace Entry

/-- An entry that compares as a number: a number, or text that is an unsigned decimal up to its
first NUL. -/
inductive IsNumeric : Json → Prop where
  | integer (n : Int) : IsNumeric (.integer n)
  | real (x : Number.Binary64) : IsNumeric (.real x)
  | text {s : String} (h : isDecimal (untilNul s) = true) : IsNumeric (.text s)

/-- An operand that is text and looks like a number: an unsigned decimal, perhaps behind a minus. -/
def LooksNumeric (s : String) : Prop :=
  isDecimal s.toList = true ∨ ∃ digits, s.toList = '-' :: digits ∧ isDecimal digits = true

/-- An entry that can be compared with an operand. -/
inductive IsComparable : Json → Json → Prop where
  | number {entry v : Json} (hentry : IsNumeric entry) (hv : IsNumber v) : IsComparable entry v
  | decimal {entry : Json} {s : String} (hentry : IsNumeric entry) (hs : LooksNumeric s) :
      IsComparable entry (.text s)
  | text (words s : String) : IsComparable (.text words) (.text s)

/-- The places between which an entry is compared with an operand. -/
inductive Compared : Json → Json → Place → Place → Prop where
  | number {entry v : Json} {x : Number.Binary64} {number : Operand}
      (hentry : double? entry = some x) (hv : Operand.ofNumber? v = some number) :
      Compared entry v (.number x.value) number.place
  | decimal {entry : Json} {s : String} {x : Number.Binary64} {number : Operand}
      (hentry : double? entry = some x) (hs : Operand.ofDecimal? s = some number) :
      Compared entry (.text s) (.number x.value) number.place
  | text {entry : Json} {s words : String} (hentry : words? entry = some words)
      (hother : double? entry = none ∨ Operand.ofDecimal? s = none) :
      Compared entry (.text s) (.text words) (.text s)

/-- An entry that compares as a number has a double. -/
theorem exists_double?_iff {entry : Json} : (∃ x, double? entry = some x) ↔ IsNumeric entry := by
  constructor
  · rintro ⟨x, h⟩
    cases entry with
    | integer n => exact .integer n
    | real y => exact .real y
    | text s =>
      rw [double?] at h
      split_ifs at h with hdecimal
      exact .text hdecimal
    | null | bool | array | object => simp [double?] at h
  · rintro (n | y | h)
    · exact ⟨_, rfl⟩
    · exact ⟨_, rfl⟩
    · exact ⟨_, if_pos h⟩

/-- Nothing that starts with a minus is an unsigned decimal. -/
theorem isDecimal_minus (cs : List Char) : isDecimal ('-' :: cs) = false := by
  simp [isDecimal]

/-- Text that looks like a number is read as one. -/
theorem exists_ofDecimal?_iff {s : String} :
    (∃ number, Operand.ofDecimal? s = some number) ↔ LooksNumeric s := by
  unfold Operand.ofDecimal?
  split
  next negative digits hsplit =>
  have hdecimal : LooksNumeric s ↔ isDecimal digits = true := by
    rw [LooksNumeric]
    split at hsplit
    next rest hs =>
      obtain ⟨-, rfl⟩ := Prod.mk.inj hsplit
      simp [hs, isDecimal_minus]
    next hs =>
      obtain ⟨-, rfl⟩ := Prod.mk.inj hsplit
      exact or_iff_left fun ⟨rest, hrest, _⟩ => hs rest hrest
  rw [hdecimal]
  by_cases h : isDecimal digits = true
  · rw [if_pos h]
    dsimp only
    split_ifs <;> simp [h]
  · rw [if_neg h]
    simp [h]

/-- An entry can be compared with an operand when there are places between which it is. -/
theorem exists_compared_iff {entry : Json} :
    (∃ a b, Compared entry v a b) ↔ IsComparable entry v := by
  constructor
  · rintro ⟨a, b, h⟩
    cases h with
    | number hentry hv =>
      exact .number (exists_double?_iff.mp ⟨_, hentry⟩) (Predicate.exists_ofNumber?_iff.mp ⟨_, hv⟩)
    | decimal hentry hs =>
      exact .decimal (exists_double?_iff.mp ⟨_, hentry⟩) (exists_ofDecimal?_iff.mp ⟨_, hs⟩)
    | text hentry hother =>
      cases entry with
      | text words => exact .text words _
      | _ => simp [words?] at hentry
  · intro h
    cases h with
    | number hentry hv =>
      obtain ⟨x, hx⟩ := exists_double?_iff.mpr hentry
      obtain ⟨number, hnumber⟩ := Predicate.exists_ofNumber?_iff.mpr hv
      exact ⟨_, _, .number hx hnumber⟩
    | decimal hentry hs =>
      obtain ⟨x, hx⟩ := exists_double?_iff.mpr hentry
      obtain ⟨number, hnumber⟩ := exists_ofDecimal?_iff.mpr hs
      exact ⟨_, _, .decimal hx hnumber⟩
    | text words s =>
      cases hx : double? (.text words) with
      | none => exact ⟨_, _, .text rfl (.inl hx)⟩
      | some x =>
        cases hnumber : Operand.ofDecimal? s with
        | none => exact ⟨_, _, .text rfl (.inr hnumber)⟩
        | some number => exact ⟨_, _, .decimal hx hnumber⟩

/-- An entry is compared with an operand in one way. -/
theorem Compared.unique {entry : Json} {a b a' b' : Place} (h : Compared entry v a b)
    (h' : Compared entry v a' b') : a = a' ∧ b = b' := by
  cases h <;> cases h' <;> simp_all [Operand.ofNumber?]

end Entry

/-- An entry is compared with a number as a double. -/
theorem Predicate.holds_numeric_iff {r : Relation} {number : Operand} :
    (numeric key r number).holds row = true ↔ ∃ entry x, row.entry? key = some entry ∧
      Entry.double? entry = some x ∧ r.Holds (.number x.value) number.place := by
  rw [holds, Option.any_eq_true]
  simp only [Option.bind_eq_some_iff, Comparator.holds_relation_iff, Value.place?,
    Option.some.injEq, exists_eq_left']
  constructor
  · rintro ⟨x, ⟨entry, hentry, hx⟩, h⟩
    exact ⟨entry, x, hentry, hx, h⟩
  · rintro ⟨entry, x, hentry, hx, h⟩
    exact ⟨x, ⟨entry, hentry, hx⟩, h⟩

/-- An entry is compared with other text as text. -/
theorem Predicate.holds_text_iff {r : Relation} {s : String} :
    (text key (.relation r) s).holds row = true ↔ ∃ entry words, row.entry? key = some entry ∧
      Entry.words? entry = some words ∧ r.Holds (.text words) (Place.text s) := by
  rw [holds, Option.any_eq_true]
  simp only [Option.bind_eq_some_iff, Comparator.holds_relation_iff, Value.place?,
    Option.some.injEq, exists_eq_left', Operand.place]
  constructor
  · rintro ⟨words, ⟨entry, hentry, hwords⟩, h⟩
    exact ⟨entry, words, hentry, hwords, h⟩
  · rintro ⟨entry, words, hentry, hwords, h⟩
    exact ⟨words, ⟨entry, hentry, hwords⟩, h⟩

/-- An entry is compared with text that looks like a number as a double if it has one, and otherwise
as text. -/
theorem Predicate.holds_numericOrText_iff {r : Relation} {number : Operand} {s : String} :
    (numericOrText key r number s).holds row = true ↔ (numeric key r number).holds row = true ∨
      (∃ entry, row.entry? key = some entry ∧ Entry.double? entry = none) ∧
        (text key (.relation r) s).holds row = true := by
  simp only [holds]
  cases hentry : row.entry? key with
  | none => simp
  | some entry => cases hx : Entry.double? entry <;> simp [hx]

namespace Predicate

variable {r : Relation} {op s : String} {number : Operand}

/-- An entry is asked for a number. -/
theorem ofEntry_of_ofNumber? (h : Operand.ofNumber? v = some number) :
    ofEntry key (.relation r) op v = .ok (.numeric key r number) := by
  cases v with
  | integer | real =>
    obtain rfl := Option.some.inj h
    cases r <;> rfl
  | _ => simp [Operand.ofNumber?] at h

/-- A number is compared with an entry between the places of both. -/
theorem holds_numeric_iff_compared (hv : Operand.ofNumber? v = some number) :
    (numeric key r number).holds row = true ↔
      ∃ entry a b, row.entry? key = some entry ∧ Entry.Compared entry v a b ∧ r.Holds a b := by
  rw [holds_numeric_iff]
  constructor
  · rintro ⟨entry, x, hentry, hx, h⟩
    exact ⟨entry, _, _, hentry, .number hx hv, h⟩
  · rintro ⟨entry, a, b, hentry, hcompared, h⟩
    cases hcompared with
    | number hx hnumber =>
      obtain rfl := Option.some.inj (hnumber.symm.trans hv)
      exact ⟨entry, _, hentry, hx, h⟩
    | decimal | text => exact absurd hv (by simp [Operand.ofNumber?])

/-- Text that looks like a number is compared with an entry between the places of both. -/
theorem holds_numericOrText_iff_compared (hs : Operand.ofDecimal? s = some number) :
    (numericOrText key r number s).holds row = true ↔
      ∃ entry a b, row.entry? key = some entry ∧ Entry.Compared entry (.text s) a b ∧
        r.Holds a b := by
  rw [holds_numericOrText_iff, holds_numeric_iff, holds_text_iff]
  constructor
  · rintro (⟨entry, x, hentry, hx, h⟩ | ⟨⟨entry, hentry, hx⟩, found, words, hfound, hwords, h⟩)
    · exact ⟨entry, _, _, hentry, .decimal hx hs, h⟩
    · obtain rfl := Option.some.inj (hentry.symm.trans hfound)
      exact ⟨entry, _, _, hentry, .text hwords (.inl hx), h⟩
  · rintro ⟨entry, a, b, hentry, hcompared, h⟩
    cases hcompared with
    | number hx hv => exact absurd hv (by simp [Operand.ofNumber?])
    | decimal hx hnumber =>
      obtain rfl := Option.some.inj (hnumber.symm.trans hs)
      exact .inl ⟨entry, _, hentry, hx, h⟩
    | text hwords hother =>
      have hx := hother.resolve_right (by simp [hs])
      exact .inr ⟨⟨entry, hentry, hx⟩, entry, _, hentry, hwords, h⟩

/-- Other text is compared with an entry between the places of both. -/
theorem holds_text_iff_compared (hs : Operand.ofDecimal? s = none) :
    (text key (.relation r) s).holds row = true ↔
      ∃ entry a b, row.entry? key = some entry ∧ Entry.Compared entry (.text s) a b ∧
        r.Holds a b := by
  rw [holds_text_iff]
  constructor
  · rintro ⟨entry, words, hentry, hwords, h⟩
    exact ⟨entry, _, _, hentry, .text hwords (.inr hs), h⟩
  · rintro ⟨entry, a, b, hentry, hcompared, h⟩
    cases hcompared with
    | number hx hv => exact absurd hv (by simp [Operand.ofNumber?])
    | decimal hx hnumber => exact absurd hnumber (by simp [hs])
    | text hwords hother => exact ⟨entry, _, hentry, hwords, h⟩

end Predicate

/-- A row matches a relation on an entry when it holds between the places between which the entry is
compared with the operand. -/
theorem matches_range_relation_iff (hrow : row.HasTexts) (hkey : DataKey.Matches key)
    (hv : IsNumber v ∨ ∃ s, v = .text s) (r : Relation) :
    (range key r.name v).Matches space row ↔
      ∃ entry a b, row.entry? key = some entry ∧ Entry.Compared entry v a b ∧ r.Holds a b := by
  have hmatches : ∀ p, Predicate.ofEntry key (.relation r) r.name v = .ok p →
      ((range key r.name v).Matches space row ↔ p.holds row = true) := by
    intro p hp
    rw [matches_range_iff hrow hkey, Predicate.ofRange_name, hp]
    simp
  obtain hnumber | ⟨s, rfl⟩ := hv
  · obtain ⟨number, hnumber⟩ := Predicate.exists_ofNumber?_iff.mpr hnumber
    rw [hmatches _ (Predicate.ofEntry_of_ofNumber? hnumber)]
    exact Predicate.holds_numeric_iff_compared hnumber
  · cases hs : Operand.ofDecimal? s with
    | some number =>
      rw [hmatches (.numericOrText key r number s) (by simp only [Predicate.ofEntry, hs])]
      exact Predicate.holds_numericOrText_iff_compared hs
    | none =>
      rw [hmatches (.text key (.relation r) s) (by simp only [Predicate.ofEntry, hs])]
      exact Predicate.holds_text_iff_compared hs

/-! ## The order -/

/-- The six relations are accepted on a column for what it takes and on an entry for numbers and
texts, and what they say of a row is a coherent order. A column is always comparable; an entry is
when it is a number, or text that is an unsigned decimal up to its first NUL, beside an operand that
is a number or text that looks like one, and when both are texts. Numbers are compared exactly, and
texts by code points. -/
theorem comparisons_coherent (hrow : row.IsOf space) :
    (∀ name v, ((∀ r : Relation, (field name r.name v).Accepted space) ↔
      ∃ column, Column.Named space name column ∧ column.Takes v)) ∧
    (∀ name v, (∀ r : Relation, (field name r.name v).Accepted space) →
      Relation.Coherent (fun r => (field name r.name v).Matches space row) True ∧
      ∃ column operand a, Column.Named space name column ∧ column.Reads v operand ∧
        (row.column column).place? = some a ∧
          ∀ r : Relation, (field name r.name v).Matches space row ↔ r.Holds a operand.place) ∧
    (∀ key v, (∀ r : Relation, (range key r.name v).Accepted space) ↔
      DataKey.Matches key ∧ (IsNumber v ∨ ∃ s, v = .text s)) ∧
    (∀ key v, (∀ r : Relation, (range key r.name v).Accepted space) →
      Relation.Coherent (fun r => (range key r.name v).Matches space row)
        (∃ entry, row.entry? key = some entry ∧ Entry.IsComparable entry v) ∧
      ∀ r : Relation, (range key r.name v).Matches space row ↔
        ∃ entry a b, row.entry? key = some entry ∧ Entry.Compared entry v a b ∧ r.Holds a b) := by
  refine ⟨?accepted, ?columns, fun _ _ => forall_accepted_range_iff, ?entries⟩
  case accepted =>
    intro name v
    exact ⟨fun h => (accepted_field_relation_iff .eq).mp (h .eq),
      fun h r => (accepted_field_relation_iff r).mpr h⟩
  case columns =>
    intro name v h
    obtain ⟨column, hname, htakes⟩ := (accepted_field_relation_iff .eq).mp (h .eq)
    obtain ⟨operand, hreads⟩ := htakes.exists_reads
    obtain ⟨a, ha⟩ := hrow.exists_place hname
    have hmatches : ∀ r : Relation,
        (field name r.name v).Matches space row ↔ r.Holds a operand.place := by
      intro r
      rw [matches_field_relation_iff hrow.hasTexts hname hreads, ha]
      simp
    exact ⟨Relation.coherent (fun _ => ⟨a, operand.place, hmatches⟩) fun h => absurd trivial h,
      column, operand, a, hname, hreads, ha, hmatches⟩
  case entries =>
    intro key v h
    obtain ⟨hkey, hv⟩ := forall_accepted_range_iff.mp h
    have hmatches : ∀ r : Relation, (range key r.name v).Matches space row ↔ _ :=
      matches_range_relation_iff hrow.hasTexts hkey hv
    refine ⟨Relation.coherent ?_ ?_, hmatches⟩
    · rintro ⟨entry, hentry, hcomparable⟩
      obtain ⟨a, b, hcompared⟩ := Entry.exists_compared_iff.mpr hcomparable
      refine ⟨a, b, fun r => (hmatches r).trans ?_⟩
      constructor
      · rintro ⟨found, a', b', hfound, hcompared', hholds⟩
        obtain rfl := Option.some.inj (hentry.symm.trans hfound)
        obtain ⟨rfl, rfl⟩ := hcompared.unique hcompared'
        exact hholds
      · exact fun hholds => ⟨entry, a, b, hentry, hcompared, hholds⟩
    · intro hnone r hr
      obtain ⟨entry, a, b, hentry, hcompared, -⟩ := (hmatches r).mp hr
      exact hnone ⟨entry, hentry, Entry.exists_compared_iff.mp ⟨a, b, hcompared⟩⟩

/-- An account with an entry that is text and one that is a number. -/
def labelled : Row :=
  ⟨accountColumn ⟨"a", Data.stored []⟩ (some 0),
    .object [("kind", .text "cash"), ("size", .integer 3)]⟩

/-- The text comes behind one operand and therefore not before it, and the number is not comparable
with this operand. -/
theorem comparisons_coherent_labelled :
    labelled.IsOf .accounts ∧
      (∀ r : Relation, (range "kind" r.name (.text "bank")).Accepted .accounts) ∧
      (range "kind" "gt" (.text "bank")).Matches .accounts labelled ∧
      ¬ (range "kind" "lt" (.text "bank")).Matches .accounts labelled ∧
      ∀ r : Relation, ¬ (range "size" r.name (.text "bank")).Matches .accounts labelled := by
  have hrow : labelled.IsOf .accounts := .account _ _ _
  have haccepted : ∀ key, DataKey.Matches key →
      ∀ r : Relation, (range key r.name (.text "bank")).Accepted .accounts :=
    fun key hkey => forall_accepted_range_iff.mpr ⟨hkey, .inr ⟨_, rfl⟩⟩
  have hkind := haccepted "kind" ((DataKey.isValid_iff _).mp rfl)
  obtain ⟨-, -, -, hentries⟩ := comparisons_coherent hrow
  obtain ⟨hcoherent, hmatches⟩ := hentries "kind" (.text "bank") hkind
  have hgreater : (range "kind" "gt" (.text "bank")).Matches .accounts labelled :=
    (hmatches .gt).mpr ⟨.text "cash", _, _, rfl, .text rfl (.inr (by decide)),
      Place.strictMono_text (by decide)⟩
  refine ⟨hrow, hkind, hgreater, fun hless => hcoherent.not_lt_gt ⟨hless, hgreater⟩, ?_⟩
  have hsize := haccepted "size" ((DataKey.isValid_iff _).mp rfl)
  refine (hentries "size" (.text "bank") hsize).1.none ?_
  rintro ⟨entry, hentry, hcomparable⟩
  obtain rfl : Json.integer 3 = entry := Option.some.inj hentry
  cases hcomparable with
  | number _ hv => cases hv
  | decimal _ hs =>
    have hnone : Operand.ofDecimal? "bank" = none := by decide
    simpa [hnone] using Entry.exists_ofDecimal?_iff.mpr hs

/-- Text that is no unsigned decimal is compared as a number when it is one up to its first NUL. -/
theorem truthOn_text_beyond_nul :
    Predicate.ofRange "k" "eq" (.integer 5) = .ok (.numeric "k" .eq (.integer 5)) ∧
      isDecimal "5\x00x".toList = false ∧
      (Predicate.numeric "k" .eq (.integer 5)).truthOn [("k", .text "5\x00x")] = some .yes := by
  exact ⟨rfl, by decide, by decide +kernel⟩

end DoubleEntry.Search
