import DoubleEntry.Proofs.Search.Language
import DoubleEntry.Proofs.Search.Order
import DoubleEntry.Proofs.Search.Structure

/-!
# Verdicts of constraints

A row matches a constraint when the constraint is accepted and the row meets the conditions of the
query that has no other. On readable tables these are the rows that a search for the constraint
returns. For each kind of constraint this is said by what is compared with what.
-/

namespace DoubleEntry.Search

variable {space : Namespace} {row : Row} {name key op : String} {v : Json}

/-! ## Rows of a collection -/

/-- A row of a collection with its columns: an account has an id and a balance, and a transaction
has an id and a timestamp. -/
inductive Row.IsOf : Namespace → Row → Prop where
  | account (row : AccountRow) (balance : Amount) (data : Json) :
      IsOf .accounts ⟨accountColumn row (some balance), data⟩
  | transaction (header : Header) (data : Json) : IsOf .transactions ⟨headerColumn header, data⟩

/-- Ids and timestamps are texts. -/
theorem Row.IsOf.hasTexts (h : row.IsOf space) : row.HasTexts := by
  cases h with
  | account => exact hasTexts_accountColumn _ _ _
  | transaction => exact hasTexts_headerColumn _ _

/-- The rows of readable tables have the columns of their collection. -/
theorem Row.isOf_of_mem_rows {t : Tables} (h : t.Readable) {id : String}
    (hrow : (id, row) ∈ space.rows t) : row.IsOf space := by
  cases space with
  | accounts =>
    obtain ⟨found, hfound, hpair⟩ := List.mem_map.mp hrow
    obtain ⟨balance, hbalance⟩ := h.balances found ((List.mergeSort_perm _ _).mem_iff.mp hfound)
    obtain ⟨-, rfl⟩ := Prod.mk.inj hpair
    rw [accountRow, hbalance]
    exact .account found balance _
  | transactions =>
    obtain ⟨header, -, hpair⟩ := List.mem_map.mp hrow
    obtain ⟨-, rfl⟩ := Prod.mk.inj hpair
    exact .transaction header _

/-- The columns that can be named in a collection are there in its rows. -/
theorem Row.IsOf.exists_place {column : Column} (h : row.IsOf space)
    (hname : Column.Named space name column) : ∃ a, (row.column column).place? = some a := by
  cases h with
  | account => cases hname <;> exact ⟨_, rfl⟩
  | transaction => cases hname <;> exact ⟨_, rfl⟩

/-! ## Matching -/

namespace Constraint

/-- A constraint that the query language admits. -/
def Accepted (space : Namespace) (c : Constraint) : Prop := ∃ plan, c.query.plan space = .ok plan

/-- A row meets the conditions of the query with one constraint. -/
def Matches (space : Namespace) (row : Row) (c : Constraint) : Prop :=
  ∃ plan, c.query.plan space = .ok plan ∧ Condition.allMet row plan.conditions = true

/-- A constraint is accepted when it has a predicate. -/
theorem accepted_iff {c : Constraint} : c.Accepted space ↔ ∃ p, c.predicate space = .ok p := by
  rw [Accepted, plan_query]
  exact exists_map_eq_ok_iff

/-- A row matches a constraint when the constraint has a predicate, and it holds of the row. -/
theorem matches_iff (hrow : row.HasTexts) {c : Constraint} :
    c.Matches space row ↔ ∃ p, c.predicate space = .ok p ∧ p.holds row = true := by
  have hmet : ∀ p, c.predicate space = .ok p →
      Condition.allMet row (Plan.conditions ⟨[[p]], [], none, none⟩) = p.holds row := by
    intro p hp
    have htexts : Plan.MatchesTexts ⟨[[p]], [], none, none⟩ := by
      simpa [Plan.MatchesTexts] using (isPlanned_of_predicate hp).matchesTexts
    rw [Plan.allMet_conditions hrow htexts]
    simp [Plan.holds]
  rw [Matches, plan_query]
  constructor
  · rintro ⟨plan, hplan, hholds⟩
    obtain ⟨p, hp, rfl⟩ := map_eq_ok_iff.mp hplan
    exact ⟨p, hp, (hmet p hp).symm.trans hholds⟩
  · rintro ⟨p, hp, hholds⟩
    exact ⟨_, map_eq_ok_iff.mpr ⟨p, hp, rfl⟩, (hmet p hp).trans hholds⟩

/-- In readable tables a search for a constraint returns the rows that match it. -/
theorem returns_iff_matches {s : Store} (h : s.tables.Readable) (hopen : s.isOpen = true)
    {id : String} (hrow : (id, row) ∈ space.rows s.tables) {c : Constraint}
    (hc : c.Accepted space) : c.Returns space s id ↔ c.Matches space row := by
  obtain ⟨p, hp⟩ := accepted_iff.mp hc
  rw [returns_iff h hopen hrow hp, matches_iff (Row.isOf_of_mem_rows h hrow).hasTexts, hp]
  simp

/-! ## Kinds of constraints -/

/-- A constraint on a column has the predicate of its operator. -/
theorem predicate_field_eq_ok_iff {p : Predicate} :
    (field name op v).predicate space = .ok p ↔
      ∃ column, Column.Named space name column ∧ Predicate.ofField column op v = .ok p := by
  simp only [predicate, bind_eq_ok_iff, Column.ofName_eq_ok_iff]
  constructor
  · rintro ⟨-, -, column, hname, hp⟩
    exact ⟨column, hname, hp⟩
  · rintro ⟨column, hname, hp⟩
    exact ⟨_, hname.checkKey, column, hname, hp⟩

/-- A constraint on an entry has the predicate of its operator. -/
theorem predicate_range_eq_ok_iff {p : Predicate} :
    (range key op v).predicate space = .ok p ↔
      DataKey.Matches key ∧ Predicate.ofRange key op v = .ok p := by
  rw [predicate, bind_eq_ok_iff, ← Predicate.checkKey_eq_ok_iff]
  constructor
  · rintro ⟨_, hkey, hp⟩
    exact ⟨hkey, hp⟩
  · rintro ⟨hkey, hp⟩
    exact ⟨_, hkey, hp⟩

/-- A constraint on a column is accepted when the column is known and allows what is asked. -/
theorem accepted_field_iff : (field name op v).Accepted space ↔
    ∃ column, Column.Named space name column ∧ column.Allows op v := by
  simp only [accepted_iff, predicate_field_eq_ok_iff, ← Predicate.exists_ofField_iff]
  exact ⟨fun ⟨p, column, hname, hp⟩ => ⟨column, hname, p, hp⟩,
    fun ⟨column, hname, p, hp⟩ => ⟨p, column, hname, hp⟩⟩

/-- A constraint on an entry is accepted when the key is made of letters and underscores and entries
allow what is asked. -/
theorem accepted_range_iff : (range key op v).Accepted space ↔
    DataKey.Matches key ∧ EntryAllows op v := by
  simp only [accepted_iff, predicate_range_eq_ok_iff, exists_and_left]
  exact and_congr_right fun _ => Predicate.exists_ofRange_iff

/-- A row matches a constraint on a column when the predicate of its operator holds. -/
theorem matches_field_iff (hrow : row.HasTexts) {column : Column}
    (hname : Column.Named space name column) : (field name op v).Matches space row ↔
      ∃ p, Predicate.ofField column op v = .ok p ∧ p.holds row = true := by
  rw [matches_iff hrow]
  simp only [predicate_field_eq_ok_iff, ← Column.ofName_eq_ok_iff] at hname ⊢
  simp [hname]

/-- A row matches a constraint on an entry when the predicate of its operator holds. -/
theorem matches_range_iff (hrow : row.HasTexts) (hkey : DataKey.Matches key) :
    (range key op v).Matches space row ↔
      ∃ p, Predicate.ofRange key op v = .ok p ∧ p.holds row = true := by
  rw [matches_iff hrow]
  simp only [predicate_range_eq_ok_iff, hkey, true_and]

/-- A row matches a value to be contained when the keys are made of letters and underscores and its
entry contains the value. -/
theorem matches_term_iff (hrow : row.HasTexts) : (term key v).Matches space row ↔
    (DataKey.Matches key ∧ ∀ inside, KeyInside inside v → DataKey.Matches inside) ∧
      ∃ entry, row.entry? key = some entry ∧ Entry.containsTop entry v = true := by
  have hpredicate : ∀ p, (term key v).predicate space = .ok p → p = .contains key v := by
    intro p hp
    obtain ⟨_, -, hp⟩ := bind_eq_ok_iff.mp hp
    obtain ⟨_, -, hp⟩ := bind_eq_ok_iff.mp hp
    exact (Except.ok.inj hp).symm
  have hholds : (Predicate.contains key v).holds row = true ↔
      ∃ entry, row.entry? key = some entry ∧ Entry.containsTop entry v = true := by
    rw [Predicate.holds, Option.any_eq_true]
  rw [matches_iff hrow, ← Predicate.exists_ofTerm_iff, ← hholds]
  constructor
  · rintro ⟨p, hp, h⟩
    exact ⟨⟨p, hp⟩, hpredicate p hp ▸ h⟩
  · rintro ⟨⟨p, hp⟩, h⟩
    exact ⟨p, hp, (hpredicate p hp).symm ▸ h⟩

end Constraint

end DoubleEntry.Search
