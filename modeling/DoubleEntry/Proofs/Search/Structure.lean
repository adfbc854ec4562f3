import DoubleEntry.Proofs.Search.LongPatterns
import DoubleEntry.Proofs.Search.Readable

/-!
# The structure of a query document

On readable tables the result of a query can be told from the results of its constraints, each asked
for by itself: a row is returned when every constraint of every `must` item returns it, and if some
`should` item has constraints, when all constraints of one of these return it. So items are joined as
the document says, and items without constraints do not count.
-/

namespace DoubleEntry.Search

/-- The ids of a collection. -/
def Namespace.ids (t : Tables) : Namespace → List String
  | accounts => t.accounts.map AccountRow.id
  | transactions => t.headers.map Header.id

/-- A search for a constraint alone succeeds and returns the row with an id. -/
def Constraint.Returns (space : Namespace) (s : Store) (id : String) (c : Constraint) : Prop :=
  ∃ results, c.query.run space s = .ok results ∧ id ∈ results.ids

variable {space : Namespace} {s : Store} {t : Tables}

/-! ## Rows and their ids -/

/-- The rows of a collection, in order, have the ids of the collection. -/
theorem perm_ids_rows (space : Namespace) (t : Tables) :
    ((space.rows t).map Prod.fst).Perm (space.ids t) := by
  cases space with
  | accounts =>
    rw [Namespace.rows, List.map_map]
    exact (List.mergeSort_perm _ _).map AccountRow.id
  | transactions =>
    rw [Namespace.rows, List.map_map]
    exact (List.mergeSort_perm _ _).map Header.id

/-- In readable tables no two rows of a collection have one id. -/
theorem nodup_ids_rows (h : t.Readable) (space : Namespace) :
    ((space.rows t).map Prod.fst).Nodup := by
  rw [(perm_ids_rows space t).nodup_iff]
  cases space with
  | accounts => exact h.nodup_accounts
  | transactions => exact h.nodup_headers

/-- The row with an id is among those that pass a test when it passes the test. -/
theorem mem_ids_filter_iff (h : t.Readable) {id : String} {row : Row}
    (hrow : (id, row) ∈ space.rows t) (test : Row → Bool) :
    id ∈ ((space.rows t).filter fun r => test r.2).map Prod.fst ↔ test row = true := by
  constructor
  · intro hid
    obtain ⟨found, hfound, hid⟩ := List.mem_map.mp hid
    obtain ⟨hmem, htest⟩ := List.mem_filter.mp hfound
    obtain rfl : found = (id, row) :=
      List.inj_on_of_nodup_map (nodup_ids_rows h space) hmem hrow hid
    exact htest
  · intro htest
    exact List.mem_map.mpr ⟨(id, row), List.mem_filter.mpr ⟨hrow, htest⟩, rfl⟩

/-- The plan of an accepted query matches only texts with patterns. -/
theorem Query.matchesTexts_of_plan {q : Query} {p : Plan} (hplan : q.plan space = .ok p) :
    p.MatchesTexts := by
  intro item hitem predicate hpredicate
  obtain ⟨_, -, _, -, hconstraint⟩ := Query.exists_constraint hplan hitem hpredicate
  exact (Constraint.isPlanned_of_predicate hconstraint).matchesTexts

/-- An accepted query without bounds runs on readable tables and returns the rows of which its plan
holds. -/
theorem Query.exists_results (h : s.tables.Readable) (hopen : s.isOpen = true) {q : Query}
    {p : Plan} (hplan : q.plan space = .ok p) (hlimit : p.limit = none) (hoffset : p.offset = none) :
    ∃ results, q.run space s = .ok results ∧ (∀ id ∈ results.ids, id ∈ space.ids s.tables) ∧
      ∀ id row, (id, row) ∈ space.rows s.tables → (id ∈ results.ids ↔ p.holds row = true) := by
  obtain ⟨results, hrun, hids⟩ :=
    Plan.run_of_readable h hopen space (matchesTexts_of_plan hplan) hlimit hoffset
  refine ⟨results, ?_, ?_, ?_⟩
  · rw [run, hplan]
    exact hrun
  · intro id hid
    rw [hids] at hid
    exact (perm_ids_rows space s.tables).mem_iff.mp ((List.filter_sublist.map _).subset hid)
  · intro id row hrow
    rw [hids]
    exact mem_ids_filter_iff h hrow p.holds

/-- The query of an accepted constraint runs on readable tables and returns the rows of which its
predicate holds. -/
theorem Constraint.exists_results (h : s.tables.Readable) (hopen : s.isOpen = true)
    {c : Constraint} {p : Predicate} (hp : c.predicate space = .ok p) :
    ∃ results, c.query.run space s = .ok results ∧
      ∀ id row, (id, row) ∈ space.rows s.tables → (id ∈ results.ids ↔ p.holds row = true) := by
  have hplan : c.query.plan space = .ok ⟨[[p]], [], none, none⟩ := by
    rw [plan_query, hp]
    rfl
  have hholds : ∀ row, Plan.holds ⟨[[p]], [], none, none⟩ row = p.holds row := by
    simp [Plan.holds]
  obtain ⟨results, hrun, -, hids⟩ := Query.exists_results h hopen hplan rfl rfl
  exact ⟨results, hrun, fun id row hrow => hholds row ▸ hids id row hrow⟩

/-- An accepted constraint returns the rows of which its predicate holds. -/
theorem Constraint.returns_iff (h : s.tables.Readable) (hopen : s.isOpen = true) {id : String}
    {row : Row} (hrow : (id, row) ∈ space.rows s.tables) {c : Constraint} {p : Predicate}
    (hp : c.predicate space = .ok p) : c.Returns space s id ↔ p.holds row = true := by
  obtain ⟨results, hrun, hids⟩ := exists_results h hopen hp
  rw [← hids id row hrow]
  constructor
  · rintro ⟨found, hfound, hid⟩
    obtain rfl := Except.ok.inj (hfound.symm.trans hrun)
    exact hid
  · exact fun hid => ⟨results, hrun, hid⟩

section Items

variable {row : Row} {Holds : Constraint → Prop} {constraints : List (List Constraint)}
  {items : List Item}

/-- All predicates of an item hold when all its constraints do. -/
theorem Constraint.Give.forall_iff
    (hHolds : ∀ c p, Constraint.predicate space c = .ok p → (Holds c ↔ p.holds row = true))
    {constraints : List Constraint} {item : Item} (h : Constraint.Give space constraints item) :
    (∀ c ∈ constraints, Holds c) ↔ item.all (Predicate.holds row) = true := by
  rw [List.all_eq_true]
  exact forall_mem_iff_of_forall₂ h hHolds

/-- An item is empty when it has no constraints. -/
theorem Constraint.Give.isEmpty_iff {constraints : List Constraint} {item : Item}
    (h : Constraint.Give space constraints item) : constraints ≠ [] ↔ (!item.isEmpty) = true := by
  cases h <;> simp

/-- If there are items that say something some of them holds, when all constraints of an item with
constraints do, if there is one. -/
theorem exists_items_iff
    (hHolds : ∀ c p, Constraint.predicate space c = .ok p → (Holds c ↔ p.holds row = true))
    (h : List.Forall₂ (Constraint.Give space) constraints items) :
    (((items.filter fun item => !item.isEmpty).isEmpty ||
        (items.filter fun item => !item.isEmpty).any fun item =>
          item.all (Predicate.holds row)) = true) ↔
      ((∃ item ∈ constraints, item ≠ []) →
        ∃ item ∈ constraints, item ≠ [] ∧ ∀ c ∈ item, Holds c) := by
  have hsome : (∃ item ∈ constraints, item ≠ []) ↔ ∃ item ∈ items, (!item.isEmpty) = true :=
    exists_mem_iff_of_forall₂ h fun _ _ hgive => hgive.isEmpty_iff
  have hholds : (∃ item ∈ constraints, item ≠ [] ∧ ∀ c ∈ item, Holds c) ↔
      ∃ item ∈ items, (!item.isEmpty) = true ∧ item.all (Predicate.holds row) = true :=
    exists_mem_iff_of_forall₂ h fun _ _ hgive =>
      and_congr hgive.isEmpty_iff (hgive.forall_iff hHolds)
  have hnone : (items.filter fun item => !item.isEmpty).isEmpty = true ↔
      ¬ ∃ item ∈ items, (!item.isEmpty) = true := by
    rw [List.isEmpty_iff, List.filter_eq_nil_iff, not_exists]
    simp only [not_and]
  rw [hsome, hholds, Bool.or_eq_true, hnone, List.any_filter, List.any_eq_true,
    imp_iff_not_or]
  simp only [Bool.and_eq_true]

end Items

/-! ## Queries -/

end DoubleEntry.Search
