import DoubleEntry.Proofs.Answers
import DoubleEntry.Proofs.Search.Translation
import DoubleEntry.Search.Listing
import DoubleEntry.Search.Statement

/-!
# Single constraints

A query document is made of single constraints: one operator of a column with its operand, one key
with the value that its entry has to contain, or one operator of an entry with its operand. Each of
them is checked by itself, and each of them is a query of its own. An accepted query has the
predicates of its constraints in their groups and items, without the items that have none.
-/

namespace DoubleEntry.Search

/-- The result of a query that has been read. -/
def Query.run (space : Namespace) (q : Query) (s : Store) : Except LedgerFault Results := do
  let plan ← (q.plan space).mapError .query
  plan.run space s

/-- A query document is read and then run. -/
theorem run_eq (space : Namespace) (text : String) (s : Store) :
    run space text s = (Query.ofText text).mapError .query >>= fun q => q.run space s := rfl

/-- A document that is rejected is answered with its fault before the store is looked at. -/
theorem run_of_rejected {space : Namespace} {text : String} {fault : QueryFault}
    (h : (Query.ofText text >>= fun q => q.compile space) = .error fault) (s : Store) :
    run space text s = .error (.query fault) := by
  rw [run_eq]
  cases hquery : Query.ofText text with
  | error found =>
    rw [hquery] at h
    obtain rfl : found = fault := Except.error.inj h
    rfl
  | ok q =>
    rw [hquery] at h
    change q.compile space = .error fault at h
    change q.run space s = .error (.query fault)
    rw [Query.compile] at h
    rw [Query.run]
    cases hplan : q.plan space with
    | error found =>
      rw [hplan] at h
      obtain rfl : found = fault := Except.error.inj h
      rfl
    | ok plan =>
      rw [hplan] at h
      exact absurd h (by simp [Except.map])

/-- A search fails when a row of an open store comes to a pattern that is too long. -/
theorem answer_of_triesLong {space : Namespace} {text : String} {s : Store} {q : Query} {p : Plan}
    (hquery : Query.ofText text = .ok q) (hplan : q.plan space = .ok p) (hopen : s.isOpen = true)
    (hlong : p.triesLong space s.tables = true) :
    answer space text s = .error (.store .patternTooLong) := by
  simp [answer, hquery, Except.mapError, bind, Except.bind, hplan, Store.contents, hopen, hlong,
    throw, throwThe, MonadExceptOf.throw]

/-- A query document is answered with its result, unless a row of an open store comes to a pattern
that is too long. -/
theorem answer_cases (space : Namespace) (text : String) (s : Store) :
    answer space text s = run space text s ∨
      ∃ q p, Query.ofText text = .ok q ∧ q.plan space = .ok p ∧ s.isOpen = true ∧
        p.triesLong space s.tables = true ∧
        answer space text s = .error (.store .patternTooLong) := by
  cases hquery : Query.ofText text with
  | error fault => exact .inl (by simp only [answer, run, hquery]; rfl)
  | ok q =>
    cases hplan : q.plan space with
    | error fault =>
      exact .inl (by simp only [answer, run, hquery, Except.mapError, bind, Except.bind, hplan])
    | ok p =>
      by_cases hopen : s.isOpen = true
      · by_cases hlong : p.triesLong space s.tables = true
        · exact .inr ⟨q, p, rfl, hplan, hopen, hlong, answer_of_triesLong hquery hplan hopen hlong⟩
        · refine .inl ?_
          simp [answer, run, hquery, Except.mapError, bind, Except.bind, hplan, Store.contents, hopen,
            hlong]
      · refine .inl ?_
        simp [answer, run, Plan.run, hquery, Except.mapError, bind, Except.bind, hplan,
          Store.contents, hopen]

/-- A document that is rejected is answered with its fault. -/
theorem answer_of_rejected {space : Namespace} {text : String} {fault : QueryFault}
    (h : (Query.ofText text >>= fun q => q.compile space) = .error fault) (s : Store) :
    answer space text s = .error (.query fault) := by
  rcases answer_cases space text s with hanswer | ⟨q, p, hquery, hplan, -⟩
  · rw [hanswer, run_of_rejected h]
  · rw [hquery] at h
    change q.compile space = .error fault at h
    rw [Query.compile, hplan] at h
    exact absurd h (by simp [Except.map])

/-- An answer that is a result is that of the document. -/
theorem run_of_answer {space : Namespace} {text : String} {s : Store} {results : Results}
    (h : answer space text s = .ok results) : run space text s = .ok results := by
  rcases answer_cases space text s with hanswer | ⟨q, p, -, -, -, -, hlong⟩
  · exact hanswer ▸ h
  · exact absurd (hlong ▸ h) (by simp)

/-- One constraint of a query document. -/
inductive Constraint where
  /-- An operator of a column with its operand. -/
  | field (name op : String) (operand : Json)
  /-- A key with the value that its entry has to contain. -/
  | term (key : String) (value : Json)
  /-- An operator of an entry with its operand. -/
  | range (key op : String) (operand : Json)

namespace Constraint

/-- The predicate of a constraint. -/
def predicate (space : Namespace) : Constraint → Except QueryFault Predicate
  | field name op operand => do
    Predicate.checkKey name
    let column ← Column.ofName space name
    Predicate.ofField column op operand
  | term key value => Predicate.ofTerm key value
  | range key op operand => do
    Predicate.checkKey key
    Predicate.ofRange key op operand

/-- The group whose only item has one constraint. -/
def clause : Constraint → Clause
  | field name op operand => ⟨[[(name, [(op, operand)])]], [], []⟩
  | term key value => ⟨[], [[(key, value)]], []⟩
  | range key op operand => ⟨[], [], [[(key, [(op, operand)])]]⟩

/-- The query with one constraint, which has to hold. -/
def query (c : Constraint) : Query := ⟨c.clause, .empty, none, none⟩

/-- The query with one constraint has the plan with its predicate. -/
theorem plan_query (space : Namespace) (c : Constraint) :
    c.query.plan space = (c.predicate space).map fun p => ⟨[[p]], [], none, none⟩ := by
  cases c with
  | field name op operand =>
    simp only [query, clause, Query.plan, Clause.items, Item.ofFields, predicate, List.mapM_cons,
      List.mapM_nil]
    cases Predicate.checkKey name with
    | error fault => rfl
    | ok _ =>
      cases Column.ofName space name with
      | error fault => rfl
      | ok column =>
        simp only [bind, Except.bind]
        cases Predicate.ofField column op operand <;> rfl
  | term key value =>
    simp only [query, clause, Query.plan, Clause.items, Item.ofTerms, predicate, List.mapM_cons,
      List.mapM_nil]
    cases Predicate.ofTerm key value <;> rfl
  | range key op operand =>
    simp only [query, clause, Query.plan, Clause.items, Item.ofRanges, predicate, List.mapM_cons,
      List.mapM_nil]
    cases Predicate.checkKey key with
    | error fault => rfl
    | ok _ =>
      simp only [bind, Except.bind]
      cases Predicate.ofRange key op operand <;> rfl

/-- The predicate of a constraint is a planned one. -/
theorem isPlanned_of_predicate {space : Namespace} {c : Constraint} {p : Predicate}
    (h : c.predicate space = .ok p) : p.IsPlanned := by
  cases c with
  | field name op operand =>
    obtain ⟨_, -, h⟩ := bind_eq_ok_iff.mp h
    obtain ⟨column, -, h⟩ := bind_eq_ok_iff.mp h
    exact .field h
  | term key value => exact .term h
  | range key op operand =>
    obtain ⟨_, -, h⟩ := bind_eq_ok_iff.mp h
    exact .range h

/-- The constraints of an item of comparisons of columns. -/
def ofFields (item : Comparisons) : List Constraint :=
  item.flatMap fun (name, comparisons) => comparisons.map fun (op, operand) => field name op operand

/-- The constraints of an item of values to be contained. -/
def ofTerms (item : Json.Fields) : List Constraint := item.map fun (key, value) => term key value

/-- The constraints of an item of comparisons of entries. -/
def ofRanges (item : Comparisons) : List Constraint :=
  item.flatMap fun (key, comparisons) => comparisons.map fun (op, operand) => range key op operand

/-- Constraints one after another have the given predicates. -/
def Give (space : Namespace) (constraints : List Constraint) (predicates : List Predicate) : Prop :=
  List.Forall₂ (fun c p => c.predicate space = .ok p) constraints predicates

/-- Constraints of several subjects have the predicates of each of them. -/
theorem give_flatMap {α : Type} {space : Namespace} {of : α → List Constraint} {subjects : List α}
    {predicates : List (List Predicate)}
    (h : List.Forall₂ (fun subject found => Give space (of subject) found) subjects predicates) :
    Give space (subjects.flatMap of) predicates.flatten := by
  rw [List.flatMap_def]
  exact List.rel_flatten (List.forall₂_map_left_iff.mpr h)

/-- An item of comparisons of columns has the predicates of its constraints. -/
theorem give_ofFields {space : Namespace} {item : Comparisons} {predicates : Item}
    (h : Item.ofFields space item = .ok predicates) : Give space (ofFields item) predicates := by
  obtain ⟨found, hfound, rfl⟩ := map_eq_ok_iff.mp h
  refine give_flatMap ((mapM_eq_ok_iff.mp hfound).imp ?_)
  rintro ⟨name, comparisons⟩ predicates h
  obtain ⟨_, hkey, h⟩ := bind_eq_ok_iff.mp h
  obtain ⟨column, hcolumn, h⟩ := bind_eq_ok_iff.mp h
  refine List.forall₂_map_left_iff.mpr ((mapM_eq_ok_iff.mp h).imp ?_)
  rintro ⟨op, operand⟩ p hp
  exact bind_eq_ok_iff.mpr ⟨_, hkey, bind_eq_ok_iff.mpr ⟨column, hcolumn, hp⟩⟩

/-- An item of values to be contained has the predicates of its constraints. -/
theorem give_ofTerms (space : Namespace) {item : Json.Fields} {predicates : Item}
    (h : Item.ofTerms item = .ok predicates) : Give space (ofTerms item) predicates :=
  List.forall₂_map_left_iff.mpr (mapM_eq_ok_iff.mp h)

/-- An item of comparisons of entries has the predicates of its constraints. -/
theorem give_ofRanges (space : Namespace) {item : Comparisons} {predicates : Item}
    (h : Item.ofRanges item = .ok predicates) : Give space (ofRanges item) predicates := by
  obtain ⟨found, hfound, rfl⟩ := map_eq_ok_iff.mp h
  refine give_flatMap ((mapM_eq_ok_iff.mp hfound).imp ?_)
  rintro ⟨key, comparisons⟩ predicates h
  obtain ⟨_, hkey, h⟩ := bind_eq_ok_iff.mp h
  refine List.forall₂_map_left_iff.mpr ((mapM_eq_ok_iff.mp h).imp ?_)
  rintro ⟨op, operand⟩ p hp
  exact bind_eq_ok_iff.mpr ⟨_, hkey, hp⟩

end Constraint

/-- The constraints of a group, item by item. -/
def Clause.constraints (c : Clause) : List (List Constraint) :=
  c.fields.map Constraint.ofFields ++ c.terms.map Constraint.ofTerms ++
    c.ranges.map Constraint.ofRanges

/-- The items of an accepted group have the predicates of its constraints, except that items without
any are left out. -/
theorem Clause.exists_items {space : Namespace} {c : Clause} {items : List Item}
    (h : c.items space = .ok items) :
    ∃ all, List.Forall₂ (Constraint.Give space) c.constraints all ∧
      items = all.filter fun item => !item.isEmpty := by
  obtain ⟨fields, hfields, h⟩ := bind_eq_ok_iff.mp h
  obtain ⟨terms, hterms, h⟩ := bind_eq_ok_iff.mp h
  obtain ⟨ranges, hranges, h⟩ := bind_eq_ok_iff.mp h
  refine ⟨fields ++ terms ++ ranges, ?_, (Except.ok.inj h).symm⟩
  refine List.rel_append (List.rel_append ?_ ?_) ?_
  · exact List.forall₂_map_left_iff.mpr ((mapM_eq_ok_iff.mp hfields).imp fun _ _ =>
      Constraint.give_ofFields)
  · exact List.forall₂_map_left_iff.mpr ((mapM_eq_ok_iff.mp hterms).imp fun _ _ =>
      Constraint.give_ofTerms space)
  · exact List.forall₂_map_left_iff.mpr ((mapM_eq_ok_iff.mp hranges).imp fun _ _ =>
      Constraint.give_ofRanges space)

/-- A predicate in an item of an accepted group is that of one of its constraints. -/
theorem Clause.exists_constraint {space : Namespace} {c : Clause} {items : List Item}
    (h : c.items space = .ok items) {item : Item} (hitem : item ∈ items) {p : Predicate}
    (hp : p ∈ item) : ∃ constraints ∈ c.constraints, ∃ constraint ∈ constraints,
      constraint.predicate space = .ok p := by
  obtain ⟨all, hall, rfl⟩ := Clause.exists_items h
  obtain ⟨constraints, hmem, hgive⟩ := exists_mem_of_forall₂ hall (List.mem_filter.mp hitem).1
  exact ⟨constraints, hmem, exists_mem_of_forall₂ hgive hp⟩

/-- The constraints of a query, item by item. -/
def Query.constraints (q : Query) : List (List Constraint) :=
  q.must.constraints ++ q.should.constraints

/-- The plan of an accepted query has the items of its groups and the bounds of the query. -/
theorem Query.plan_eq_ok_iff {space : Namespace} {q : Query} {p : Plan} :
    q.plan space = .ok p ↔ q.must.items space = .ok p.must ∧ q.should.items space = .ok p.should ∧
      p.limit = q.size.map Int.toNat ∧ p.offset = q.skip.map Int.toNat := by
  constructor
  · intro h
    obtain ⟨must, hmust, h⟩ := bind_eq_ok_iff.mp h
    obtain ⟨should, hshould, h⟩ := bind_eq_ok_iff.mp h
    obtain rfl := Except.ok.inj h
    exact ⟨hmust, hshould, rfl, rfl⟩
  · rintro ⟨hmust, hshould, hlimit, hoffset⟩
    rw [plan, hmust, hshould, ← hlimit, ← hoffset]
    rfl

/-- A predicate in an item of a plan is that of one of the constraints of the query. -/
theorem Query.exists_constraint {space : Namespace} {q : Query} {p : Plan}
    (hplan : q.plan space = .ok p) {item : Item} (hitem : item ∈ p.must ++ p.should)
    {predicate : Predicate} (hpredicate : predicate ∈ item) :
    ∃ constraints ∈ q.constraints, ∃ c ∈ constraints, c.predicate space = .ok predicate := by
  obtain ⟨hmust, hshould, -, -⟩ := Query.plan_eq_ok_iff.mp hplan
  rcases List.mem_append.mp hitem with hmem | hmem
  · obtain ⟨constraints, hconstraints, found⟩ := Clause.exists_constraint hmust hmem hpredicate
    exact ⟨constraints, List.mem_append_left _ hconstraints, found⟩
  · obtain ⟨constraints, hconstraints, found⟩ := Clause.exists_constraint hshould hmem hpredicate
    exact ⟨constraints, List.mem_append_right _ hconstraints, found⟩

end DoubleEntry.Search
