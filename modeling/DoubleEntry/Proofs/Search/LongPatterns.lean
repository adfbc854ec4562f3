import DoubleEntry.Proofs.Search.Language
import DoubleEntry.Proofs.Search.Rows

/-!
# The length of search patterns

A search pattern has a greatest length, and only a row that is held against a longer one makes a
search fail for it. The patterns in the conditions of a query are the operands of its constraints
that match texts, and no others, so when these are short enough no row comes to a longer one, however
its conditions are taken apart and put in order.
-/

namespace DoubleEntry.Search

variable {row : Row} {scans : Scans}

/-! ## Conditions -/

namespace Condition

mutual

/-- The search patterns in a condition. -/
def patterns : Condition → List String
  | .compare _ (.like _) (.text pattern) => [pattern]
  | .not condition => condition.patterns
  | .all conditions | .any conditions => patternsOfAll conditions
  | .someElement _ _ condition => condition.patterns
  | _ => []

/-- The search patterns in conditions. -/
def patternsOfAll : List Condition → List String
  | [] => []
  | c :: rest => c.patterns ++ patternsOfAll rest

end

/-- A search pattern in conditions is one in some of them. -/
theorem mem_patternsOfAll {pattern : String} {cs : List Condition} :
    pattern ∈ patternsOfAll cs ↔ ∃ c ∈ cs, pattern ∈ c.patterns := by
  induction cs with
  | nil => simp [patternsOfAll]
  | cons c rest ih => simp [patternsOfAll, ih]

/-- The search patterns of conditions one after another. -/
theorem patternsOfAll_append (cs ds : List Condition) :
    patternsOfAll (cs ++ ds) = patternsOfAll cs ++ patternsOfAll ds := by
  induction cs with
  | nil => rfl
  | cons c rest ih => rw [List.cons_append, patternsOfAll, ih, patternsOfAll, List.append_assoc]

mutual

/-- A row comes to no long pattern in a condition that has none. -/
theorem triesLong_eq_false (c : Condition) (h : ∀ pattern ∈ c.patterns, ¬ Pattern.isTooLong pattern)
    (scans : Scans) : c.triesLong row scans = false := by
  cases c with
  | compare term comparator operand =>
    cases comparator with
    | relation r => rfl
    | like negated =>
      cases operand with
      | text pattern => exact Bool.eq_false_iff.mpr (h pattern (List.mem_singleton.mpr rfl))
      | integer | real => rfl
  | not condition => exact triesLong_eq_false condition h scans
  | all conditions => exact allTryLong_eq_false conditions h scans
  | any conditions => exact anyTryLong_eq_false conditions h scans
  | someElement scan path condition =>
    rw [triesLong]
    split
    · exact List.any_eq_false.mpr fun v _ => by simp [triesLong_eq_false condition h]
    · rfl
  | hasType | isNumber | glob | isNull | constant => rfl

/-- A row comes to no long pattern in a conjunction that has none. -/
theorem allTryLong_eq_false (cs : List Condition)
    (h : ∀ pattern ∈ patternsOfAll cs, ¬ Pattern.isTooLong pattern) (scans : Scans) :
    allTryLong row scans cs = false := by
  cases cs with
  | nil => rfl
  | cons c rest =>
    obtain ⟨hc, hrest⟩ := List.forall_mem_append.mp h
    rw [allTryLong, triesLong_eq_false c hc, allTryLong_eq_false rest hrest, Bool.and_false,
      Bool.or_false]

/-- A row comes to no long pattern in a disjunction that has none. -/
theorem anyTryLong_eq_false (cs : List Condition)
    (h : ∀ pattern ∈ patternsOfAll cs, ¬ Pattern.isTooLong pattern) (scans : Scans) :
    anyTryLong row scans cs = false := by
  cases cs with
  | nil => rfl
  | cons c rest =>
    obtain ⟨hc, hrest⟩ := List.forall_mem_append.mp h
    rw [anyTryLong, triesLong_eq_false c hc, anyTryLong_eq_false rest hrest, Bool.and_false,
      Bool.or_false]

end

mutual

/-- Taken apart, a condition has the same search patterns. -/
theorem patterns_conjuncts (c : Condition) : patternsOfAll c.conjuncts = c.patterns := by
  cases c with
  | all conditions => exact patterns_conjunctsOf conditions
  | any conditions =>
    match conditions with
    | [c] =>
      change patternsOfAll c.conjuncts = c.patterns ++ []
      rw [patterns_conjuncts c, List.append_nil]
    | [] | _ :: _ :: _ => exact List.append_nil _
  | compare | hasType | isNumber | glob | isNull | constant | not | someElement =>
    exact List.append_nil _

/-- Taken apart, conditions have the same search patterns. -/
theorem patterns_conjunctsOf (cs : List Condition) :
    patternsOfAll (conjunctsOf cs) = patternsOfAll cs := by
  cases cs with
  | nil => rfl
  | cons c rest =>
    rw [conjunctsOf, patternsOfAll_append, patterns_conjuncts c, patterns_conjunctsOf rest,
      patternsOfAll]

end

/-- To be equal to a scalar asks for no pattern. -/
theorem patterns_scalarEquals (path : Path) (v : Json) : (scalarEquals path v).patterns = [] := by
  cases v with
  | bool b => cases b <;> rfl
  | _ => rfl

mutual

/-- To contain a value asks for no pattern. -/
theorem patterns_containing (path : Path) (n : ℕ) (v : Json) :
    (containing path n v).1.patterns = [] := by
  cases v with
  | object fields => exact patterns_containingFields path n fields
  | array items => exact patterns_containingItems path n items
  | null => exact patterns_scalarEquals path .null
  | bool b => exact patterns_scalarEquals path (.bool b)
  | integer m => exact patterns_scalarEquals path (.integer m)
  | real x => exact patterns_scalarEquals path (.real x)
  | text s => exact patterns_scalarEquals path (.text s)

/-- To contain items asks for no pattern. -/
theorem patterns_containingItems (path : Path) (n : ℕ) (items : List Json) :
    patternsOfAll (containingItems path n items).1 = [] := by
  cases items with
  | nil => rfl
  | cons v rest =>
    exact List.append_eq_nil_iff.mpr
      ⟨patterns_containing _ _ v, patterns_containingItems path _ rest⟩

/-- To contain fields asks for no pattern. -/
theorem patterns_containingFields (path : Path) (n : ℕ) (fields : List (String × Json)) :
    patternsOfAll (containingFields path n fields).1 = [] := by
  cases fields with
  | nil => rfl
  | cons field rest =>
    exact List.append_eq_nil_iff.mpr
      ⟨patterns_containing _ _ field.2, patterns_containingFields path _ rest⟩

end

/-- An entry that has to contain a value is matched with no pattern. -/
theorem patterns_entryContaining (key : String) (n : ℕ) (v : Json) :
    (entryContaining key n v).1.patterns = [] := by
  have hscalar : ∀ v, (Condition.any [scalarEquals (.data [key]) v,
      .all [.hasType (.data [key]) .array, .someElement (n + 1) (.data [key])
        (scalarEquals (.element (n + 1) []) v)]]).patterns = [] := by
    intro v
    simp [patterns, patternsOfAll, patterns_scalarEquals]
  cases v with
  | object fields => exact patterns_containing _ n (.object fields)
  | array items => exact patterns_containing _ n (.array items)
  | null => exact hscalar .null
  | bool b => exact hscalar (.bool b)
  | integer m => exact hscalar (.integer m)
  | real x => exact hscalar (.real x)
  | text s => exact hscalar (.text s)

end Condition

/-! ## Predicates -/

namespace Predicate

open Condition (patternsOfAll)

mutual

/-- The search patterns that a predicate matches texts with. -/
def patterns : Predicate → List String
  | .column _ (.like _) (.text pattern) | .text _ (.like _) pattern => [pattern]
  | .anyOf predicates | .allOf predicates => patternsOf predicates
  | _ => []

/-- The search patterns that predicates match texts with. -/
def patternsOf : List Predicate → List String
  | [] => []
  | p :: rest => p.patterns ++ patternsOf rest

end

mutual

/-- The condition of a predicate has its search patterns. -/
theorem patterns_condition (n : ℕ) (p : Predicate) : (p.condition n).1.patterns = p.patterns := by
  cases p with
  | column c comparator operand => cases comparator <;> cases operand <;> rfl
  | contains key value => exact Condition.patterns_entryContaining key n value
  | text key comparator words => cases comparator <;> rfl
  | numeric | numericOrText | null => rfl
  | bool key expected => cases expected <;> rfl
  | anyOf predicates | allOf predicates =>
    cases predicates with
    | nil => rfl
    | cons p rest => exact patternsOfAll_conditions n (p :: rest)

/-- The conditions of predicates have their search patterns. -/
theorem patternsOfAll_conditions (n : ℕ) (ps : List Predicate) :
    patternsOfAll (conditions n ps).1 = patternsOf ps := by
  cases ps with
  | nil => rfl
  | cons p rest =>
    rw [conditions, patternsOf, ← patterns_condition n p, ← patternsOfAll_conditions _ rest]
    rfl

end

end Predicate

/-- The search patterns of predicates are those of some of them. -/
theorem Predicate.mem_patternsOf {pattern : String} {ps : List Predicate} :
    pattern ∈ Predicate.patternsOf ps ↔ ∃ p ∈ ps, pattern ∈ p.patterns := by
  induction ps with
  | nil => simp [patternsOf]
  | cons p rest ih => simp [patternsOf, ih]

/-- The search patterns in the conditions of items are those of some predicate of some item. -/
theorem Item.mem_patternsOfAll_conditions {pattern : String} (items : List Item) (n : ℕ) :
    pattern ∈ Condition.patternsOfAll (Item.conditions n items).1 ↔
      ∃ item ∈ items, ∃ p ∈ item, pattern ∈ p.patterns := by
  induction items generalizing n with
  | nil => simp [Item.conditions, Condition.patternsOfAll]
  | cons item rest ih =>
    rw [Item.conditions, Condition.patternsOfAll, List.mem_append, Condition.patterns,
      Predicate.patternsOfAll_conditions, Predicate.mem_patternsOf, ih, List.exists_mem_cons_iff]

/-- The search patterns in the conditions of a plan are those of some predicate of some item. -/
theorem Plan.exists_of_mem_patternsOfAll {pattern : String} {p : Plan}
    (h : pattern ∈ Condition.patternsOfAll p.conditions) :
    ∃ item ∈ p.must ++ p.should, ∃ predicate ∈ item, pattern ∈ predicate.patterns := by
  have hmust : ∀ n, pattern ∈ Condition.patternsOfAll (Item.conditions n p.must).1 →
      ∃ item ∈ p.must ++ p.should, ∃ predicate ∈ item, pattern ∈ predicate.patterns := by
    intro n hmem
    obtain ⟨item, hitem, found⟩ := (Item.mem_patternsOfAll_conditions p.must n).mp hmem
    exact ⟨item, List.mem_append_left _ hitem, found⟩
  rw [Plan.conditions] at h
  dsimp only at h
  split_ifs at h
  · exact hmust 0 h
  · rw [Condition.patternsOfAll_append] at h
    rcases List.mem_append.mp h with h | h
    · exact hmust 0 h
    · obtain ⟨c, hc, hpattern⟩ := Condition.mem_patternsOfAll.mp h
      obtain rfl := List.mem_singleton.mp hc
      obtain ⟨item, hitem, found⟩ := (Item.mem_patternsOfAll_conditions p.should _).mp hpattern
      exact ⟨item, List.mem_append_right _ hitem, found⟩

/-! ## Constraints -/

namespace Predicate

variable {column : Column} {key op : String} {negated : Bool} {r : Relation} {v : Json}
  {p : Predicate}

/-- A column that is compared by a relation is matched with no pattern. -/
theorem patterns_ofColumn_relation (h : ofColumn column (.relation r) op v = .ok p) :
    p.patterns = [] := by
  unfold ofColumn at h
  repeat' split at h
  all_goals cases h
  all_goals rfl

/-- An entry that is compared by a relation is matched with no pattern. -/
theorem patterns_ofEntry_relation (h : ofEntry key (.relation r) op v = .ok p) :
    p.patterns = [] := by
  unfold ofEntry at h
  repeat' split at h
  all_goals simp_all
  all_goals subst h
  all_goals rfl

/-- A column is matched with the text that is its operand. -/
theorem patterns_ofColumn_like (h : ofColumn column (.like negated) op v = .ok p) :
    ∃ s, v = .text s ∧ p.patterns = [s] := by
  obtain ⟨-, s, rfl⟩ := exists_ofColumn_like_iff.mp ⟨p, h⟩
  cases column <;> cases h
  all_goals exact ⟨s, rfl, rfl⟩

/-- An entry is matched with the text that is its operand. -/
theorem patterns_ofEntry_like (h : ofEntry key (.like negated) op v = .ok p) :
    ∃ s, v = .text s ∧ p.patterns = [s] := by
  obtain ⟨s, rfl⟩ := exists_ofEntry_like_iff.mp ⟨p, h⟩
  cases h
  exact ⟨s, rfl, rfl⟩

/-- Predicates without patterns have none together. -/
theorem patternsOf_eq_nil {ps : List Predicate} (h : ∀ p ∈ ps, p.patterns = []) :
    patternsOf ps = [] := by
  induction ps with
  | nil => rfl
  | cons p rest ih =>
    obtain ⟨hp, hrest⟩ := List.forall_mem_cons.mp h
    rw [patternsOf, hp, ih hrest, List.append_nil]

/-- A membership list whose elements are compared without patterns has none. -/
theorem patterns_ofMembers {each : Relation → Json → Except QueryFault Predicate}
    {elements : List Json} (heach : ∀ r v p, each r v = .ok p → p.patterns = [])
    (h : ofMembers negated each elements = .ok p) : p.patterns = [] :=
  of_ofMembers (fun _ => patternsOf_eq_nil) (fun _ => patternsOf_eq_nil) heach h

end Predicate

namespace Constraint

/-- The search pattern of a constraint that matches texts with one. -/
def pattern? : Constraint → Option String
  | field _ op (.text s) | range _ op (.text s) => if op ∈ ["like", "notlike"] then some s else none
  | _ => none

/-- The predicate of a constraint has the search pattern of the constraint, and no other. -/
theorem pattern?_of_mem_patterns {space : Namespace} {c : Constraint} {p : Predicate}
    (h : c.predicate space = .ok p) {pattern : String} (hpattern : pattern ∈ p.patterns) :
    c.pattern? = some pattern := by
  have hnone : ∀ {ps : List String}, ps = [] → pattern ∉ ps := fun hps => hps ▸ List.not_mem_nil
  cases c with
  | field name op operand =>
    obtain ⟨_, -, h⟩ := bind_eq_ok_iff.mp h
    obtain ⟨column, -, h⟩ := bind_eq_ok_iff.mp h
    obtain ⟨operator, hname, h⟩ := bind_eq_ok_iff.mp h
    cases operator with
    | compare comparator =>
      cases comparator with
      | relation r => exact absurd hpattern (hnone (Predicate.patterns_ofColumn_relation h))
      | like negated =>
        obtain ⟨s, rfl, hs⟩ := Predicate.patterns_ofColumn_like h
        obtain rfl := List.mem_singleton.mp (hs ▸ hpattern)
        exact if_pos (Predicate.exists_like_iff.mp ⟨negated, hname⟩)
    | member negated =>
      obtain ⟨elements, -, h⟩ := bind_eq_ok_iff.mp h
      exact absurd hpattern (hnone (Predicate.patterns_ofMembers
        (fun _ _ _ => Predicate.patterns_ofColumn_relation) h))
    | null negated => exact absurd h (by simp)
  | term key value =>
    obtain ⟨_, -, h⟩ := bind_eq_ok_iff.mp h
    obtain ⟨_, -, h⟩ := bind_eq_ok_iff.mp h
    obtain rfl := Except.ok.inj h
    exact absurd hpattern List.not_mem_nil
  | range key op operand =>
    obtain ⟨_, -, h⟩ := bind_eq_ok_iff.mp h
    obtain ⟨operator, hname, h⟩ := bind_eq_ok_iff.mp h
    cases operator with
    | compare comparator =>
      cases comparator with
      | relation r => exact absurd hpattern (hnone (Predicate.patterns_ofEntry_relation h))
      | like negated =>
        obtain ⟨s, rfl, hs⟩ := Predicate.patterns_ofEntry_like h
        obtain rfl := List.mem_singleton.mp (hs ▸ hpattern)
        exact if_pos (Predicate.exists_like_iff.mp ⟨negated, hname⟩)
    | member negated =>
      obtain ⟨elements, -, h⟩ := bind_eq_ok_iff.mp h
      exact absurd hpattern (hnone (Predicate.patterns_ofMembers
        (fun _ _ _ => Predicate.patterns_ofEntry_relation) h))
    | null negated =>
      dsimp only at h
      split at h
      · obtain rfl := Except.ok.inj h
        exact absurd hpattern List.not_mem_nil
      · exact absurd h (by simp)

end Constraint

/-! ## Queries -/

namespace Query

/-- A query all of whose search patterns have few enough bytes. -/
def PatternsFit (q : Query) : Prop :=
  ∀ constraints ∈ q.constraints, ∀ c ∈ constraints, ∀ pattern ∈ c.pattern?,
    pattern.utf8ByteSize ≤ Pattern.mostBytes

/-- A query for everything has no search patterns. -/
theorem patternsFit_of_isEverything {q : Query} (h : q.isEverything = true) : q.PatternsFit := by
  have hnone : ∀ {c : Clause}, c.isEmpty = true → c.constraints = [] := by
    intro c hc
    obtain ⟨fields, terms, ranges⟩ := c
    simp only [Clause.isEmpty, Bool.and_eq_true, List.isEmpty_iff] at hc
    obtain ⟨⟨rfl, rfl⟩, rfl⟩ := hc
    rfl
  obtain ⟨hmust, hshould⟩ := Bool.and_eq_true_iff.mp h
  rw [PatternsFit, constraints, hnone hmust, hnone hshould]
  exact fun _ hmem => absurd hmem List.not_mem_nil

/-- A query with one constraint has no search pattern unless the constraint has. -/
theorem patternsFit_query {c : Constraint} (h : c.pattern? = none) : c.query.PatternsFit := by
  intro constraints hconstraints found hfound pattern hpattern
  have hmem : found = c := by
    cases c <;> simp_all [Query.constraints, Constraint.query, Constraint.clause,
      Clause.constraints, Clause.empty, Constraint.ofFields, Constraint.ofTerms, Constraint.ofRanges]
  rw [hmem, h] at hpattern
  exact absurd hpattern (Option.not_mem_none _)

/-- No row comes to a long pattern in a query whose patterns are short enough. -/
theorem triesLong_eq_false {space : Namespace} {q : Query} {p : Plan} (hplan : q.plan space = .ok p)
    (hfit : q.PatternsFit) (t : Tables) : p.triesLong space t = false := by
  have hshort : ∀ pattern ∈ Condition.patternsOfAll p.conditions, ¬ Pattern.isTooLong pattern := by
    intro pattern hmem
    obtain ⟨item, hitem, predicate, hpredicate, hpattern⟩ := Plan.exists_of_mem_patternsOfAll hmem
    obtain ⟨constraints, hmem, c, hc, hconstraint⟩ := exists_constraint hplan hitem hpredicate
    have hbytes := hfit constraints hmem c hc pattern
      (Constraint.pattern?_of_mem_patterns hconstraint hpattern)
    simpa [Pattern.isTooLong] using hbytes
  have hordered : ∀ pattern ∈ Condition.patternsOfAll (p.inOrder space),
      ¬ Pattern.isTooLong pattern := by
    intro pattern hmem
    obtain ⟨c, hc, hpattern⟩ := Condition.mem_patternsOfAll.mp hmem
    refine hshort pattern ?_
    rw [← Condition.patterns_conjunctsOf]
    exact Condition.mem_patternsOfAll.mpr ⟨c, (p.perm_inOrder space).mem_iff.mp hc, hpattern⟩
  have hrows : ∀ row : String × Row, Condition.allTryLong row.2 [] (p.inOrder space) = false :=
    fun row => Condition.allTryLong_eq_false _ hordered []
  rw [Plan.triesLong, Bool.and_eq_false_iff]
  exact .inr (List.any_eq_false.mpr fun row _ => Bool.not_eq_true _ ▸ hrows row)

end Query

/-- A query whose search patterns are short enough is answered with its result. -/
theorem answer_eq_run {space : Namespace} {text : String} {q : Query}
    (hquery : Query.ofText text = .ok q) (hfit : q.PatternsFit) (s : Store) :
    answer space text s = run space text s := by
  rcases answer_cases space text s with h | ⟨found, p, hfound, hplan, -, hlong, -⟩
  · exact h
  · obtain rfl : q = found := Except.ok.inj (hquery.symm.trans hfound)
    exact absurd hlong (by simp [Query.triesLong_eq_false hplan hfit])

/-- A search for the ids that match a pattern fails when the pattern is too long and there is a
row. -/
theorem answer_of_isTooLong {space : Namespace} {text pattern : String} {s : Store}
    {row : String × Row}
    (hquery : Query.ofText text = .ok (Constraint.field "id" "like" (.text pattern)).query)
    (hlong : Pattern.isTooLong pattern = true) (hopen : s.isOpen = true)
    (hrow : row ∈ space.rows s.tables) :
    answer space text s = .error (.store .patternTooLong) := by
  let p : Plan := ⟨[[.column .id (.like false) (.text pattern)]], [], none, none⟩
  have hplan : (Constraint.field "id" "like" (.text pattern)).query.plan space = .ok p := by
    cases space <;> rfl
  have hinOrder : p.inOrder space = [.compare (.column .id) (.like false) (.text pattern)] := by
    cases space <;> rfl
  refine answer_of_triesLong hquery hplan hopen ?_
  have htries : Condition.allTryLong row.2 [] (p.inOrder space) = true := by
    rw [hinOrder, Condition.allTryLong, Condition.triesLong, hlong, Bool.true_or]
  exact Bool.and_eq_true_iff.mpr ⟨rfl, List.any_eq_true.mpr ⟨row, hrow, htries⟩⟩

end DoubleEntry.Search
