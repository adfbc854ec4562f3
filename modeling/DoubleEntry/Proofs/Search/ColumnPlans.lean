import DoubleEntry.Proofs.Search.Constraints
import DoubleEntry.Proofs.Search.Verdicts

/-!
# Plans that look at columns only

Conditions that compare columns, joined by "and" and "or", are always decided before the data of a
row is looked at, and in whatever order they are asked. So a plan of such conditions gives the same
verdict on a row whatever its data is like, also when it cannot be read. A constraint on a column
has such a plan, and a search for it finds the headers of which its predicate holds.
-/

namespace DoubleEntry.Search

variable {column : Column → Value} {data : Json} {scans : Scans}

/-! ## Conditions -/

namespace Condition

/-- A condition that compares columns, or joins such conditions by "and" and "or". -/
inductive OnColumns : Condition → Prop
  | compare (k : Column) (comparator : Comparator) (operand : Operand) :
      OnColumns (.compare (.column k) comparator operand)
  | constant (value : Bool) : OnColumns (.constant value)
  | all {conditions : List Condition} (h : ∀ c ∈ conditions, OnColumns c) :
      OnColumns (.all conditions)
  | any {conditions : List Condition} (h : ∀ c ∈ conditions, OnColumns c) :
      OnColumns (.any conditions)

/-- A conjunction of decided conditions is decided. -/
theorem allOfColumns?_eq {cs : List Condition} {verdict : Condition → Bool}
    (h : ∀ c ∈ cs, c.truthOfColumns? column = some (verdict c)) :
    allOfColumns? column cs = some (cs.all verdict) := by
  induction cs with
  | nil => rfl
  | cons c rest ih =>
    obtain ⟨hc, hrest⟩ := List.forall_mem_cons.mp h
    rw [allOfColumns?, hc, List.all_cons]
    cases verdict c with
    | true => exact ih hrest
    | false => rfl

/-- A disjunction of decided conditions is decided. -/
theorem anyOfColumns?_eq {cs : List Condition} {verdict : Condition → Bool}
    (h : ∀ c ∈ cs, c.truthOfColumns? column = some (verdict c)) :
    anyOfColumns? column cs = some (cs.any verdict) := by
  induction cs with
  | nil => rfl
  | cons c rest ih =>
    obtain ⟨hc, hrest⟩ := List.forall_mem_cons.mp h
    rw [anyOfColumns?, hc, List.any_cons]
    cases verdict c with
    | true => rfl
    | false => exact ih hrest

/-- A condition on columns is decided without the data, as it is with any data. -/
theorem OnColumns.truthOfColumns?_eq {c : Condition} (h : c.OnColumns) (column : Column → Value)
    (data : Json) (scans : Scans) :
    c.truthOfColumns? column = some (c.truth ⟨column, data⟩ scans).isYes := by
  induction h with
  | compare k comparator operand => rfl
  | constant value => rw [truthOfColumns?, truth, Truth.isYes_ofBool]
  | all _ ih => rw [truthOfColumns?, allOfColumns?_eq ih, truth, isYes_truthOfAll]
  | any _ ih => rw [truthOfColumns?, anyOfColumns?_eq ih, truth, isYes_truthOfAny]

mutual

/-- The conditions that a condition on columns joins by "and" are on columns. -/
theorem OnColumns.conjuncts {c : Condition} (h : c.OnColumns) : ∀ k ∈ c.conjuncts, k.OnColumns := by
  cases h with
  | compare | constant =>
    intro k hk
    obtain rfl := List.mem_singleton.mp hk
    constructor
  | all h => exact onColumns_conjunctsOf h
  | @any conditions h =>
    match conditions with
    | [c] =>
      have hc : ∀ k ∈ c.conjuncts, k.OnColumns := OnColumns.conjuncts (h c List.mem_cons_self)
      exact hc
    | [] | _ :: _ :: _ =>
      intro k hk
      obtain rfl := List.mem_singleton.mp hk
      exact .any h

/-- The conditions that conditions on columns join by "and" are on columns. -/
theorem onColumns_conjunctsOf {cs : List Condition} (h : ∀ c ∈ cs, c.OnColumns) :
    ∀ k ∈ conjunctsOf cs, k.OnColumns := by
  cases cs with
  | nil => simp [conjunctsOf]
  | cons c rest =>
    obtain ⟨hc, hrest⟩ := List.forall_mem_cons.mp h
    intro k hk
    rcases List.mem_append.mp hk with hk | hk
    · exact OnColumns.conjuncts hc k hk
    · exact onColumns_conjunctsOf hrest k hk

end

end Condition

/-! ## Predicates -/

namespace Predicate

/-- A predicate that compares columns, or asks for some or all of such predicates. -/
inductive OnColumns : Predicate → Prop
  | column (k : Column) (comparator : Comparator) (operand : Operand) :
      OnColumns (.column k comparator operand)
  | anyOf {ps : List Predicate} (h : ∀ p ∈ ps, OnColumns p) : OnColumns (.anyOf ps)
  | allOf {ps : List Predicate} (h : ∀ p ∈ ps, OnColumns p) : OnColumns (.allOf ps)

/-- The conditions of predicates are on columns when each of them is. -/
theorem onColumns_conditions {ps : List Predicate}
    (h : ∀ p ∈ ps, ∀ n, (p.condition n).1.OnColumns) (n : ℕ) :
    ∀ c ∈ (conditions n ps).1, c.OnColumns := by
  induction ps generalizing n with
  | nil => exact fun _ hc => absurd hc List.not_mem_nil
  | cons p rest ih =>
    obtain ⟨hp, hrest⟩ := List.forall_mem_cons.mp h
    rw [conditions]
    exact List.forall_mem_cons.mpr ⟨hp n, ih hrest _⟩

/-- The condition of a predicate on columns is on columns. -/
theorem OnColumns.condition {p : Predicate} (h : p.OnColumns) (n : ℕ) :
    (p.condition n).1.OnColumns := by
  induction h generalizing n with
  | column k comparator operand => exact .compare k comparator operand
  | @anyOf ps _ ih =>
    cases ps with
    | nil => exact .constant false
    | cons q rest => exact .any (onColumns_conditions ih n)
  | @allOf ps _ ih =>
    cases ps with
    | nil => exact .constant true
    | cons q rest => exact .all (onColumns_conditions ih n)

/-- What asks for one column is on columns. -/
theorem onColumns_ofColumn {k : Column} {comparator : Comparator} {op : String} {v : Json}
    {p : Predicate} (h : ofColumn k comparator op v = .ok p) : p.OnColumns := by
  unfold ofColumn at h
  repeat' split at h
  all_goals cases h
  all_goals constructor

/-- An operator of a column is on columns. -/
theorem onColumns_ofField {k : Column} {op : String} {v : Json} {p : Predicate}
    (h : ofField k op v = .ok p) : p.OnColumns := by
  obtain ⟨operator, -, h⟩ := bind_eq_ok_iff.mp h
  cases operator with
  | compare comparator => exact onColumns_ofColumn h
  | null negated => exact absurd h (by simp)
  | member negated =>
    obtain ⟨vs, -, h⟩ := bind_eq_ok_iff.mp h
    exact of_ofMembers (fun _ => .anyOf) (fun _ => .allOf) (fun _ _ _ => onColumns_ofColumn) h

end Predicate

/-! ## Plans -/

namespace Plan

variable {p : Plan}

/-- A plan of conditions on columns gives its verdict whatever the data is like. -/
theorem admits_of_onColumns (space : Namespace) (h : ∀ c ∈ p.conditions, c.OnColumns)
    (column : Column → Value) (data : Option String) :
    p.admits space column data = .ok (Condition.allMet ⟨column, .null⟩ p.conditions) := by
  have hverdict : ∀ v, Condition.allOfColumns? column p.conditions =
      some (Condition.allMet ⟨column, v⟩ p.conditions) := by
    intro v
    rw [Condition.allMet, Condition.isYes_truthOfAll]
    exact Condition.allOfColumns?_eq fun c hc => (h c hc).truthOfColumns?_eq column v []
  unfold admits
  cases storedValue? data with
  | some v => exact congrArg Except.ok (Option.some.inj ((hverdict v).symm.trans (hverdict .null)))
  | none =>
    have hperm := p.perm_inOrder space
    have hverdicts : ∀ c ∈ p.inOrder space,
        c.truthOfColumns? column = some (c.truth ⟨column, .null⟩ []).isYes := fun c hc =>
      (Condition.onColumns_conjunctsOf h c (hperm.mem_iff.mp hc)).truthOfColumns?_eq column .null []
    rw [Condition.allOfColumns?_eq hverdicts, hperm.all_eq, conjuncts,
      Condition.all_isYes_conjunctsOf, Condition.allMet, Condition.isYes_truthOfAll]

/-- A plan with one predicate on columns gives the verdict of the predicate whatever the data is
like. -/
theorem admits_singleton (space : Namespace) {predicate : Predicate} (h : predicate.OnColumns)
    (htexts : predicate.MatchesTexts) {column : Column → Value}
    (hrow : Row.HasTexts ⟨column, .null⟩) (data : Option String) :
    admits space ⟨[[predicate]], [], none, none⟩ column data =
      .ok (predicate.holds ⟨column, .null⟩) := by
  have hconditions : ∀ c ∈ conditions ⟨[[predicate]], [], none, none⟩, c.OnColumns :=
    List.forall_mem_singleton.mpr (.all (List.forall_mem_singleton.mpr (h.condition 0)))
  have hp : Plan.MatchesTexts ⟨[[predicate]], [], none, none⟩ := by
    simpa [Plan.MatchesTexts] using htexts
  rw [admits_of_onColumns space hconditions, allMet_conditions hrow hp]
  simp [holds]

end Plan

/-- A search for a constraint on a column reads the headers of which its predicate holds, whatever
their data is like. -/
theorem Constraint.run_field {name op : String} {v : Json} {p : Predicate} {s : Store}
    (hp : (field name op v).predicate .transactions = .ok p) (hopen : s.isOpen = true) :
    (field name op v).query.run .transactions s =
      (((headersInOrder s.tables).filter fun header => p.holds ⟨headerColumn header, .null⟩).mapM
        fun header => readTransaction (transactionRow s.tables header)).map .transactions := by
  obtain ⟨column, -, hfield⟩ := predicate_field_eq_ok_iff.mp hp
  have hplan : (field name op v).query.plan .transactions = .ok ⟨[[p]], [], none, none⟩ := by
    rw [plan_query, hp]
    rfl
  have hadmits : ∀ header ∈ headersInOrder s.tables,
      Plan.admits .transactions ⟨[[p]], [], none, none⟩ (headerColumn header) header.data =
        .ok (p.holds ⟨headerColumn header, .null⟩) := fun header _ =>
    Plan.admits_singleton .transactions (Predicate.onColumns_ofField hfield)
      (isPlanned_of_predicate hp).matchesTexts (hasTexts_headerColumn header .null) header.data
  have hheaders : Plan.headers ⟨[[p]], [], none, none⟩ s.tables =
      .ok ((headersInOrder s.tables).filter fun header =>
        p.holds ⟨headerColumn header, .null⟩) := by
    rw [Plan.headers, if_neg (by simp [Plan.isEmpty]), filterM_eq_ok hadmits]
    exact congrArg Except.ok (Plan.page_of_none rfl rfl _)
  rw [Query.run, hplan, Except.mapError, Store.bind_of_eq_ok rfl, Plan.run_of_open hopen]
  dsimp only
  rw [hheaders, Except.mapError, Store.bind_of_eq_ok rfl]
  cases ((headersInOrder s.tables).filter fun header =>
    p.holds ⟨headerColumn header, .null⟩).mapM fun header =>
      readTransaction (transactionRow s.tables header) <;> rfl

end DoubleEntry.Search
