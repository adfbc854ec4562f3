import DoubleEntry.Proofs.Search.Constraints
import DoubleEntry.Proofs.Transaction.Validity

/-!
# Well formed paths

Every key of an accepted query has been checked: the subjects of its constraints, and the keys inside
of values to be contained. So the conditions of a plan look only along paths whose keys are made of
letters and underscores, however deep the values nest that they are written for.
-/

namespace DoubleEntry.Search

/-- A path that starts with a key, or at the element of a scan, and whose keys are all made of
letters and underscores. -/
def Path.IsWellFormed : Path → Prop
  | data keys => keys ≠ [] ∧ ∀ key ∈ keys, DataKey.Matches key
  | element _ keys => ∀ key ∈ keys, DataKey.Matches key

/-- The path in the left side of a comparison. -/
def Term.paths : Term → List Path
  | column _ => []
  | extract path | double path => [path]

/-- The keys that pass their check are made of letters and underscores. -/
theorem Predicate.checkKey_eq_ok_iff {key : String} :
    checkKey key = .ok () ↔ DataKey.Matches key := by
  rw [← DataKey.isValid_iff, checkKey]
  split_ifs with hvalid <;> simp [hvalid]

namespace Condition

mutual

/-- The paths along which a condition looks. -/
def paths : Condition → List Path
  | .compare term _ _ => term.paths
  | .hasType path _ | .isNumber path | .glob path _ _ | .isNull path _ => [path]
  | .constant _ => []
  | .not condition => condition.paths
  | .all conditions | .any conditions => pathsOfAll conditions
  | .someElement _ path condition => path :: condition.paths

/-- The paths along which conditions look. -/
def pathsOfAll : List Condition → List Path
  | [] => []
  | c :: rest => c.paths ++ pathsOfAll rest

end

/-- A condition that looks only along well formed paths. -/
def IsWellFormed (c : Condition) : Prop := ∀ path ∈ c.paths, path.IsWellFormed

/-- Conditions look along the paths of each of them. -/
theorem forall_mem_pathsOfAll {P : Path → Prop} {cs : List Condition} :
    (∀ path ∈ pathsOfAll cs, P path) ↔ ∀ c ∈ cs, ∀ path ∈ c.paths, P path := by
  induction cs with
  | nil => simp [pathsOfAll]
  | cons c rest ih => rw [pathsOfAll, List.forall_mem_append, ih, List.forall_mem_cons]

/-- A conjunction is well formed when all its conditions are. -/
theorem isWellFormed_all {cs : List Condition} :
    (Condition.all cs).IsWellFormed ↔ ∀ c ∈ cs, c.IsWellFormed := forall_mem_pathsOfAll

/-- A disjunction is well formed when all its conditions are. -/
theorem isWellFormed_any {cs : List Condition} :
    (Condition.any cs).IsWellFormed ↔ ∀ c ∈ cs, c.IsWellFormed := forall_mem_pathsOfAll

variable {path : Path}

/-- A key further inside keeps a path well formed. -/
theorem isWellFormed_child {key : String} (hpath : path.IsWellFormed)
    (hkey : DataKey.Matches key) : (path.child key).IsWellFormed := by
  cases path with
  | data keys =>
    refine ⟨by simp, fun k hk => ?_⟩
    exact (List.mem_append.mp hk).elim (hpath.2 k) fun h => List.mem_singleton.mp h ▸ hkey
  | element scan keys =>
    exact fun k hk =>
      (List.mem_append.mp hk).elim (hpath k) fun h => List.mem_singleton.mp h ▸ hkey

/-- The element of a scan is a well formed path. -/
theorem isWellFormed_element (scan : Nat) : (Path.element scan []).IsWellFormed :=
  fun _ h => absurd h List.not_mem_nil

/-- The tests of a scalar look along one path. -/
theorem isWellFormed_scalarEquals (hpath : path.IsWellFormed) (v : Json) :
    (scalarEquals path v).IsWellFormed := by
  cases v with
  | bool b => cases b <;> simpa [scalarEquals, IsWellFormed, paths] using hpath
  | _ => simpa [scalarEquals, IsWellFormed, paths, pathsOfAll, Term.paths] using hpath

mutual

/-- A value whose keys have been checked is asked for along well formed paths. -/
theorem isWellFormed_containing (v : Json) (hv : Predicate.checkInside v = .ok ())
    {path : Path} (hpath : path.IsWellFormed) (n : Nat) :
    (containing path n v).1.IsWellFormed := by
  have htype : ∀ type, (hasType path type).IsWellFormed := fun type p hp =>
    List.mem_singleton.mp hp ▸ hpath
  cases v with
  | object fields =>
    exact isWellFormed_all.mpr (List.forall_mem_cons.mpr
      ⟨htype .object, isWellFormed_containingFields fields hv hpath n⟩)
  | array items =>
    exact isWellFormed_all.mpr (List.forall_mem_cons.mpr
      ⟨htype .array, isWellFormed_containingItems items hv hpath n⟩)
  | null => exact isWellFormed_scalarEquals hpath .null
  | bool b => exact isWellFormed_scalarEquals hpath (.bool b)
  | integer m => exact isWellFormed_scalarEquals hpath (.integer m)
  | real x => exact isWellFormed_scalarEquals hpath (.real x)
  | text s => exact isWellFormed_scalarEquals hpath (.text s)

/-- Items are asked for along well formed paths. -/
theorem isWellFormed_containingItems (items : List Json)
    (hitems : Predicate.checkItems items = .ok ()) {path : Path} (hpath : path.IsWellFormed)
    (n : Nat) : ∀ c ∈ (containingItems path n items).1, c.IsWellFormed := by
  cases items with
  | nil => exact fun c hc => absurd hc List.not_mem_nil
  | cons v rest =>
    obtain ⟨_, hv, hrest⟩ := bind_eq_ok_iff.mp hitems
    refine List.forall_mem_cons.mpr ⟨?_, isWellFormed_containingItems rest hrest hpath _⟩
    exact List.forall_mem_cons.mpr
      ⟨hpath, isWellFormed_containing v hv (isWellFormed_element (n + 1)) (n + 1)⟩

/-- Fields are asked for along well formed paths. -/
theorem isWellFormed_containingFields (fields : List (String × Json))
    (hfields : Predicate.checkFields fields = .ok ()) {path : Path} (hpath : path.IsWellFormed)
    (n : Nat) : ∀ c ∈ (containingFields path n fields).1, c.IsWellFormed := by
  cases fields with
  | nil => exact fun c hc => absurd hc List.not_mem_nil
  | cons field rest =>
    obtain ⟨key, v⟩ := field
    obtain ⟨_, hkey, h⟩ := bind_eq_ok_iff.mp hfields
    obtain ⟨_, hv, hrest⟩ := bind_eq_ok_iff.mp h
    refine List.forall_mem_cons.mpr ⟨?_, isWellFormed_containingFields rest hrest hpath _⟩
    exact isWellFormed_containing v hv
      (isWellFormed_child hpath (Predicate.checkKey_eq_ok_iff.mp hkey)) n

end

end Condition

/-! ## Predicates -/

namespace Predicate

/-- A predicate all of whose keys have been checked. -/
inductive KeysMatch : Predicate → Prop where
  | column (column : Column) (comparator : Comparator) (operand : Operand) :
      KeysMatch (.column column comparator operand)
  | contains {key : String} {value : Json} (hkey : DataKey.Matches key)
      (hvalue : checkInside value = .ok ()) : KeysMatch (.contains key value)
  | numeric {key : String} (hkey : DataKey.Matches key) (r : Relation) (number : Operand) :
      KeysMatch (.numeric key r number)
  | numericOrText {key : String} (hkey : DataKey.Matches key) (r : Relation) (number : Operand)
      (words : String) : KeysMatch (.numericOrText key r number words)
  | text {key : String} (hkey : DataKey.Matches key) (comparator : Comparator) (words : String) :
      KeysMatch (.text key comparator words)
  | bool {key : String} (hkey : DataKey.Matches key) (expected : Bool) :
      KeysMatch (.bool key expected)
  | null {key : String} (hkey : DataKey.Matches key) (negated : Bool) :
      KeysMatch (.null key negated)
  | anyOf {predicates : List Predicate} (h : ∀ p ∈ predicates, KeysMatch p) :
      KeysMatch (.anyOf predicates)
  | allOf {predicates : List Predicate} (h : ∀ p ∈ predicates, KeysMatch p) :
      KeysMatch (.allOf predicates)

variable {column : Column} {comparator : Comparator} {key op : String} {operand : Json}
  {p : Predicate}

/-- A comparison of a column has no keys. -/
theorem keysMatch_ofColumn (h : ofColumn column comparator op operand = .ok p) : p.KeysMatch := by
  unfold ofColumn at h
  repeat' split at h
  all_goals cases h
  all_goals constructor

/-- A comparison of an entry has its key. -/
theorem keysMatch_ofEntry (hkey : DataKey.Matches key)
    (h : ofEntry key comparator op operand = .ok p) : p.KeysMatch := by
  unfold ofEntry at h
  repeat' split at h
  all_goals cases h
  all_goals constructor
  all_goals exact hkey

/-- The predicate of a constraint has checked keys. -/
theorem keysMatch_of_constraint {space : Namespace} {c : Constraint}
    (h : c.predicate space = .ok p) : p.KeysMatch := by
  cases c with
  | field name op operand =>
    obtain ⟨_, -, h⟩ := bind_eq_ok_iff.mp h
    obtain ⟨column, -, h⟩ := bind_eq_ok_iff.mp h
    obtain ⟨operator, -, h⟩ := bind_eq_ok_iff.mp h
    cases operator with
    | compare comparator => exact keysMatch_ofColumn h
    | member negated =>
      obtain ⟨elements, -, h⟩ := bind_eq_ok_iff.mp h
      exact of_ofMembers (fun _ => .anyOf) (fun _ => .allOf)
        (fun r element p => keysMatch_ofColumn) h
    | null negated => exact absurd h (by simp)
  | term key value =>
    obtain ⟨_, hkey, h⟩ := bind_eq_ok_iff.mp h
    obtain ⟨_, hvalue, h⟩ := bind_eq_ok_iff.mp h
    obtain rfl := Except.ok.inj h
    exact .contains (checkKey_eq_ok_iff.mp hkey) hvalue
  | range key op operand =>
    obtain ⟨_, hkey, h⟩ := bind_eq_ok_iff.mp h
    have hkey := checkKey_eq_ok_iff.mp hkey
    obtain ⟨operator, -, h⟩ := bind_eq_ok_iff.mp h
    cases operator with
    | compare comparator => exact keysMatch_ofEntry hkey h
    | member negated =>
      obtain ⟨elements, -, h⟩ := bind_eq_ok_iff.mp h
      exact of_ofMembers (fun _ => .anyOf) (fun _ => .allOf)
        (fun r element p => keysMatch_ofEntry hkey) h
    | null negated =>
      dsimp only at h
      split at h
      · obtain rfl := Except.ok.inj h
        exact .null hkey negated
      · exact absurd h (by simp)

end Predicate

/-! ## Plans -/

/-- A path of one checked key is well formed. -/
theorem Path.isWellFormed_key {key : String} (hkey : DataKey.Matches key) :
    (Path.data [key]).IsWellFormed :=
  ⟨by simp, fun k hk => List.mem_singleton.mp hk ▸ hkey⟩

/-- An entry with a checked key is asked for values with checked keys along well formed paths. -/
theorem Condition.isWellFormed_entryContaining {key : String} (hkey : DataKey.Matches key)
    {value : Json} (hvalue : Predicate.checkInside value = .ok ()) (n : Nat) :
    (entryContaining key n value).1.IsWellFormed := by
  have hpath := Path.isWellFormed_key hkey
  have hscalar : ∀ v, (Condition.any [scalarEquals (.data [key]) v,
      .all [.hasType (.data [key]) .array, .someElement (n + 1) (.data [key])
        (scalarEquals (.element (n + 1) []) v)]]).IsWellFormed := by
    intro v
    have helement := isWellFormed_scalarEquals (isWellFormed_element (n + 1)) v
    refine isWellFormed_any.mpr (List.forall_mem_cons.mpr
      ⟨isWellFormed_scalarEquals hpath v, List.forall_mem_singleton.mpr ?_⟩)
    refine isWellFormed_all.mpr (List.forall_mem_cons.mpr
      ⟨fun p hp => List.mem_singleton.mp hp ▸ hpath, List.forall_mem_singleton.mpr ?_⟩)
    exact List.forall_mem_cons.mpr ⟨hpath, helement⟩
  cases value with
  | object fields => exact isWellFormed_containing (.object fields) hvalue hpath n
  | array items => exact isWellFormed_containing (.array items) hvalue hpath n
  | null => exact hscalar .null
  | bool b => exact hscalar (.bool b)
  | integer m => exact hscalar (.integer m)
  | real x => exact hscalar (.real x)
  | text s => exact hscalar (.text s)

namespace Predicate

open Condition

mutual

/-- The condition of a predicate with checked keys looks along well formed paths. -/
theorem isWellFormed_condition (p : Predicate) (hp : p.KeysMatch) (n : Nat) :
    (p.condition n).1.IsWellFormed := by
  cases p with
  | column c comparator operand => exact fun path hpath => absurd hpath List.not_mem_nil
  | contains key value =>
    cases hp with
    | contains hkey hvalue => exact isWellFormed_entryContaining hkey hvalue n
  | numeric key r number =>
    cases hp with
    | numeric hkey =>
      simpa [condition, numberLike, decimalText, IsWellFormed, paths, pathsOfAll, Term.paths] using
        Path.isWellFormed_key hkey
  | numericOrText key r number words =>
    cases hp with
    | numericOrText hkey =>
      simpa [condition, numberLike, decimalText, IsWellFormed, paths, pathsOfAll, Term.paths] using
        Path.isWellFormed_key hkey
  | text key comparator words =>
    cases hp with
    | text hkey =>
      simpa [condition, IsWellFormed, paths, pathsOfAll, Term.paths] using
        Path.isWellFormed_key hkey
  | bool key expected =>
    cases hp with
    | bool hkey => exact List.forall_mem_singleton.mpr (Path.isWellFormed_key hkey)
  | null key negated =>
    cases hp with
    | null hkey => exact List.forall_mem_singleton.mpr (Path.isWellFormed_key hkey)
  | anyOf predicates =>
    cases hp with
    | anyOf h =>
      cases predicates with
      | nil => exact fun path hpath => absurd hpath List.not_mem_nil
      | cons p rest => exact isWellFormed_any.mpr (isWellFormed_conditions (p :: rest) h n)
  | allOf predicates =>
    cases hp with
    | allOf h =>
      cases predicates with
      | nil => exact fun path hpath => absurd hpath List.not_mem_nil
      | cons p rest => exact isWellFormed_all.mpr (isWellFormed_conditions (p :: rest) h n)

/-- The conditions of predicates with checked keys look along well formed paths. -/
theorem isWellFormed_conditions (ps : List Predicate) (hps : ∀ p ∈ ps, p.KeysMatch) (n : Nat) :
    ∀ c ∈ (Predicate.conditions n ps).1, c.IsWellFormed := by
  cases ps with
  | nil => exact fun c hc => absurd hc List.not_mem_nil
  | cons p rest =>
    obtain ⟨hp, hrest⟩ := List.forall_mem_cons.mp hps
    exact List.forall_mem_cons.mpr
      ⟨isWellFormed_condition p hp n, isWellFormed_conditions rest hrest _⟩

end

end Predicate

/-- The conditions of items with checked keys look along well formed paths. -/
theorem Item.isWellFormed_conditions {items : List Item}
    (h : ∀ item ∈ items, ∀ p ∈ item, p.KeysMatch) (n : Nat) :
    ∀ c ∈ (Item.conditions n items).1, c.IsWellFormed := by
  induction items generalizing n with
  | nil => exact fun c hc => absurd hc List.not_mem_nil
  | cons item rest ih =>
    obtain ⟨hitem, hrest⟩ := List.forall_mem_cons.mp h
    exact List.forall_mem_cons.mpr ⟨Condition.isWellFormed_all.mpr
      (Predicate.isWellFormed_conditions item hitem n), ih hrest _⟩

/-- The items of an accepted group have checked keys. -/
theorem Clause.keysMatch_of_items {space : Namespace} {c : Clause} {items : List Item}
    (h : c.items space = .ok items) : ∀ item ∈ items, ∀ p ∈ item, p.KeysMatch := by
  intro item hitem p hp
  obtain ⟨_, -, _, -, hpredicate⟩ := Clause.exists_constraint h hitem hp
  exact Predicate.keysMatch_of_constraint hpredicate

/-- The conditions of an accepted query look along well formed paths. -/
theorem Query.isWellFormed_conditions {space : Namespace} {q : Query} {p : Plan}
    (h : q.plan space = .ok p) : ∀ c ∈ p.conditions, c.IsWellFormed := by
  obtain ⟨hmust, hshould, -, -⟩ := Query.plan_eq_ok_iff.mp h
  have hmusts := Item.isWellFormed_conditions (Clause.keysMatch_of_items hmust) 0
  rw [Plan.conditions]
  dsimp only
  split_ifs
  · exact hmusts
  · refine List.forall_mem_append.mpr ⟨hmusts, List.forall_mem_singleton.mpr ?_⟩
    exact Condition.isWellFormed_any.mpr
      (Item.isWellFormed_conditions (Clause.keysMatch_of_items hshould) _)

end DoubleEntry.Search
