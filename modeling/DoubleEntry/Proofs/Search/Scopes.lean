import DoubleEntry.Proofs.Search.Paths

/-!
# Scans and their scopes

Every scan of an array has a number of its own: the conditions of a query open the scans one, two and
so on in the order in which they are written, however predicates and the values in them nest. A path
to an element names a scan that is still open where it stands.
-/

namespace DoubleEntry.Search

/-- A path inside the data of the row, or inside the element of one of the given scans. -/
def Path.InScope (scans : List ℕ) : Path → Prop
  | data _ => True
  | element scan _ => scan ∈ scans

/-- A key further inside stays in scope. -/
theorem Path.InScope.child {scans : List ℕ} {path : Path} (h : path.InScope scans) (key : String) :
    (path.child key).InScope scans := by
  cases path with
  | data keys => trivial
  | element scan keys => exact h

namespace Condition

mutual

/-- The scans that a condition opens, in the order in which they are written. -/
def opened : Condition → List ℕ
  | .compare _ _ _ | .hasType _ _ | .isNumber _ | .glob _ _ _ | .isNull _ _ | .constant _ => []
  | .not condition => condition.opened
  | .all conditions | .any conditions => openedByAll conditions
  | .someElement scan _ condition => scan :: condition.opened

/-- The scans that conditions open, one condition after another. -/
def openedByAll : List Condition → List ℕ
  | [] => []
  | c :: rest => c.opened ++ openedByAll rest

end

mutual

/-- Whether the paths of a condition lie inside of the given scans, or of scans that it has opened
where they stand. -/
def InScope (scans : List ℕ) : Condition → Prop
  | .compare term _ _ => ∀ path ∈ term.paths, path.InScope scans
  | .hasType path _ | .isNumber path | .glob path _ _ | .isNull path _ => path.InScope scans
  | .constant _ => True
  | .not condition => condition.InScope scans
  | .all conditions | .any conditions => AllInScope scans conditions
  | .someElement scan path condition =>
    path.InScope scans ∧ condition.InScope (scan :: scans)

/-- Whether the paths of conditions are in scope. -/
def AllInScope (scans : List ℕ) : List Condition → Prop
  | [] => True
  | c :: rest => c.InScope scans ∧ AllInScope scans rest

end

/-- Scans are opened condition by condition. -/
theorem openedByAll_append (cs ds : List Condition) :
    openedByAll (cs ++ ds) = openedByAll cs ++ openedByAll ds := by
  induction cs with
  | nil => rfl
  | cons c rest ih => rw [List.cons_append, openedByAll, openedByAll, ih, List.append_assoc]

/-- Conditions are in scope one by one. -/
theorem allInScope_append {scans : List ℕ} {cs ds : List Condition} (hcs : AllInScope scans cs)
    (hds : AllInScope scans ds) : AllInScope scans (cs ++ ds) := by
  induction cs with
  | nil => exact hds
  | cons c rest ih => exact ⟨hcs.1, ih hcs.2⟩

/-- Conditions that are written after `n` scans and inside of some of them: they open the scans from
there up to `m` in order, and are in scope. -/
structure Numbered (scans : List ℕ) (n : ℕ) (cs : List Condition) (m : ℕ) : Prop where
  le : n ≤ m
  opened : openedByAll cs = List.range' (n + 1) (m - n)
  inScope : AllInScope scans cs

namespace Numbered

variable {scans : List ℕ} {n m last : ℕ} {cs ds : List Condition}

/-- A condition that opens no scan. -/
theorem leaf (c : Condition) (n : ℕ) (hopened : c.opened = []) (hscope : c.InScope scans) :
    Numbered scans n [c] n where
  le := le_rfl
  opened := by rw [openedByAll, openedByAll, hopened, Nat.sub_self, List.range'_zero, List.append_nil]
  inScope := ⟨hscope, trivial⟩

/-- Without conditions no scan is opened. -/
theorem nil (scans : List ℕ) (n : ℕ) : Numbered scans n [] n where
  le := le_rfl
  opened := by rw [openedByAll, Nat.sub_self, List.range'_zero]
  inScope := trivial

/-- What is written next goes on with the numbers. -/
theorem append (hcs : Numbered scans n cs m) (hds : Numbered scans m ds last) :
    Numbered scans n (cs ++ ds) last where
  le := hcs.le.trans hds.le
  opened := by
    have hle := hcs.le
    have hle' := hds.le
    have hstart : m + 1 = n + 1 + (m - n) := by omega
    have hlength : m - n + (last - m) = last - n := by omega
    rw [openedByAll_append, hcs.opened, hds.opened, hstart, List.range'_append_1, hlength]
  inScope := allInScope_append hcs.inScope hds.inScope

/-- A conjunction opens what its conditions do. -/
theorem all (h : Numbered scans n cs m) : Numbered scans n [.all cs] m where
  le := h.le
  opened := by rw [openedByAll, openedByAll, Condition.opened, h.opened, List.append_nil]
  inScope := ⟨h.inScope, trivial⟩

/-- A disjunction opens what its conditions do. -/
theorem any (h : Numbered scans n cs m) : Numbered scans n [.any cs] m where
  le := h.le
  opened := by rw [openedByAll, openedByAll, Condition.opened, h.opened, List.append_nil]
  inScope := ⟨h.inScope, trivial⟩

/-- A scan has the next number, and the condition for its element is inside of it. -/
theorem someElement {path : Path} {c : Condition} (hpath : path.InScope scans)
    (h : Numbered ((n + 1) :: scans) (n + 1) [c] m) :
    Numbered scans n [.someElement (n + 1) path c] m where
  le := (Nat.le_succ n).trans h.le
  opened := by
    have hopened := h.opened
    have hle := h.le
    have hlength : m - n = m - (n + 1) + 1 := by omega
    rw [openedByAll, openedByAll, List.append_nil] at hopened ⊢
    rw [Condition.opened, hopened, hlength, List.range'_succ]
  inScope := ⟨⟨hpath, h.inScope.1⟩, trivial⟩

end Numbered

variable {scans : List ℕ}

/-- The type of a value is asked for in scope. -/
theorem numbered_hasType {path : Path} (hpath : path.InScope scans) (type : JsonType) (n : ℕ) :
    Numbered scans n [.hasType path type] n := .leaf (.hasType path type) n rfl hpath

/-- The tests of a scalar open no scan. -/
theorem numbered_scalarEquals {path : Path} (hpath : path.InScope scans) (v : Json) (n : ℕ) :
    Numbered scans n [scalarEquals path v] n := by
  apply Numbered.leaf (scalarEquals path v) n
  · cases v with
    | bool b => cases b <;> rfl
    | _ => rfl
  · cases v with
    | bool b => cases b <;> exact hpath
    | _ => simpa [scalarEquals, InScope, AllInScope, Term.paths] using hpath

mutual

/-- What is asked of a value at a path in scope opens the next scans. -/
theorem numbered_containing (v : Json) {scans : List ℕ} {path : Path} (hpath : path.InScope scans)
    (n : ℕ) : Numbered scans n [(containing path n v).1] (containing path n v).2 := by
  cases v with
  | object fields =>
    exact ((numbered_hasType hpath .object n).append (numbered_containingFields fields hpath n)).all
  | array items =>
    exact ((numbered_hasType hpath .array n).append (numbered_containingItems items hpath n)).all
  | null => exact numbered_scalarEquals hpath .null n
  | bool b => exact numbered_scalarEquals hpath (.bool b) n
  | integer m => exact numbered_scalarEquals hpath (.integer m) n
  | real x => exact numbered_scalarEquals hpath (.real x) n
  | text s => exact numbered_scalarEquals hpath (.text s) n

/-- Each item opens a scan for itself before those inside of it. -/
theorem numbered_containingItems (items : List Json) {scans : List ℕ} {path : Path}
    (hpath : path.InScope scans) (n : ℕ) :
    Numbered scans n (containingItems path n items).1 (containingItems path n items).2 := by
  cases items with
  | nil => exact .nil scans n
  | cons v rest =>
    have helement : (Path.element (n + 1) []).InScope ((n + 1) :: scans) := List.mem_cons_self
    exact (Numbered.someElement hpath (numbered_containing v helement (n + 1))).append
      (numbered_containingItems rest hpath _)

/-- Fields open the scans inside of them one field after another. -/
theorem numbered_containingFields (fields : List (String × Json)) {scans : List ℕ} {path : Path}
    (hpath : path.InScope scans) (n : ℕ) :
    Numbered scans n (containingFields path n fields).1 (containingFields path n fields).2 := by
  cases fields with
  | nil => exact .nil scans n
  | cons field rest =>
    obtain ⟨key, v⟩ := field
    exact (numbered_containing v (hpath.child key) n).append
      (numbered_containingFields rest hpath _)

end

/-- What is asked of an entry opens the next scans. -/
theorem numbered_entryContaining (key : String) (n : ℕ) (value : Json) :
    Numbered scans n [(entryContaining key n value).1] (entryContaining key n value).2 := by
  have hpath : (Path.data [key]).InScope scans := trivial
  have helement : (Path.element (n + 1) []).InScope ((n + 1) :: scans) := List.mem_cons_self
  have hscalar : ∀ v, Numbered scans n [.any [scalarEquals (.data [key]) v,
      .all [.hasType (.data [key]) .array, .someElement (n + 1) (.data [key])
        (scalarEquals (.element (n + 1) []) v)]]] (n + 1) := by
    intro v
    have hscan := Numbered.someElement hpath (numbered_scalarEquals helement v (n + 1))
    have hinside := ((numbered_hasType hpath .array n).append hscan).all
    exact ((numbered_scalarEquals hpath v n).append hinside).any
  cases value with
  | object fields => exact numbered_containing (.object fields) hpath n
  | array items => exact numbered_containing (.array items) hpath n
  | null => exact hscalar .null
  | bool b => exact hscalar (.bool b)
  | integer m => exact hscalar (.integer m)
  | real x => exact hscalar (.real x)
  | text s => exact hscalar (.text s)

end Condition

open Condition (Numbered)

mutual

/-- The condition of a predicate opens the next scans. -/
theorem Predicate.numbered_condition (p : Predicate) (n : ℕ) :
    Numbered [] n [(p.condition n).1] (p.condition n).2 := by
  cases p with
  | contains key value => exact Condition.numbered_entryContaining key n value
  | anyOf predicates =>
    cases predicates with
    | nil => exact .leaf (.constant false) n rfl trivial
    | cons p rest => exact (Predicate.numbered_conditions (p :: rest) n).any
  | allOf predicates =>
    cases predicates with
    | nil => exact .leaf (.constant true) n rfl trivial
    | cons p rest => exact (Predicate.numbered_conditions (p :: rest) n).all
  | column | numeric | numericOrText | text | bool | null =>
    apply Numbered.leaf (Predicate.condition n _).1 n rfl
    simp [Predicate.condition, Condition.numberLike, Condition.decimalText, Condition.InScope,
      Condition.AllInScope, Term.paths, Path.InScope]

/-- The conditions of predicates open scans one predicate after another. -/
theorem Predicate.numbered_conditions (ps : List Predicate) (n : ℕ) :
    Numbered [] n (Predicate.conditions n ps).1 (Predicate.conditions n ps).2 := by
  cases ps with
  | nil => exact .nil [] n
  | cons p rest =>
    exact (Predicate.numbered_condition p n).append (Predicate.numbered_conditions rest _)

end

/-- The conditions of items open scans one item after another. -/
theorem Item.numbered_conditions (items : List Item) (n : ℕ) :
    Numbered [] n (Item.conditions n items).1 (Item.conditions n items).2 := by
  induction items generalizing n with
  | nil => exact .nil [] n
  | cons item rest ih => exact (Predicate.numbered_conditions item n).all.append (ih _)

/-- The conditions of a plan open the scans from one on. -/
theorem Plan.exists_numbered (p : Plan) : ∃ n, Numbered [] 0 p.conditions n := by
  have hmust := Item.numbered_conditions p.must 0
  rw [Plan.conditions]
  dsimp only
  split_ifs
  · exact ⟨_, hmust⟩
  · exact ⟨_, hmust.append (Item.numbered_conditions p.should _).any⟩

end DoubleEntry.Search
