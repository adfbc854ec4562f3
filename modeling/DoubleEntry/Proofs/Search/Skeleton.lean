import DoubleEntry.Proofs.Search.Outline

/-!
# The text of a statement

Conditions have outlines too, without keys and operands, and their pieces have outlines without
operands. What is written for a predicate depends on its outline alone: every key becomes part of a
path, every path to an operand, and every text and number to an operand. So nothing of a query
document gets into the text of a statement but what is in its outline.
-/

namespace DoubleEntry.Search

/-! ## Outlines of conditions -/

/-- A path without its keys, of which their number is kept. -/
def Path.outline : Path → Path
  | data keys => data (keys.map fun _ => anyKey)
  | element scan keys => element scan (keys.map fun _ => anyKey)

/-- The left side of a comparison without the keys in its path. -/
def Term.outline : Term → Term
  | column c => column c
  | extract path => extract path.outline
  | double path => double path.outline

namespace Condition

mutual

/-- A condition without its keys and operands. -/
def outline : Condition → Condition
  | .compare term comparator _ => .compare term.outline comparator (.integer 0)
  | .hasType path type => .hasType path.outline type
  | .isNumber path => .isNumber path.outline
  | .glob path negated test => .glob path.outline negated test
  | .isNull path negated => .isNull path.outline negated
  | .constant value => .constant value
  | .not condition => .not condition.outline
  | .all conditions => .all (outlines conditions)
  | .any conditions => .any (outlines conditions)
  | .someElement scan path condition => .someElement scan path.outline condition.outline

/-- Conditions without their keys and operands. -/
def outlines : List Condition → List Condition
  | [] => []
  | c :: rest => c.outline :: outlines rest

end

/-- Outlines are taken one by one. -/
theorem outlines_append (cs ds : List Condition) : outlines (cs ++ ds) = outlines cs ++ outlines ds := by
  induction cs with
  | nil => rfl
  | cons c rest ih => rw [List.cons_append, outlines, outlines, ih, List.cons_append]

end Condition

/-- One key further inside any key is given up. -/
theorem Path.outline_child (key : String) (path : Path) :
    (path.child key).outline = path.outline.child anyKey := by
  cases path <;> simp [child, outline]

/-! ## From predicates to conditions -/

/-- Two conditions have one outline, and as many scans are opened up to the one as up to the other. -/
def SameOutline (a b : Condition × Nat) : Prop := a.1.outline = b.1.outline ∧ a.2 = b.2

/-- Conditions have one outline one by one, and as many scans are opened up to the last ones. -/
def SameOutlines (a b : List Condition × Nat) : Prop :=
  Condition.outlines a.1 = Condition.outlines b.1 ∧ a.2 = b.2

namespace Condition

/-- What is asked of a scalar depends on the outlines of path and scalar. -/
theorem outline_scalarEquals {a b : Path} (h : a.outline = b.outline) (scalar : Json) :
    (scalarEquals a scalar.outline).outline = (scalarEquals b scalar).outline := by
  cases scalar with
  | bool value => cases value <;> simp [scalarEquals, Json.outline, outline, h]
  | _ => simp [scalarEquals, Json.outline, outline, outlines, Term.outline, h]

-- A field of the outline lies under another key than the field itself, so the induction on the value
-- is for two paths with one outline and not for one path.
mutual

/-- What is written for a value to be contained depends on the outlines of path and value. -/
theorem sameOutline_containing (v : Json) {a b : Path} (h : a.outline = b.outline) (n : Nat) :
    SameOutline (containing a n v.outline) (containing b n v) := by
  cases v with
  | object fields =>
    obtain ⟨hinner, hscans⟩ := sameOutlines_containingFields fields h n
    refine ⟨?_, hscans⟩
    rw [Json.outline, containing, containing, outline, outline, outlines, outlines, outline, outline,
      h, hinner]
  | array items =>
    obtain ⟨hinner, hscans⟩ := sameOutlines_containingItems items h n
    refine ⟨?_, hscans⟩
    rw [Json.outline, containing, containing, outline, outline, outlines, outlines, outline, outline,
      h, hinner]
  | null => exact ⟨outline_scalarEquals h .null, rfl⟩
  | bool value => exact ⟨outline_scalarEquals h (.bool value), rfl⟩
  | integer m => exact ⟨outline_scalarEquals h (.integer m), rfl⟩
  | real x => exact ⟨outline_scalarEquals h (.real x), rfl⟩
  | text s => exact ⟨outline_scalarEquals h (.text s), rfl⟩

/-- What is written for items depends on their outlines. -/
theorem sameOutlines_containingItems (items : List Json) {a b : Path} (h : a.outline = b.outline)
    (n : Nat) :
    SameOutlines (containingItems a n (Json.outlineItems items)) (containingItems b n items) := by
  cases items with
  | nil => exact ⟨rfl, rfl⟩
  | cons v rest =>
    have hpath : (Path.element (n + 1) []).outline = (Path.element (n + 1) []).outline := rfl
    obtain ⟨hfirst, hscans⟩ := sameOutline_containing v hpath (n + 1)
    obtain ⟨hrest, hlast⟩ := sameOutlines_containingItems rest h
      (containing (.element (n + 1) []) (n + 1) v).2
    rw [Json.outlineItems, containingItems, containingItems]
    dsimp only
    rw [hscans]
    refine ⟨?_, hlast⟩
    rw [outlines, outlines, outline, outline, h, hfirst, hrest]

/-- What is written for fields depends on their outlines. -/
theorem sameOutlines_containingFields (fields : List (String × Json)) {a b : Path}
    (h : a.outline = b.outline) (n : Nat) :
    SameOutlines (containingFields a n (Json.outlineFields fields)) (containingFields b n fields) := by
  cases fields with
  | nil => exact ⟨rfl, rfl⟩
  | cons field rest =>
    obtain ⟨key, v⟩ := field
    have hpath : (a.child anyKey).outline = (b.child key).outline := by
      rw [Path.outline_child, Path.outline_child, h]
    obtain ⟨hfirst, hscans⟩ := sameOutline_containing v hpath n
    obtain ⟨hrest, hlast⟩ := sameOutlines_containingFields rest h (containing (b.child key) n v).2
    rw [Json.outlineFields, containingFields, containingFields]
    dsimp only
    rw [hscans]
    refine ⟨?_, hlast⟩
    rw [outlines, outlines, hfirst, hrest]

end

/-- What is written for a value to be contained in an entry depends on the outline of the value. -/
theorem sameOutline_entryContaining (key : String) (n : Nat) (value : Json) :
    SameOutline (entryContaining anyKey n value.outline) (entryContaining key n value) := by
  have hpath : (Path.data [anyKey]).outline = (Path.data [key]).outline := rfl
  have helement : (Path.element (n + 1) []).outline = (Path.element (n + 1) []).outline := rfl
  have hscalar : ∀ scalar : Json,
      (any [scalarEquals (.data [anyKey]) scalar.outline,
        all [.hasType (.data [anyKey]) .array, .someElement (n + 1) (.data [anyKey])
          (scalarEquals (.element (n + 1) []) scalar.outline)]]).outline =
      (any [scalarEquals (.data [key]) scalar,
        all [.hasType (.data [key]) .array, .someElement (n + 1) (.data [key])
          (scalarEquals (.element (n + 1) []) scalar)]]).outline := by
    intro scalar
    simp only [outline, outlines, outline_scalarEquals hpath, outline_scalarEquals helement, hpath]
  cases value with
  | object fields => exact sameOutline_containing (.object fields) hpath n
  | array items => exact sameOutline_containing (.array items) hpath n
  | null => exact ⟨hscalar .null, rfl⟩
  | bool b => exact ⟨hscalar (.bool b), rfl⟩
  | integer m => exact ⟨hscalar (.integer m), rfl⟩
  | real x => exact ⟨hscalar (.real x), rfl⟩
  | text s => exact ⟨hscalar (.text s), rfl⟩

end Condition

namespace Predicate

mutual

/-- What is written for a predicate depends on its outline. -/
theorem sameOutline_condition (p : Predicate) (n : Nat) :
    SameOutline (p.outline.condition n) (p.condition n) := by
  cases p with
  | contains key value => exact Condition.sameOutline_entryContaining key n value
  | anyOf ps =>
    cases ps with
    | nil => exact ⟨rfl, rfl⟩
    | cons p rest =>
      obtain ⟨hconditions, hscans⟩ := sameOutlines_conditions (p :: rest) n
      exact ⟨congrArg Condition.any hconditions, hscans⟩
  | allOf ps =>
    cases ps with
    | nil => exact ⟨rfl, rfl⟩
    | cons p rest =>
      obtain ⟨hconditions, hscans⟩ := sameOutlines_conditions (p :: rest) n
      exact ⟨congrArg Condition.all hconditions, hscans⟩
  | column | numeric | numericOrText | text | bool | null => exact ⟨rfl, rfl⟩

/-- What is written for predicates depends on their outlines. -/
theorem sameOutlines_conditions (ps : List Predicate) (n : Nat) :
    SameOutlines (conditions n (outlines ps)) (conditions n ps) := by
  cases ps with
  | nil => exact ⟨rfl, rfl⟩
  | cons p rest =>
    obtain ⟨hfirst, hscans⟩ := sameOutline_condition p n
    obtain ⟨hrest, hlast⟩ := sameOutlines_conditions rest (p.condition n).2
    rw [outlines, conditions, conditions]
    dsimp only
    rw [hscans]
    refine ⟨?_, hlast⟩
    rw [Condition.outlines, Condition.outlines, hfirst, hrest]

end

end Predicate

/-- What is written for items depends on their outlines. -/
theorem sameOutlines_itemConditions (items : List Item) (n : Nat) :
    SameOutlines (Item.conditions n (Item.outlines items)) (Item.conditions n items) := by
  induction items generalizing n with
  | nil => exact ⟨rfl, rfl⟩
  | cons item rest ih =>
    obtain ⟨hitem, hscans⟩ := Predicate.sameOutlines_conditions item n
    rw [Predicate.outlines_eq_map] at hitem hscans
    obtain ⟨hrest, hlast⟩ := ih (Predicate.conditions n item).2
    rw [Item.outlines, List.map_cons, Item.conditions, Item.conditions]
    dsimp only
    rw [hscans]
    refine ⟨?_, hlast⟩
    rw [Condition.outlines, Condition.outlines, Condition.outline, Condition.outline, hitem]
    exact congrArg _ hrest

/-- Items with one outline have conditions with one outline. -/
theorem sameOutlines_of_outlines_eq {items items' : List Item}
    (h : Item.outlines items = Item.outlines items') (n : Nat) :
    SameOutlines (Item.conditions n items) (Item.conditions n items') := by
  obtain ⟨hconditions, hscans⟩ := sameOutlines_itemConditions items n
  obtain ⟨hconditions', hscans'⟩ := sameOutlines_itemConditions items' n
  rw [h] at hconditions hscans
  exact ⟨hconditions.symm.trans hconditions', hscans.symm.trans hscans'⟩

/-- Plans that are alike have conditions with one outline. -/
theorem Plan.Alike.conditions {p p' : Plan} (h : p.Alike p') :
    Condition.outlines p.conditions = Condition.outlines p'.conditions := by
  obtain ⟨hmust, hscans⟩ := sameOutlines_of_outlines_eq h.must 0
  obtain ⟨hshould, -⟩ := sameOutlines_of_outlines_eq h.should (Item.conditions 0 p.must).2
  have hnone : p.should.isEmpty = p'.should.isEmpty := by
    have hmap := congrArg List.isEmpty h.should
    rwa [Item.outlines, Item.outlines, List.isEmpty_map, List.isEmpty_map] at hmap
  rw [Plan.conditions, Plan.conditions]
  dsimp only
  rw [hnone, ← hscans]
  split_ifs
  · exact hmust
  · simp only [Condition.outlines_append, Condition.outlines, Condition.outline, hmust, hshould]

/-! ## From conditions to text -/

/-- A piece without its operand. -/
def Fragment.outline : Fragment → Fragment
  | text words => text words
  | operand _ => operand (.integer 0)

/-- Pieces without their operands. -/
def Fragment.outlines (fragments : List Fragment) : List Fragment := fragments.map Fragment.outline

@[simp] theorem Fragment.outlines_nil : outlines [] = [] := rfl

@[simp] theorem Fragment.outlines_cons (f : Fragment) (rest : List Fragment) :
    outlines (f :: rest) = f.outline :: outlines rest := rfl

@[simp] theorem Fragment.outlines_append (first later : List Fragment) :
    outlines (first ++ later) = outlines first ++ outlines later := List.map_append

/-- Pieces with one outline make statements with one text and equally many operands. -/
theorem Statement.ofFragments_congr {fragments fragments' : List Fragment}
    (h : Fragment.outlines fragments = Fragment.outlines fragments') :
    (ofFragments fragments).text = (ofFragments fragments').text ∧
      (ofFragments fragments).operands.length = (ofFragments fragments').operands.length := by
  have hwords : ∀ fs : List Fragment, fs.map Fragment.words =
      (Fragment.outlines fs).map Fragment.words := by
    intro fs
    rw [Fragment.outlines, List.map_map]
    exact List.map_congr_left fun f _ => by cases f <;> rfl
  have hoperands : ∀ fs : List Fragment, (fs.filterMap Fragment.operand?).length =
      ((Fragment.outlines fs).filterMap Fragment.operand?).length := by
    intro fs
    rw [Fragment.outlines, List.filterMap_map, List.length_filterMap_eq_countP,
      List.length_filterMap_eq_countP]
    exact List.countP_congr fun f _ => by cases f <;> simp [Fragment.operand?, Fragment.outline]
  rw [ofFragments, ofFragments]
  exact ⟨by rw [hwords, hwords fragments', h], by rw [hoperands, hoperands fragments', h]⟩

/-- What is written for a path depends on its outline. -/
theorem Path.outlines_fragments (path : Path) :
    Fragment.outlines path.outline.fragments = Fragment.outlines path.fragments := by
  cases path with
  | data keys => rfl
  | element scan keys => cases keys <;> rfl

/-- What is written for the left side of a comparison depends on its outline. -/
theorem Term.outlines_fragments (table : String) (term : Term) :
    Fragment.outlines (term.outline.fragments table) =
      Fragment.outlines (term.fragments table) := by
  cases term with
  | column c => rfl
  | extract path => simp [outline, fragments, Path.extracted, Path.call, Path.outlines_fragments]
  | double path => simp [outline, fragments, Path.extracted, Path.call, Path.outlines_fragments]

namespace Condition

mutual

/-- What is written for a condition depends on its outline. -/
theorem outlines_fragments (table : String) (c : Condition) :
    Fragment.outlines (c.outline.fragments table) = Fragment.outlines (c.fragments table) := by
  cases c with
  | compare term comparator operand =>
    simp [outline, fragments, Term.outlines_fragments, Fragment.outline]
  | hasType path type => simp [outline, fragments, Path.typeOf, Path.call, Path.outlines_fragments]
  | isNumber path => simp [outline, fragments, Path.typeOf, Path.call, Path.outlines_fragments]
  | glob path negated test =>
    simp [outline, fragments, Path.extracted, Path.call, Path.outlines_fragments]
  | isNull path negated =>
    simp [outline, fragments, Path.extracted, Path.call, Path.outlines_fragments]
  | constant value => rfl
  | not condition => simp [outline, fragments, outlines_fragments table condition]
  | all conditions => simp [outline, fragments, outlines_joined table " AND " conditions]
  | any conditions => simp [outline, fragments, outlines_joined table " OR " conditions]
  | someElement scan path condition =>
    simp [outline, fragments, Path.outlines_fragments, outlines_fragments table condition]

/-- What is written for conditions with a word between them depends on their outlines. -/
theorem outlines_joined (table joiner : String) (cs : List Condition) :
    Fragment.outlines (joined table joiner (outlines cs)) =
      Fragment.outlines (joined table joiner cs) := by
  match cs with
  | [] => rfl
  | [c] => exact outlines_fragments table c
  | c :: d :: rest =>
    have hrest := outlines_joined table joiner (d :: rest)
    rw [outlines] at hrest
    simp [outlines, joined, outlines_fragments table c, hrest]

end

end Condition

/-- Plans that are alike have pieces with one outline for the part of the result that is asked for. -/
theorem Plan.Alike.pageFragments {p p' : Plan} (h : p.Alike p') :
    Fragment.outlines p.pageFragments = Fragment.outlines p'.pageFragments := by
  have hlimit : p.limit.isNone = p'.limit.isNone := by
    rw [← Option.not_isSome, h.limit, Option.not_isSome]
  have hoffset : p.offset.isNone = p'.offset.isNone := by
    rw [← Option.not_isSome, h.offset, Option.not_isSome]
  unfold Plan.pageFragments
  rw [hlimit, hoffset]
  split <;> rfl

/-- Plans that are alike have pieces with one outline. -/
theorem Plan.Alike.fragments {p p' : Plan} (h : p.Alike p') (space : Namespace) :
    Fragment.outlines (p.fragments space) = Fragment.outlines (p'.fragments space) := by
  have hconditions := h.conditions
  have hjoined : Fragment.outlines (Condition.joined space.table " AND " p.conditions) =
      Fragment.outlines (Condition.joined space.table " AND " p'.conditions) := by
    rw [← Condition.outlines_joined, hconditions, Condition.outlines_joined]
  unfold Plan.fragments
  cases hc : p.conditions with
  | nil =>
    cases hc' : p'.conditions with
    | nil => simp [h.pageFragments]
    | cons c' rest' => simp [hc, hc', Condition.outlines] at hconditions
  | cons c rest =>
    cases hc' : p'.conditions with
    | nil => simp [hc, hc', Condition.outlines] at hconditions
    | cons c' rest' =>
      rw [hc, hc'] at hjoined
      simp [h.pageFragments, hjoined]

namespace Query

/-- Accepted queries that differ only in texts, numbers and keys, and in the values of their bounds,
have statements with one text. They differ in their operands alone, and these are equally many. -/
theorem compile_text_eq {space : Namespace} {q q' : Query} {statement statement' : Statement}
    (h : q.Alike q') (hstatement : q.compile space = .ok statement)
    (hstatement' : q'.compile space = .ok statement') :
    statement.text = statement'.text ∧
      statement.operands.length = statement'.operands.length := by
  obtain ⟨p, hp, rfl⟩ := map_eq_ok_iff.mp hstatement
  obtain ⟨p', hp', rfl⟩ := map_eq_ok_iff.mp hstatement'
  exact Statement.ofFragments_congr ((h.plan hp hp').fragments space)

/-- A query for rows of a kind with a size and an age, from some place on. -/
def harmless : Query :=
  ⟨⟨[], [[("kind", .text "cash"), ("size", .object [("depth", .integer 5)])]],
    [[("age", [("gte", .text "18")])]]⟩, .empty, some 0, some 10⟩

/-- A query of the same form with a quote in a text, and with other keys and numbers. -/
def hostile : Query :=
  ⟨⟨[], [[("name", .text "x' OR 'a' = 'a"), ("part", .object [("top", .integer (-7))])]],
    [[("cost", [("gte", .text "2.5")])]]⟩, .empty, some 3, some 1⟩

/-- Both queries have statements with one text. -/
theorem compile_text_eq_hostile :
    harmless.Alike hostile ∧
      (∃ statement, harmless.compile .accounts = .ok statement) ∧
      (∃ statement, hostile.compile .accounts = .ok statement) ∧
      (harmless.compile .accounts).map Statement.text =
        (hostile.compile .accounts).map Statement.text := by
  have halike : harmless.Alike hostile := ⟨rfl, rfl, rfl, rfl⟩
  have hharmless : harmless.compile .accounts = .ok _ := rfl
  have hhostile : hostile.compile .accounts = .ok _ := rfl
  refine ⟨halike, ⟨_, hharmless⟩, ⟨_, hhostile⟩, ?_⟩
  rw [hharmless, hhostile]
  exact congrArg Except.ok (compile_text_eq halike hharmless hhostile).1

end Query

end DoubleEntry.Search
