import DoubleEntry.Proofs.Search.Constraints
import DoubleEntry.Search.Statement

/-!
# Outlines of queries

The outline of a query is what is left of it without the texts, numbers and keys in it: its columns,
its operators, how its items and values are nested, and of a text with which an entry is compared
whether it is a number. Keys are given up in place, so renaming them in a way that keeps their order
leaves the outline alone. Two accepted queries with one outline have plans with one outline.
-/

namespace DoubleEntry

/-- The key that stands for any key in an outline. -/
def anyKey : String := "k"

namespace Json

mutual

/-- A value without its texts, numbers and keys. -/
def outline : Json → Json
  | .null => .null
  | .bool b => .bool b
  | .integer _ | .real _ => .integer 0
  | .text _ => .text ""
  | .array items => .array (outlineItems items)
  | .object fields => .object (outlineFields fields)

/-- Items without their texts, numbers and keys. -/
def outlineItems : List Json → List Json
  | [] => []
  | v :: rest => outline v :: outlineItems rest

/-- Fields without their texts, numbers and keys. -/
def outlineFields : List (String × Json) → List (String × Json)
  | [] => []
  | (_, v) :: rest => (anyKey, outline v) :: outlineFields rest

end

/-- Items are given up one by one. -/
theorem outlineItems_eq_map (items : List Json) : outlineItems items = items.map outline := by
  induction items with
  | nil => rfl
  | cons v rest ih => rw [outlineItems, ih, List.map_cons]

mutual

/-- Of an outline nothing more is given up. -/
theorem outline_outline (v : Json) : v.outline.outline = v.outline := by
  cases v with
  | array items => rw [outline, outline, outlineItems_outlineItems items]
  | object fields => rw [outline, outline, outlineFields_outlineFields fields]
  | _ => rfl

/-- Of outlines of items nothing more is given up. -/
theorem outlineItems_outlineItems (items : List Json) :
    outlineItems (outlineItems items) = outlineItems items := by
  cases items with
  | nil => rfl
  | cons v rest =>
    rw [outlineItems, outlineItems, outline_outline v, outlineItems_outlineItems rest]

/-- Of outlines of fields nothing more is given up. -/
theorem outlineFields_outlineFields (fields : List (String × Json)) :
    outlineFields (outlineFields fields) = outlineFields fields := by
  cases fields with
  | nil => rfl
  | cons field rest =>
    obtain ⟨key, v⟩ := field
    rw [outlineFields, outlineFields, outline_outline v, outlineFields_outlineFields rest]

end

end Json

namespace Search

/-! ## Outlines -/

/-- One value with which an entry is compared, without what is in it; of a text it is kept whether
it is a number. -/
def outlineCompared : Json → Json
  | .text s => .text (if (Operand.ofDecimal? s).isSome then "0" else "")
  | v => v.outline

/-- An operand of an entry, which may be a list of values, without what is in it. -/
def outlineOperand : Json → Json
  | .array items => .array (items.map outlineCompared)
  | v => outlineCompared v

/-- A constraint without its texts, numbers and keys. -/
def Constraint.outline : Constraint → Constraint
  | field name op operand => field name op operand.outline
  | term _ value => term anyKey value.outline
  | range _ op operand => range anyKey op (outlineOperand operand)

/-- Two queries that differ only in texts, numbers and keys, and in the values of their bounds. -/
structure Query.Alike (q q' : Query) : Prop where
  must : q.must.constraints.map (List.map Constraint.outline) =
    q'.must.constraints.map (List.map Constraint.outline)
  should : q.should.constraints.map (List.map Constraint.outline) =
    q'.should.constraints.map (List.map Constraint.outline)
  skip : q.skip.isSome = q'.skip.isSome
  size : q.size.isSome = q'.size.isSome

namespace Predicate

mutual

/-- A predicate without its texts, numbers and keys. -/
def outline : Predicate → Predicate
  | .column c comparator _ => .column c comparator (.integer 0)
  | .contains _ value => .contains anyKey value.outline
  | .numeric _ r _ => .numeric anyKey r (.integer 0)
  | .numericOrText _ r _ _ => .numericOrText anyKey r (.integer 0) ""
  | .text _ comparator _ => .text anyKey comparator ""
  | .bool _ expected => .bool anyKey expected
  | .null _ negated => .null anyKey negated
  | .anyOf predicates => .anyOf (outlines predicates)
  | .allOf predicates => .allOf (outlines predicates)

/-- Predicates without their texts, numbers and keys. -/
def outlines : List Predicate → List Predicate
  | [] => []
  | p :: rest => outline p :: outlines rest

end

/-- Predicates are given up one by one. -/
theorem outlines_eq_map (ps : List Predicate) : outlines ps = ps.map outline := by
  induction ps with
  | nil => rfl
  | cons p rest ih => rw [outlines, ih, List.map_cons]

/-! ## From constraints to predicates -/

/-- A step on the outline of a value succeeds like the step on the value, with a result of the same
outline. -/
def StepsAlike {α : Type} (step step₀ : α → Except QueryFault Predicate) (given : α → α) : Prop :=
  ∀ v p, step v = .ok p → ∃ p₀, step₀ (given v) = .ok p₀ ∧ p₀.outline = p.outline

/-- Steps that go alike one by one go alike one after another. -/
theorem StepsAlike.mapM {α : Type} {step step₀ : α → Except QueryFault Predicate} {given : α → α}
    (h : StepsAlike step step₀ given) {vs : List α} {ps : List Predicate}
    (hps : vs.mapM step = .ok ps) :
    ∃ ps₀, (vs.map given).mapM step₀ = .ok ps₀ ∧ outlines ps₀ = outlines ps := by
  have hsteps := mapM_eq_ok_iff.mp hps
  induction hsteps with
  | nil => exact ⟨[], rfl, rfl⟩
  | @cons v p rest more hstep hrest ih =>
    obtain ⟨p₀, hp₀, houtline⟩ := h v p hstep
    obtain ⟨more₀, hmore₀, houtlines⟩ := ih (mapM_eq_ok_iff.mpr hrest)
    refine ⟨p₀ :: more₀, ?_, by rw [outlines, outlines, houtline, houtlines]⟩
    rw [List.map_cons, List.mapM_cons, hp₀, hmore₀]
    rfl

/-- Membership lists go alike when their elements do. -/
theorem StepsAlike.ofMembers {each each₀ : Relation → Json → Except QueryFault Predicate}
    {given : Json → Json} (h : ∀ r, StepsAlike (each r) (each₀ r) given) (negated : Bool)
    {elements : List Json} {p : Predicate} (hp : ofMembers negated each elements = .ok p) :
    ∃ p₀, Predicate.ofMembers negated each₀ (elements.map given) = .ok p₀ ∧
      p₀.outline = p.outline := by
  cases negated with
  | true =>
    obtain ⟨ps, hps, rfl⟩ := map_eq_ok_iff.mp hp
    obtain ⟨ps₀, hps₀, houtlines⟩ := (h .ne).mapM hps
    exact ⟨.allOf ps₀, map_eq_ok_iff.mpr ⟨ps₀, hps₀, rfl⟩, by rw [outline, outline, houtlines]⟩
  | false =>
    obtain ⟨ps, hps, rfl⟩ := map_eq_ok_iff.mp hp
    obtain ⟨ps₀, hps₀, houtlines⟩ := (h .eq).mapM hps
    exact ⟨.anyOf ps₀, map_eq_ok_iff.mpr ⟨ps₀, hps₀, rfl⟩, by rw [outline, outline, houtlines]⟩

/-- A column is compared with the outline of an operand like with the operand. -/
theorem stepsAlike_ofColumn (column : Column) (comparator : Comparator) (op : String) :
    StepsAlike (ofColumn column comparator op) (ofColumn column comparator op) Json.outline := by
  intro operand p h
  cases column <;> cases comparator <;> cases operand <;>
    simp only [ofColumn, Operand.ofNumber?, Except.ok.injEq, reduceCtorEq] at h
  all_goals
    subst h
    exact ⟨_, rfl, rfl⟩

/-- An entry is compared with the outline of a value like with the value. -/
theorem stepsAlike_ofEntry (key : String) (comparator : Comparator) (op : String) :
    StepsAlike (ofEntry key comparator op) (ofEntry anyKey comparator op) outlineCompared := by
  have hzero : Operand.ofDecimal? "0" = some (.integer 0) := rfl
  have hempty : Operand.ofDecimal? "" = none := rfl
  intro operand p h
  cases comparator with
  | like negated =>
    cases operand with
    | text pattern =>
      obtain rfl := Except.ok.inj h
      exact ⟨_, rfl, rfl⟩
    | _ => cases h
  | relation r =>
    cases operand with
    | text words =>
      simp only [ofEntry] at h
      cases hnumber : Operand.ofDecimal? words with
      | some number =>
        rw [hnumber] at h
        obtain rfl := Except.ok.inj h
        refine ⟨.numericOrText anyKey r (.integer 0) "0", ?_, rfl⟩
        simp [outlineCompared, ofEntry, hnumber, hzero]
      | none =>
        rw [hnumber] at h
        obtain rfl := Except.ok.inj h
        refine ⟨.text anyKey (.relation r) "", ?_, rfl⟩
        simp [outlineCompared, ofEntry, hnumber, hempty]
    | bool b =>
      cases r <;> simp only [ofEntry, Except.ok.injEq, reduceCtorEq] at h
      all_goals
        subst h
        exact ⟨_, rfl, rfl⟩
    | null | array | object => cases r <;> cases h
    | integer | real =>
      obtain rfl : .numeric key r _ = p := by cases r <;> exact Except.ok.inj h
      exact ⟨.numeric anyKey r (.integer 0), by cases r <;> rfl, rfl⟩

mutual

/-- The outline of a value has a good key throughout. -/
theorem checkInside_outline (v : Json) : checkInside v.outline = .ok () := by
  cases v with
  | array items => exact checkItems_outline items
  | object fields => exact checkFields_outline fields
  | _ => rfl

/-- The outlines of items have a good key throughout. -/
theorem checkItems_outline (items : List Json) : checkItems (Json.outlineItems items) = .ok () := by
  cases items with
  | nil => rfl
  | cons v rest =>
    rw [Json.outlineItems, checkItems, checkInside_outline v]
    exact checkItems_outline rest

/-- The outlines of fields have a good key throughout. -/
theorem checkFields_outline (fields : List (String × Json)) :
    checkFields (Json.outlineFields fields) = .ok () := by
  cases fields with
  | nil => rfl
  | cons field rest =>
    obtain ⟨key, v⟩ := field
    have hkey : checkKey anyKey = .ok () := rfl
    rw [Json.outlineFields, checkFields, hkey, checkInside_outline v]
    exact checkFields_outline rest

end

end Predicate

/-- An entry is compared with the outline of an operand like with the operand; lists are refused. -/
theorem Predicate.exists_ofEntry_outline {key op : String} {comparator : Comparator} {operand : Json}
    {p : Predicate} (h : ofEntry key comparator op operand = .ok p) :
    ∃ p₀, ofEntry anyKey comparator op (outlineOperand operand) = .ok p₀ ∧
      p₀.outline = p.outline := by
  have hvalue : outlineOperand operand = outlineCompared operand := by
    cases operand with
    | array items =>
      cases comparator with
      | relation r => cases r <;> cases h
      | like negated => cases h
    | _ => rfl
  rw [hvalue]
  exact stepsAlike_ofEntry key comparator op operand p h

/-- Only a list has members. -/
theorem Predicate.eq_array_of_members {op subject : String} {operand : Json} {elements : List Json}
    (h : members op subject operand = .ok elements) : operand = .array elements := by
  cases operand with
  | array items => rw [Except.ok.inj h]
  | _ => cases h

/-- The outline of an accepted comparison of a column is accepted, and their predicates have one
outline. -/
theorem Predicate.exists_ofField_outline {column : Column} {op : String} {operand : Json}
    {p : Predicate} (h : ofField column op operand = .ok p) :
    ∃ p₀, ofField column op operand.outline = .ok p₀ ∧ p₀.outline = p.outline := by
  obtain ⟨operator, hoperator, h⟩ := bind_eq_ok_iff.mp h
  rw [ofField, hoperator]
  cases operator with
  | compare comparator => exact stepsAlike_ofColumn column comparator op operand p h
  | member negated =>
    obtain ⟨elements, helements, h⟩ := bind_eq_ok_iff.mp h
    rw [eq_array_of_members helements, Json.outline, Json.outlineItems_eq_map]
    exact StepsAlike.ofMembers (fun r => stepsAlike_ofColumn column (.relation r) op) negated h
  | null negated => cases h

/-- The outline of an accepted comparison of an entry is accepted, and their predicates have one
outline. -/
theorem Predicate.exists_ofRange_outline {key op : String} {operand : Json} {p : Predicate}
    (h : ofRange key op operand = .ok p) :
    ∃ p₀, ofRange anyKey op (outlineOperand operand) = .ok p₀ ∧ p₀.outline = p.outline := by
  obtain ⟨operator, hoperator, h⟩ := bind_eq_ok_iff.mp h
  rw [ofRange, hoperator]
  cases operator with
  | compare comparator => exact exists_ofEntry_outline h
  | member negated =>
    obtain ⟨elements, helements, h⟩ := bind_eq_ok_iff.mp h
    rw [eq_array_of_members helements, outlineOperand]
    exact StepsAlike.ofMembers (fun r => stepsAlike_ofEntry key (.relation r) op) negated h
  | null negated =>
    cases operand with
    | null =>
      obtain rfl := Except.ok.inj h
      exact ⟨_, rfl, rfl⟩
    | _ => cases h

/-- The outline of an accepted constraint is accepted, and their predicates have one outline. -/
theorem Constraint.exists_predicate_outline {space : Namespace} {c : Constraint} {p : Predicate}
    (h : c.predicate space = .ok p) :
    ∃ p₀, c.outline.predicate space = .ok p₀ ∧ p₀.outline = p.outline := by
  have hkey : Predicate.checkKey anyKey = .ok () := rfl
  cases c with
  | field name op operand =>
    obtain ⟨_, hname, h⟩ := bind_eq_ok_iff.mp h
    obtain ⟨column, hcolumn, h⟩ := bind_eq_ok_iff.mp h
    rw [outline, predicate, hname, hcolumn]
    exact Predicate.exists_ofField_outline h
  | term key value =>
    obtain ⟨_, -, h⟩ := bind_eq_ok_iff.mp h
    obtain ⟨_, -, h⟩ := bind_eq_ok_iff.mp h
    obtain rfl := Except.ok.inj h
    rw [outline, predicate, Predicate.ofTerm, hkey, Predicate.checkInside_outline]
    refine ⟨.contains anyKey value.outline, rfl, ?_⟩
    rw [Predicate.outline, Predicate.outline, Json.outline_outline]
  | range key op operand =>
    obtain ⟨_, -, h⟩ := bind_eq_ok_iff.mp h
    rw [outline, predicate, hkey]
    exact Predicate.exists_ofRange_outline h

/-- Accepted constraints with one outline have predicates with one outline. -/
theorem Constraint.outline_predicate_eq {space : Namespace} {c c' : Constraint} {p p' : Predicate}
    (h : c.outline = c'.outline) (hp : c.predicate space = .ok p) (hp' : c'.predicate space = .ok p') :
    p.outline = p'.outline := by
  obtain ⟨p₀, hp₀, houtline⟩ := exists_predicate_outline hp
  obtain ⟨p₁, hp₁, houtline'⟩ := exists_predicate_outline hp'
  rw [h, hp₁] at hp₀
  rw [← houtline, ← houtline', Except.ok.inj hp₀]

/-! ## From queries to plans -/

/-- Items without their texts, numbers and keys. -/
def Item.outlines (items : List Item) : List Item := items.map (List.map Predicate.outline)

/-- Accepted groups whose constraints have one outline have items with one outline. -/
theorem Clause.outlines_items_eq {space : Namespace} {c c' : Clause} {items items' : List Item}
    (h : c.constraints.map (List.map Constraint.outline) =
      c'.constraints.map (List.map Constraint.outline))
    (hitems : c.items space = .ok items) (hitems' : c'.items space = .ok items') :
    Item.outlines items = Item.outlines items' := by
  obtain ⟨all, hall, rfl⟩ := Clause.exists_items hitems
  obtain ⟨all', hall', rfl⟩ := Clause.exists_items hitems'
  have hgive : ∀ cs cs' ps ps', Constraint.Give space cs ps → Constraint.Give space cs' ps' →
      cs.map Constraint.outline = cs'.map Constraint.outline →
        ps.map Predicate.outline = ps'.map Predicate.outline :=
    fun _ _ _ _ hps hps' => map_eq_map_of_forall₂_forall₂
      (fun _ _ _ _ hp hp' houtline => Constraint.outline_predicate_eq houtline hp hp') hps hps'
  have hall_eq : Item.outlines all = Item.outlines all' :=
    map_eq_map_of_forall₂_forall₂ hgive hall hall' h
  have hfilter : ∀ items : List Item, Item.outlines (items.filter fun item => !item.isEmpty) =
      (Item.outlines items).filter fun item => !item.isEmpty := by
    intro items
    rw [Item.outlines, Item.outlines, List.filter_map]
    simp only [Function.comp_def, List.isEmpty_map]
  rw [hfilter, hfilter, hall_eq]

/-- Two plans that differ only in texts, numbers and keys, and in the values of their bounds. -/
structure Plan.Alike (p p' : Plan) : Prop where
  must : Item.outlines p.must = Item.outlines p'.must
  should : Item.outlines p.should = Item.outlines p'.should
  limit : p.limit.isSome = p'.limit.isSome
  offset : p.offset.isSome = p'.offset.isSome

/-- Accepted queries that are alike have plans that are alike. -/
theorem Query.Alike.plan {space : Namespace} {q q' : Query} {p p' : Plan} (h : q.Alike q')
    (hp : q.plan space = .ok p) (hp' : q'.plan space = .ok p') : p.Alike p' := by
  obtain ⟨hmust, hshould, hlimit, hoffset⟩ := Query.plan_eq_ok_iff.mp hp
  obtain ⟨hmust', hshould', hlimit', hoffset'⟩ := Query.plan_eq_ok_iff.mp hp'
  constructor
  case must => exact Clause.outlines_items_eq h.must hmust hmust'
  case should => exact Clause.outlines_items_eq h.should hshould hshould'
  case limit => rw [hlimit, hlimit', Option.isSome_map, Option.isSome_map, h.size]
  case offset => rw [hoffset, hoffset', Option.isSome_map, Option.isSome_map, h.skip]

end Search

end DoubleEntry
