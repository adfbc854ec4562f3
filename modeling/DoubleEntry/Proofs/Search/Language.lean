import DoubleEntry.Proofs.Search.Paths

/-!
# The query language

Which queries are accepted, said by the names of columns and operators and the kinds of operands and
without the checks. An item of comparisons names known columns with operators and operands that go
with them, keys of the data map are made of letters and underscores at every depth, and both groups
are held to this alike.
-/

namespace DoubleEntry.Search

/-! ## What is allowed -/

/-- An operand that is a number. -/
inductive IsNumber : Json → Prop where
  | integer (n : Int) : IsNumber (.integer n)
  | real (x : Number.Binary64) : IsNumber (.real x)

/-- An operand that is a number, a text or a truth value. -/
inductive IsScalar : Json → Prop where
  | number {v : Json} (h : IsNumber v) : IsScalar v
  | text (s : String) : IsScalar (.text s)
  | bool (b : Bool) : IsScalar (.bool b)

/-- An operand that a column can be equal to: a number for the balance, a text for the others. -/
inductive Column.Takes : Column → Json → Prop where
  | balance {v : Json} (h : IsNumber v) : Takes .balance v
  | id (s : String) : Takes .id (.text s)
  | timestamp (s : String) : Takes .timestamp (.text s)

/-- The names of the columns of a collection. -/
inductive Column.Named : Namespace → String → Column → Prop where
  | id (space : Namespace) : Named space "id" .id
  | balance : Named .accounts "balance" .balance
  | timestamp : Named .transactions "timestamp" .timestamp

/-- What may be asked of a column: an operator by its name, and an operand. -/
inductive Column.Allows (column : Column) : String → Json → Prop where
  | relation {op : String} {v : Json} (hop : op ∈ ["eq", "ne", "gt", "gte", "lt", "lte"])
      (h : column.Takes v) : Allows column op v
  | like {op : String} (hop : op ∈ ["like", "notlike"]) (hcolumn : column = .id ∨ column = .timestamp)
      (s : String) : Allows column op (.text s)
  | member {op : String} {elements : List Json} (hop : op ∈ ["in", "nin"])
      (h : ∀ v ∈ elements, column.Takes v) : Allows column op (.array elements)

/-- What may be asked of an entry of the data map: an operator by its name, and an operand. -/
inductive EntryAllows : String → Json → Prop where
  | equality {op : String} {v : Json} (hop : op ∈ ["eq", "ne"]) (h : IsScalar v) : EntryAllows op v
  | order {op : String} {v : Json} (hop : op ∈ ["gt", "gte", "lt", "lte"])
      (h : IsNumber v ∨ ∃ s, v = .text s) : EntryAllows op v
  | like {op : String} (hop : op ∈ ["like", "notlike"]) (s : String) : EntryAllows op (.text s)
  | member {op : String} {elements : List Json} (hop : op ∈ ["in", "nin"])
      (h : ∀ v ∈ elements, IsScalar v) : EntryAllows op (.array elements)
  | null {op : String} (hop : op ∈ ["is", "isnot"]) : EntryAllows op .null

/-- A key of an object that a value is or has anywhere inside it. -/
inductive KeyInside (key : String) : Json → Prop where
  | here {fields : Json.Fields} (h : key ∈ fields.keys) : KeyInside key (.object fields)
  | field {fields : Json.Fields} {name : String} {v : Json} (hv : (name, v) ∈ fields)
      (h : KeyInside key v) : KeyInside key (.object fields)
  | item {items : List Json} {v : Json} (hv : v ∈ items) (h : KeyInside key v) :
      KeyInside key (.array items)

/-- A group of constraints that the language allows. -/
structure Clause.Allowed (space : Namespace) (c : Clause) : Prop where
  /-- Columns are known and asked for what they allow. -/
  fields : ∀ item ∈ c.fields, ∀ entry ∈ item, ∃ column, Column.Named space entry.1 column ∧
    ∀ comparison ∈ entry.2, column.Allows comparison.1 comparison.2
  /-- All keys are made of letters and underscores, those inside values too. -/
  terms : ∀ item ∈ c.terms, ∀ entry ∈ item, DataKey.Matches entry.1 ∧
    ∀ key, KeyInside key entry.2 → DataKey.Matches key
  /-- Keys are made of letters and underscores, and entries are asked for what they allow. -/
  ranges : ∀ item ∈ c.ranges, ∀ entry ∈ item, DataKey.Matches entry.1 ∧
    ∀ comparison ∈ entry.2, EntryAllows comparison.1 comparison.2

/-- A query whose groups are both allowed. -/
def Query.Allowed (space : Namespace) (q : Query) : Prop :=
  q.must.Allowed space ∧ q.should.Allowed space

/-! ## Steps that succeed -/

section Steps

variable {α β ε : Type}

/-- Two steps succeed when the first does and then the second. -/
theorem exists_bind_eq_ok_iff {x : Except ε α} {next : α → Except ε β} :
    (∃ b, (x >>= next) = .ok b) ↔ ∃ a, x = .ok a ∧ ∃ b, next a = .ok b := by
  simp only [bind_eq_ok_iff]
  exact ⟨fun ⟨b, a, ha, hb⟩ => ⟨a, ha, b, hb⟩, fun ⟨a, ha, b, hb⟩ => ⟨b, a, ha, hb⟩⟩

/-- A step with a change of its result succeeds when it does. -/
theorem exists_map_eq_ok_iff {x : Except ε α} {change : α → β} :
    (∃ b, change <$> x = .ok b) ↔ ∃ a, x = .ok a := by
  cases x <;> simp

/-- One step for each element succeeds when it does for each of them. -/
theorem exists_mapM_eq_ok_iff {f : α → Except ε β} {xs : List α} :
    (∃ ys, xs.mapM f = .ok ys) ↔ ∀ x ∈ xs, ∃ y, f x = .ok y := by
  simp only [mapM_eq_ok_iff]
  exact exists_forall₂_iff

end Steps

namespace Predicate

/-! ## Operands -/

/-- Numbers are the operands that can be read as numbers. -/
theorem exists_ofNumber?_iff {v : Json} : (∃ number, Operand.ofNumber? v = some number) ↔ IsNumber v := by
  constructor
  · rintro ⟨number, h⟩
    cases v with
    | integer n => exact .integer n
    | real x => exact .real x
    | _ => exact absurd h (by simp [Operand.ofNumber?])
  · rintro (n | x) <;> exact ⟨_, rfl⟩

/-- The balance takes numbers. -/
theorem takes_balance_iff {v : Json} : Column.Takes .balance v ↔ IsNumber v :=
  ⟨fun h => by cases h; assumption, .balance⟩

/-- The other columns take texts. -/
theorem takes_iff_exists_text {column : Column} (hcolumn : column ≠ .balance) {v : Json} :
    column.Takes v ↔ ∃ s, v = .text s := by
  constructor
  · intro h
    cases h with
    | balance => exact absurd rfl hcolumn
    | id s | timestamp s => exact ⟨s, rfl⟩
  · rintro ⟨s, rfl⟩
    cases column with
    | balance => exact absurd rfl hcolumn
    | id => exact .id s
    | timestamp => exact .timestamp s

/-- A column is compared by a relation with what it takes. -/
theorem exists_ofColumn_relation_iff {column : Column} {r : Relation} {op : String} {v : Json} :
    (∃ p, ofColumn column (.relation r) op v = .ok p) ↔ column.Takes v := by
  cases column with
  | balance =>
    rw [takes_balance_iff, ← exists_ofNumber?_iff]
    dsimp only [ofColumn]
    cases Operand.ofNumber? v <;> simp
  | id =>
    rw [takes_iff_exists_text (by simp)]
    cases v <;> simp [ofColumn]
  | timestamp =>
    rw [takes_iff_exists_text (by simp)]
    cases v <;> simp [ofColumn]

/-- A column is compared with a pattern when it is a column of texts. -/
theorem exists_ofColumn_like_iff {column : Column} {negated : Bool} {op : String} {v : Json} :
    (∃ p, ofColumn column (.like negated) op v = .ok p) ↔
      (column = .id ∨ column = .timestamp) ∧ ∃ s, v = .text s := by
  cases column <;> cases v <;> simp [ofColumn]

/-- An entry is tested for being equal to a scalar. -/
theorem exists_ofEntry_equality_iff {key op : String} {r : Relation} (hr : r = .eq ∨ r = .ne)
    {v : Json} : (∃ p, ofEntry key (.relation r) op v = .ok p) ↔ IsScalar v := by
  cases v with
  | integer n => exact ⟨fun _ => .number (.integer n), fun _ => ⟨_, rfl⟩⟩
  | real x => exact ⟨fun _ => .number (.real x), fun _ => ⟨_, rfl⟩⟩
  | text s =>
    refine ⟨fun _ => .text s, fun _ => ?_⟩
    dsimp only [ofEntry]
    cases Operand.ofDecimal? s <;> exact ⟨_, rfl⟩
  | bool b =>
    refine ⟨fun _ => .bool b, fun _ => ?_⟩
    obtain rfl | rfl := hr <;> exact ⟨_, rfl⟩
  | null | array | object =>
    exact ⟨fun ⟨p, h⟩ => absurd h (by simp [ofEntry, Operand.ofNumber?]), fun h => nomatch h⟩

/-- An entry is put in order with numbers and texts. -/
theorem exists_ofEntry_order_iff {key op : String} {r : Relation} (heq : r ≠ .eq) (hne : r ≠ .ne)
    {v : Json} :
    (∃ p, ofEntry key (.relation r) op v = .ok p) ↔ IsNumber v ∨ ∃ s, v = .text s := by
  cases v with
  | integer n => exact ⟨fun _ => .inl (.integer n), fun _ => ⟨_, rfl⟩⟩
  | real x => exact ⟨fun _ => .inl (.real x), fun _ => ⟨_, rfl⟩⟩
  | text s =>
    refine ⟨fun _ => .inr ⟨s, rfl⟩, fun _ => ?_⟩
    dsimp only [ofEntry]
    cases Operand.ofDecimal? s <;> exact ⟨_, rfl⟩
  | bool b =>
    refine ⟨fun ⟨p, h⟩ => ?_, fun h => by obtain h | ⟨s, h⟩ := h <;> exact nomatch h⟩
    cases r <;> simp_all [ofEntry]
  | null | array | object =>
    exact ⟨fun ⟨p, h⟩ => absurd h (by simp [ofEntry, Operand.ofNumber?]),
      fun h => by obtain h | ⟨s, h⟩ := h <;> exact nomatch h⟩

/-- An entry is compared with a pattern. -/
theorem exists_ofEntry_like_iff {key op : String} {negated : Bool} {v : Json} :
    (∃ p, ofEntry key (.like negated) op v = .ok p) ↔ ∃ s, v = .text s := by
  cases v <;> simp [ofEntry]

/-- A list is taken apart when the opposite of being any of its elements, or being one of them, can
be said of each. -/
theorem exists_ofMembers_iff {negated : Bool} (each : Relation → Json → Except QueryFault Predicate)
    {elements : List Json} {Takes : Json → Prop}
    (heach : ∀ r, r = .eq ∨ r = .ne → ∀ v, (∃ p, each r v = .ok p) ↔ Takes v) :
    (∃ p, ofMembers negated each elements = .ok p) ↔ ∀ v ∈ elements, Takes v := by
  unfold ofMembers
  cases negated with
  | true =>
    rw [if_pos rfl, exists_map_eq_ok_iff, exists_mapM_eq_ok_iff]
    simp only [heach .ne (.inr rfl)]
  | false =>
    rw [if_neg (by simp), exists_map_eq_ok_iff, exists_mapM_eq_ok_iff]
    simp only [heach .eq (.inl rfl)]

/-! ## Operators -/

/-- The operators are those in the table. -/
theorem ofName_eq_ok_iff {name : String} {op : Operator} :
    Operator.ofName name = .ok op ↔ (name, op) ∈ Operator.names := by
  constructor
  · intro h
    unfold Operator.ofName at h
    split at h
    next found hfound =>
      obtain ⟨before, after, hnames, -⟩ := List.lookup_eq_some_iff.mp hfound
      rw [hnames, Except.ok.inj h]
      simp
    next => exact absurd h (by simp)
  · intro h
    simp only [Operator.names, List.mem_cons, Prod.mk.injEq, List.not_mem_nil, or_false] at h
    rcases h with ⟨rfl, rfl⟩ | ⟨rfl, rfl⟩ | ⟨rfl, rfl⟩ | ⟨rfl, rfl⟩ | ⟨rfl, rfl⟩ | ⟨rfl, rfl⟩ |
      ⟨rfl, rfl⟩ | ⟨rfl, rfl⟩ | ⟨rfl, rfl⟩ | ⟨rfl, rfl⟩ | ⟨rfl, rfl⟩ | ⟨rfl, rfl⟩ <;> rfl

/-- There are six relations. -/
theorem exists_relation_iff_or {P : Relation → Prop} :
    (∃ r, P r) ↔ P .eq ∨ P .ne ∨ P .gt ∨ P .gte ∨ P .lt ∨ P .lte := by
  constructor
  · rintro ⟨r, h⟩
    cases r <;> simp [h]
  · rintro (h | h | h | h | h | h) <;> exact ⟨_, h⟩

/-- The relations that ask for being equal or not have two names. -/
theorem exists_equality_iff {name : String} :
    (∃ r, (r = .eq ∨ r = .ne) ∧ Operator.ofName name = .ok (.compare (.relation r))) ↔
      name ∈ ["eq", "ne"] := by
  simp [ofName_eq_ok_iff, Operator.names]

/-- The relations that ask for an order have four names. -/
theorem exists_order_iff {name : String} :
    (∃ r, (r ≠ .eq ∧ r ≠ .ne) ∧ Operator.ofName name = .ok (.compare (.relation r))) ↔
      name ∈ ["gt", "gte", "lt", "lte"] := by
  simp [exists_relation_iff_or, ofName_eq_ok_iff, Operator.names]

/-- Comparisons with patterns have two names. -/
theorem exists_like_iff {name : String} :
    (∃ negated, Operator.ofName name = .ok (.compare (.like negated))) ↔
      name ∈ ["like", "notlike"] := by
  simp [ofName_eq_ok_iff, Operator.names]

/-- Membership and its opposite have two names. -/
theorem exists_member_iff {name : String} :
    (∃ negated, Operator.ofName name = .ok (.member negated)) ↔ name ∈ ["in", "nin"] := by
  simp [ofName_eq_ok_iff, Operator.names]

/-- Being null and its opposite have two names. -/
theorem exists_null_iff {name : String} :
    (∃ negated, Operator.ofName name = .ok (.null negated)) ↔ name ∈ ["is", "isnot"] := by
  simp [ofName_eq_ok_iff, Operator.names]

/-- A relation asks for being equal or not, or for an order. -/
theorem exists_relation_iff {name : String} :
    (∃ r, Operator.ofName name = .ok (.compare (.relation r))) ↔
      name ∈ ["eq", "ne", "gt", "gte", "lt", "lte"] := by
  simp [exists_relation_iff_or, ofName_eq_ok_iff, Operator.names]

/-- Only lists have members. -/
theorem members_eq_ok_iff {op subject : String} {v : Json} {elements : List Json} :
    members op subject v = .ok elements ↔ v = .array elements := by
  cases v <;> simp [members]

/-- A column is asked for what it allows. -/
theorem exists_ofField_iff {column : Column} {op : String} {v : Json} :
    (∃ p, ofField column op v = .ok p) ↔ column.Allows op v := by
  unfold ofField
  rw [exists_bind_eq_ok_iff]
  constructor
  · rintro ⟨operator, hname, h⟩
    cases operator with
    | compare comparator =>
      cases comparator with
      | relation r =>
        exact .relation (exists_relation_iff.mp ⟨r, hname⟩) (exists_ofColumn_relation_iff.mp h)
      | like negated =>
        obtain ⟨hcolumn, s, rfl⟩ := exists_ofColumn_like_iff.mp h
        exact .like (exists_like_iff.mp ⟨negated, hname⟩) hcolumn s
    | member negated =>
      obtain ⟨elements, helements, hmembers⟩ := exists_bind_eq_ok_iff.mp h
      obtain rfl := members_eq_ok_iff.mp helements
      exact .member (exists_member_iff.mp ⟨negated, hname⟩)
        ((exists_ofMembers_iff (fun r => ofColumn column (.relation r) op) fun _ _ _ =>
          exists_ofColumn_relation_iff).mp hmembers)
    | null negated => exact absurd h (by simp)
  · intro h
    cases h with
    | relation hop h =>
      obtain ⟨r, hname⟩ := exists_relation_iff.mpr hop
      exact ⟨_, hname, exists_ofColumn_relation_iff.mpr h⟩
    | like hop hcolumn s =>
      obtain ⟨negated, hname⟩ := exists_like_iff.mpr hop
      exact ⟨_, hname, exists_ofColumn_like_iff.mpr ⟨hcolumn, s, rfl⟩⟩
    | member hop h =>
      obtain ⟨negated, hname⟩ := exists_member_iff.mpr hop
      exact ⟨_, hname, exists_bind_eq_ok_iff.mpr ⟨_, rfl,
        (exists_ofMembers_iff (fun r => ofColumn column (.relation r) op) fun _ _ _ =>
          exists_ofColumn_relation_iff).mpr h⟩⟩

/-- An entry is asked for what entries allow. -/
theorem exists_ofRange_iff {key op : String} {v : Json} :
    (∃ p, ofRange key op v = .ok p) ↔ EntryAllows op v := by
  unfold ofRange
  rw [exists_bind_eq_ok_iff]
  constructor
  · rintro ⟨operator, hname, h⟩
    cases operator with
    | compare comparator =>
      cases comparator with
      | relation r =>
        by_cases hr : r = .eq ∨ r = .ne
        · exact .equality (exists_equality_iff.mp ⟨r, hr, hname⟩)
            ((exists_ofEntry_equality_iff hr).mp h)
        · obtain ⟨heq, hne⟩ := not_or.mp hr
          exact .order (exists_order_iff.mp ⟨r, ⟨heq, hne⟩, hname⟩)
            ((exists_ofEntry_order_iff heq hne).mp h)
      | like negated =>
        obtain ⟨s, rfl⟩ := exists_ofEntry_like_iff.mp h
        exact .like (exists_like_iff.mp ⟨negated, hname⟩) s
    | member negated =>
      obtain ⟨elements, helements, hmembers⟩ := exists_bind_eq_ok_iff.mp h
      obtain rfl := members_eq_ok_iff.mp helements
      exact .member (exists_member_iff.mp ⟨negated, hname⟩)
        ((exists_ofMembers_iff (fun r => ofEntry key (.relation r) op) fun _ hr _ =>
          exists_ofEntry_equality_iff hr).mp hmembers)
    | null negated =>
      cases v with
      | null => exact .null (exists_null_iff.mp ⟨negated, hname⟩)
      | _ => exact absurd h (by simp)
  · intro h
    cases h with
    | equality hop h =>
      obtain ⟨r, hr, hname⟩ := exists_equality_iff.mpr hop
      exact ⟨_, hname, (exists_ofEntry_equality_iff hr).mpr h⟩
    | order hop h =>
      obtain ⟨r, ⟨heq, hne⟩, hname⟩ := exists_order_iff.mpr hop
      exact ⟨_, hname, (exists_ofEntry_order_iff heq hne).mpr h⟩
    | like hop s =>
      obtain ⟨negated, hname⟩ := exists_like_iff.mpr hop
      exact ⟨_, hname, exists_ofEntry_like_iff.mpr ⟨s, rfl⟩⟩
    | member hop h =>
      obtain ⟨negated, hname⟩ := exists_member_iff.mpr hop
      exact ⟨_, hname, exists_bind_eq_ok_iff.mpr ⟨_, rfl,
        (exists_ofMembers_iff (fun r => ofEntry key (.relation r) op) fun _ hr _ =>
          exists_ofEntry_equality_iff hr).mpr h⟩⟩
    | null hop =>
      obtain ⟨negated, hname⟩ := exists_null_iff.mpr hop
      exact ⟨_, hname, _, rfl⟩

/-! ## Keys -/

/-- Two checks pass together when each of them does. -/
theorem check_and_check_iff {first second : Except QueryFault Unit} :
    (do first; second) = .ok () ↔ first = .ok () ∧ second = .ok () := by
  rw [bind_eq_ok_iff]
  exact ⟨fun ⟨_, h⟩ => h, fun h => ⟨(), h⟩⟩

mutual

/-- A value passes its check when all keys inside it are made of letters and underscores. -/
theorem checkInside_eq_ok_iff (v : Json) :
    checkInside v = .ok () ↔ ∀ key, KeyInside key v → DataKey.Matches key := by
  cases v with
  | object fields =>
    rw [checkInside, checkFields_eq_ok_iff fields]
    constructor
    · intro h key hkey
      cases hkey with
      | here hmem =>
        obtain ⟨f, hf, rfl⟩ := List.mem_map.mp hmem
        exact (h f hf).1
      | field hv hinside => exact (h _ hv).2 key hinside
    · intro h f hf
      exact ⟨h f.1 (.here (List.mem_map_of_mem hf)), fun key hkey => h key (.field hf hkey)⟩
  | array items =>
    rw [checkInside, checkItems_eq_ok_iff items]
    constructor
    · rintro h key (_ | _ | ⟨hv, hinside⟩)
      exact h _ hv key hinside
    · exact fun h v hv key hkey => h key (.item hv hkey)
  | null | bool | integer | real | text => exact ⟨fun _ key h => (nomatch h), fun _ => rfl⟩

/-- Items pass their check when all keys inside them are made of letters and underscores. -/
theorem checkItems_eq_ok_iff (items : List Json) : checkItems items = .ok () ↔
    ∀ v ∈ items, ∀ key, KeyInside key v → DataKey.Matches key := by
  cases items with
  | nil => exact ⟨fun _ v hv => absurd hv List.not_mem_nil, fun _ => rfl⟩
  | cons v rest =>
    rw [checkItems, check_and_check_iff, checkInside_eq_ok_iff v, checkItems_eq_ok_iff rest,
      List.forall_mem_cons]

/-- Fields pass their check when their keys and all keys inside them are made of letters and
underscores. -/
theorem checkFields_eq_ok_iff (fields : List (String × Json)) : checkFields fields = .ok () ↔
    ∀ f ∈ fields, DataKey.Matches f.1 ∧ ∀ key, KeyInside key f.2 → DataKey.Matches key := by
  cases fields with
  | nil => exact ⟨fun _ f hf => absurd hf List.not_mem_nil, fun _ => rfl⟩
  | cons field rest =>
    obtain ⟨key, v⟩ := field
    rw [checkFields, check_and_check_iff, check_and_check_iff, checkKey_eq_ok_iff,
      checkInside_eq_ok_iff v, checkFields_eq_ok_iff rest, List.forall_mem_cons, and_assoc]

end

/-- A value to be contained is accepted when its key and all keys inside it are made of letters and
underscores. -/
theorem exists_ofTerm_iff {key : String} {v : Json} : (∃ p, ofTerm key v = .ok p) ↔
    DataKey.Matches key ∧ ∀ inside, KeyInside inside v → DataKey.Matches inside := by
  unfold ofTerm
  rw [← checkInside_eq_ok_iff, ← checkKey_eq_ok_iff]
  constructor
  · rintro ⟨p, h⟩
    obtain ⟨_, hkey, h⟩ := bind_eq_ok_iff.mp h
    obtain ⟨_, hinside, -⟩ := bind_eq_ok_iff.mp h
    exact ⟨hkey, hinside⟩
  · rintro ⟨hkey, hinside⟩
    exact ⟨_, bind_eq_ok_iff.mpr ⟨_, hkey, bind_eq_ok_iff.mpr ⟨_, hinside, rfl⟩⟩⟩

end Predicate

/-! ## Items, groups and queries -/

/-- The columns of a collection are found by their names. -/
theorem Column.ofName_eq_ok_iff {space : Namespace} {name : String} {column : Column} :
    Column.ofName space name = .ok column ↔ Column.Named space name column := by
  constructor
  · intro h
    unfold Column.ofName at h
    split_ifs at h with hid hbalance htimestamp
    · obtain rfl := Except.ok.inj h
      exact hid ▸ .id space
    · obtain rfl := Except.ok.inj h
      obtain ⟨rfl, rfl⟩ := hbalance
      exact .balance
    · obtain rfl := Except.ok.inj h
      obtain ⟨rfl, rfl⟩ := htimestamp
      exact .timestamp
  · rintro (_ | _ | _) <;> rfl

/-- The names of columns are made of letters. -/
theorem Column.Named.checkKey {space : Namespace} {name : String} {column : Column}
    (h : Column.Named space name column) : Predicate.checkKey name = .ok () := by
  cases h <;> rfl

namespace Item

/-- An item of comparisons of columns is accepted when it names columns of the collection and asks
each for what it allows. -/
theorem exists_ofFields_iff {space : Namespace} {item : Comparisons} :
    (∃ predicates, ofFields space item = .ok predicates) ↔
      ∀ entry ∈ item, ∃ column, Column.Named space entry.1 column ∧
        ∀ comparison ∈ entry.2, column.Allows comparison.1 comparison.2 := by
  unfold ofFields
  rw [exists_map_eq_ok_iff, exists_mapM_eq_ok_iff]
  refine forall₂_congr fun entry _ => ?_
  obtain ⟨name, comparisons⟩ := entry
  constructor
  · intro h
    obtain ⟨_, -, h⟩ := exists_bind_eq_ok_iff.mp h
    obtain ⟨column, hcolumn, h⟩ := exists_bind_eq_ok_iff.mp h
    exact ⟨column, Column.ofName_eq_ok_iff.mp hcolumn, fun comparison hcomparison =>
      Predicate.exists_ofField_iff.mp (exists_mapM_eq_ok_iff.mp h comparison hcomparison)⟩
  · rintro ⟨column, hcolumn, h⟩
    refine exists_bind_eq_ok_iff.mpr ⟨_, hcolumn.checkKey, ?_⟩
    refine exists_bind_eq_ok_iff.mpr ⟨_, Column.ofName_eq_ok_iff.mpr hcolumn, ?_⟩
    exact exists_mapM_eq_ok_iff.mpr fun comparison hcomparison =>
      Predicate.exists_ofField_iff.mpr (h comparison hcomparison)

/-- An item of values to be contained is accepted when all its keys and all keys inside its values
are made of letters and underscores. -/
theorem exists_ofTerms_iff {item : Json.Fields} :
    (∃ predicates, ofTerms item = .ok predicates) ↔
      ∀ entry ∈ item, DataKey.Matches entry.1 ∧
        ∀ key, KeyInside key entry.2 → DataKey.Matches key := by
  unfold ofTerms
  rw [exists_mapM_eq_ok_iff]
  exact forall₂_congr fun entry _ => Predicate.exists_ofTerm_iff

/-- An item of comparisons of entries is accepted when its keys are made of letters and underscores
and entries are asked for what they allow. -/
theorem exists_ofRanges_iff {item : Comparisons} :
    (∃ predicates, ofRanges item = .ok predicates) ↔
      ∀ entry ∈ item, DataKey.Matches entry.1 ∧
        ∀ comparison ∈ entry.2, EntryAllows comparison.1 comparison.2 := by
  unfold ofRanges
  rw [exists_map_eq_ok_iff, exists_mapM_eq_ok_iff]
  refine forall₂_congr fun entry _ => ?_
  obtain ⟨key, comparisons⟩ := entry
  rw [exists_bind_eq_ok_iff]
  constructor
  · rintro ⟨_, hkey, h⟩
    exact ⟨Predicate.checkKey_eq_ok_iff.mp hkey, fun comparison hcomparison =>
      Predicate.exists_ofRange_iff.mp (exists_mapM_eq_ok_iff.mp h comparison hcomparison)⟩
  · rintro ⟨hkey, h⟩
    exact ⟨_, Predicate.checkKey_eq_ok_iff.mpr hkey, exists_mapM_eq_ok_iff.mpr
      fun comparison hcomparison => Predicate.exists_ofRange_iff.mpr (h comparison hcomparison)⟩

end Item

/-- A group is accepted when it is allowed. -/
theorem Clause.exists_items_iff {space : Namespace} {c : Clause} :
    (∃ items, c.items space = .ok items) ↔ c.Allowed space := by
  unfold Clause.items
  constructor
  · intro h
    obtain ⟨fields, hfields, h⟩ := exists_bind_eq_ok_iff.mp h
    obtain ⟨terms, hterms, h⟩ := exists_bind_eq_ok_iff.mp h
    obtain ⟨ranges, hranges, -⟩ := exists_bind_eq_ok_iff.mp h
    exact ⟨fun item hitem =>
        Item.exists_ofFields_iff.mp (exists_mapM_eq_ok_iff.mp ⟨_, hfields⟩ item hitem),
      fun item hitem => Item.exists_ofTerms_iff.mp (exists_mapM_eq_ok_iff.mp ⟨_, hterms⟩ item hitem),
      fun item hitem =>
        Item.exists_ofRanges_iff.mp (exists_mapM_eq_ok_iff.mp ⟨_, hranges⟩ item hitem)⟩
  · intro h
    obtain ⟨fields, hfields⟩ := exists_mapM_eq_ok_iff.mpr fun item hitem =>
      Item.exists_ofFields_iff.mpr (h.fields item hitem)
    obtain ⟨terms, hterms⟩ := exists_mapM_eq_ok_iff.mpr fun item hitem =>
      Item.exists_ofTerms_iff.mpr (h.terms item hitem)
    obtain ⟨ranges, hranges⟩ := exists_mapM_eq_ok_iff.mpr fun item hitem =>
      Item.exists_ofRanges_iff.mpr (h.ranges item hitem)
    exact ⟨_, bind_eq_ok_iff.mpr ⟨_, hfields, bind_eq_ok_iff.mpr ⟨_, hterms,
      bind_eq_ok_iff.mpr ⟨_, hranges, rfl⟩⟩⟩⟩

namespace Query

/-- A query is accepted when it is allowed. -/
theorem exists_compile_iff {space : Namespace} {q : Query} :
    (∃ statement, q.compile space = .ok statement) ↔ q.Allowed space := by
  unfold compile Query.plan Allowed
  rw [← Clause.exists_items_iff, ← Clause.exists_items_iff]
  constructor
  · rintro ⟨statement, h⟩
    obtain ⟨plan, hplan, -⟩ := map_eq_ok_iff.mp h
    obtain ⟨must, hmust, h⟩ := bind_eq_ok_iff.mp hplan
    obtain ⟨should, hshould, -⟩ := bind_eq_ok_iff.mp h
    exact ⟨⟨must, hmust⟩, should, hshould⟩
  · rintro ⟨⟨must, hmust⟩, should, hshould⟩
    exact ⟨_, map_eq_ok_iff.mpr ⟨_, bind_eq_ok_iff.mpr ⟨_, hmust,
      bind_eq_ok_iff.mpr ⟨_, hshould, rfl⟩⟩, rfl⟩⟩

/-- The queries that are accepted are those whose groups are both allowed by the language. Every other
query is an invalid query: it has a fault with which every search for it fails, whatever is stored. -/
theorem compile_accepts_language (space : Namespace) (q : Query) :
    ((∃ statement, q.compile space = .ok statement) ↔
      q.must.Allowed space ∧ q.should.Allowed space) ∧
    (¬ (q.must.Allowed space ∧ q.should.Allowed space) →
      ∃ fault, q.compile space = .error fault ∧
        (LedgerFault.query fault).category = .invalidQuery ∧
        ∀ text s, Query.ofText text = .ok q → Search.run space text s = .error (.query fault) ∧
          Search.answer space text s = .error (.query fault)) := by
  refine ⟨exists_compile_iff, fun h => ?_⟩
  cases hcompile : q.compile space with
  | ok statement => exact absurd (exists_compile_iff.mp ⟨statement, hcompile⟩) h
  | error fault =>
    refine ⟨fault, rfl, rfl, fun text s htext => ?_⟩
    have hrejected : (Query.ofText text >>= fun q => q.compile space) = .error fault := by
      rw [htext]
      exact hcompile
    exact ⟨run_of_rejected hrejected s, answer_of_rejected hrejected s⟩

end Query

end DoubleEntry.Search
