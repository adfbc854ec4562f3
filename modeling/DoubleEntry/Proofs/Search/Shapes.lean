import DoubleEntry.Proofs.Json.Repeated
import DoubleEntry.Proofs.Search.Lookup

/-!
# The shapes of query documents

Which texts are query documents, said by the shape of the JSON value and without the reader. The
groups are in a wrapper or at the top, a part that is null is as good as left out, and nothing is
read by its position. A document with a wrapper and the one without it are read alike.
-/

namespace DoubleEntry.Search

/-! ## Shapes -/

/-- A part that is left out or null, or has a shape. -/
inductive IsOptional (shape : Json → Prop) : Option Json → Prop
  | absent : IsOptional shape none
  | null : IsOptional shape (some .null)
  | given {v : Json} (h : shape v) : IsOptional shape (some v)

/-- A part that is neither left out nor null. -/
def IsGiven (part : Option Json) : Prop := part ≠ none ∧ part ≠ some .null

/-- An array all of whose items have a shape. -/
inductive IsListOf (shape : Json → Prop) : Json → Prop
  | array {items : List Json} (h : ∀ v ∈ items, shape v) : IsListOf shape (.array items)

/-- An object. -/
inductive IsObject : Json → Prop
  | object (fields : Json.Fields) : IsObject (.object fields)

/-- An object whose values are objects. -/
inductive IsComparisons : Json → Prop
  | object {fields : Json.Fields} (h : ∀ field ∈ fields, IsObject field.2) :
      IsComparisons (.object fields)

/-- A group of constraints: lists of comparisons, of values and of comparisons. -/
inductive IsGroup : Json → Prop
  | object {group : Json.Fields} (hkeys : ∀ key ∈ group.keys, key ∈ ["fields", "terms", "ranges"])
      (hfields : IsOptional (IsListOf IsComparisons) (group.get? "fields"))
      (hterms : IsOptional (IsListOf IsObject) (group.get? "terms"))
      (hranges : IsOptional (IsListOf IsComparisons) (group.get? "ranges")) :
      IsGroup (.object group)

/-- A wrapper around the two groups. -/
inductive IsWrapper : Json → Prop
  | object {wrapper : Json.Fields} (hkeys : ∀ key ∈ wrapper.keys, key ∈ ["must", "should"])
      (hmust : IsOptional IsGroup (wrapper.get? "must"))
      (hshould : IsOptional IsGroup (wrapper.get? "should")) : IsWrapper (.object wrapper)

/-- A bound of the part of the result that is asked for: a signed 64-bit integer. -/
inductive IsBound : Json → Prop
  | integer {n : ℤ} (hleast : -9223372036854775808 ≤ n) (hmost : n ≤ 9223372036854775807) :
      IsBound (.integer n)

/-- An object that is a query document: the groups are in a wrapper or beside the bounds. -/
structure IsQueryDocument (document : Json.Fields) : Prop where
  keys : ∀ key ∈ document.keys, key ∈ ["query", "must", "should", "from", "size"]
  query : IsOptional IsWrapper (document.get? "query")
  must : IsOptional IsGroup (document.get? "must")
  should : IsOptional IsGroup (document.get? "should")
  skip : IsOptional IsBound (document.get? "from")
  size : IsOptional IsBound (document.get? "size")
  alone : IsGiven (document.get? "query") →
    ¬ IsGiven (document.get? "must") ∧ ¬ IsGiven (document.get? "should")

/-! ## What is read -/

section Parts

variable {α : Type} {v : Json} {part : Option Json} {shape : Json → Prop}

/-- One reading for each element succeeds when it does for each of them. -/
theorem isSome_mapM_iff {β : Type} {f : β → Option α} {xs : List β} :
    (xs.mapM f).isSome = true ↔ ∀ x ∈ xs, (f x).isSome = true := by
  induction xs with
  | nil => simp
  | cons x rest ih =>
    rw [List.mapM_cons, List.forall_mem_cons, ← ih]
    cases f x <;> cases rest.mapM f <;> simp

/-- The fields of objects are read. -/
theorem isSome_fields?_iff : (fields? v).isSome = true ↔ IsObject v := by
  constructor
  · intro h
    cases v with
    | object fields => exact .object fields
    | _ => simp [fields?] at h
  · rintro ⟨fields⟩
    rfl

/-- Comparisons are read from objects whose values are objects. -/
theorem isSome_comparisons?_iff : (comparisons? v).isSome = true ↔ IsComparisons v := by
  have hobject : ∀ fields : Json.Fields, (comparisons? (.object fields)).isSome = true ↔
      ∀ field ∈ fields, IsObject field.2 := by
    intro fields
    refine isSome_mapM_iff.trans (forall₂_congr fun field _ => ?_)
    rw [← isSome_fields?_iff]
    cases h : fields? field.2 <;> simp [h]
  constructor
  · intro h
    cases v with
    | object fields => exact .object ((hobject fields).mp h)
    | _ => simp [comparisons?, fields?] at h
  · rintro ⟨h⟩
    exact (hobject _).mpr h

/-- A list is read when each item is. -/
theorem isSome_list?_iff {item? : Json → Option α}
    (hitem : ∀ v, (item? v).isSome = true ↔ shape v) :
    (list? item? part).isSome = true ↔ IsOptional (IsListOf shape) part := by
  constructor
  · intro h
    match part with
    | none => exact .absent
    | some .null => exact .null
    | some (.array items) =>
      exact .given (.array fun v hv => (hitem v).mp (isSome_mapM_iff.mp h v hv))
    | some (.bool _) | some (.integer _) | some (.real _) | some (.text _) | some (.object _) =>
      simp [list?] at h
  · rintro (_ | _ | ⟨⟨h⟩⟩)
    · rfl
    · rfl
    · exact isSome_mapM_iff.mpr fun v hv => (hitem v).mpr (h v hv)

/-- A bound is read when it fits. -/
theorem isSome_bound?_iff : (bound? part).isSome = true ↔ IsOptional IsBound part := by
  have hfits : ∀ n : ℤ, fitsSigned n = true ↔
      -9223372036854775808 ≤ n ∧ n ≤ 9223372036854775807 := by
    intro n
    rw [fitsSigned, decide_eq_true_eq]
    have hcount : (Number.wordCount 63 : ℤ) = 9223372036854775808 := by decide
    omega
  constructor
  · intro h
    match part with
    | none => exact .absent
    | some .null => exact .null
    | some (.integer n) =>
      by_cases hn : fitsSigned n = true
      · exact .given (.integer ((hfits n).mp hn).1 ((hfits n).mp hn).2)
      · simp [bound?, hn] at h
    | some (.bool _) | some (.array _) | some (.real _) | some (.text _) | some (.object _) =>
      simp [bound?] at h
  · rintro (_ | _ | ⟨⟨hleast, hmost⟩⟩)
    · rfl
    · rfl
    · rw [bound?, if_pos ((hfits _).mpr ⟨hleast, hmost⟩)]
      rfl

/-- An object has only the given keys when all of its keys are among them. -/
theorem hasOnly_iff {keys : List String} {fields : Json.Fields} :
    hasOnly keys fields = true ↔ ∀ key ∈ fields.keys, key ∈ keys := by
  simp [hasOnly]

/-- A group is read from an object of its shape. -/
theorem Clause.isSome_ofFields?_iff {group : Json.Fields} :
    (Clause.ofFields? group).isSome = true ↔ IsGroup (.object group) := by
  have hparts : IsGroup (.object group) ↔ hasOnly ["fields", "terms", "ranges"] group = true ∧
      (list? comparisons? (group.get? "fields")).isSome = true ∧
      (list? fields? (group.get? "terms")).isSome = true ∧
      (list? comparisons? (group.get? "ranges")).isSome = true := by
    simp only [hasOnly_iff, isSome_list?_iff fun v => isSome_comparisons?_iff,
      isSome_list?_iff fun v => isSome_fields?_iff]
    exact ⟨fun ⟨hkeys, hfields, hterms, hranges⟩ => ⟨hkeys, hfields, hterms, hranges⟩,
      fun ⟨hkeys, hfields, hterms, hranges⟩ => .object hkeys hfields hterms hranges⟩
  rw [hparts, Clause.ofFields?]
  split_ifs with hkeys
  · cases list? comparisons? (group.get? "fields") <;>
      cases list? fields? (group.get? "terms") <;>
      cases list? comparisons? (group.get? "ranges") <;> simp [hkeys]
  · simp [hkeys]

/-- A group is read where it is left out, null or of its shape. -/
theorem isSome_group?_iff : (group? part).isSome = true ↔ IsOptional IsGroup part := by
  constructor
  · intro h
    match part with
    | none => exact .absent
    | some .null => exact .null
    | some (.object group) =>
      rw [group?, Option.isSome_map, Clause.isSome_ofFields?_iff] at h
      exact .given h
    | some (.bool _) | some (.integer _) | some (.real _) | some (.text _) | some (.array _) =>
      simp [group?] at h
  · rintro (_ | _ | h)
    · rfl
    · rfl
    · obtain ⟨hkeys, hfields, hterms, hranges⟩ := id h
      rw [group?, Option.isSome_map, Clause.isSome_ofFields?_iff]
      exact h

/-- A wrapper is read where it is left out, null or of its shape. -/
theorem isSome_wrapped?_iff : (wrapped? part).isSome = true ↔ IsOptional IsWrapper part := by
  have hobject : ∀ wrapper : Json.Fields, (wrapped? (some (.object wrapper))).isSome = true ↔
      IsWrapper (.object wrapper) := by
    intro wrapper
    have hparts : IsWrapper (.object wrapper) ↔ hasOnly ["must", "should"] wrapper = true ∧
        (group? (wrapper.get? "must")).isSome = true ∧
        (group? (wrapper.get? "should")).isSome = true := by
      simp only [hasOnly_iff, isSome_group?_iff]
      exact ⟨fun ⟨hkeys, hmust, hshould⟩ => ⟨hkeys, hmust, hshould⟩,
        fun ⟨hkeys, hmust, hshould⟩ => .object hkeys hmust hshould⟩
    rw [hparts, wrapped?]
    split_ifs with hkeys
    · cases group? (wrapper.get? "must") <;> cases group? (wrapper.get? "should") <;> simp [hkeys]
    · simp [hkeys]
  constructor
  · intro h
    match part with
    | none => exact .absent
    | some .null => exact .null
    | some (.object wrapper) => exact .given ((hobject wrapper).mp h)
    | some (.bool _) | some (.integer _) | some (.real _) | some (.text _) | some (.array _) =>
      simp [wrapped?] at h
  · rintro (_ | _ | h)
    · rfl
    · rfl
    · obtain ⟨hkeys, hmust, hshould⟩ := id h
      exact (hobject _).mpr h

/-- There is a group when a part is given. -/
theorem isSome_of_group?_eq_some {found : Option Clause} (h : group? part = some found) :
    found.isSome = true ↔ IsGiven part := by
  match part with
  | none => simp_all [group?, IsGiven]
  | some .null => simp_all [group?, IsGiven]
  | some (.object group) =>
    obtain ⟨clause, -, rfl⟩ := Option.map_eq_some_iff.mp h
    simp [IsGiven]
  | some (.bool _) | some (.integer _) | some (.real _) | some (.text _) | some (.array _) =>
    simp [group?] at h

/-- There are wrapped groups when a wrapper is given. -/
theorem isSome_of_wrapped?_eq_some {found : Option (Clause × Clause)}
    (h : wrapped? part = some found) : found.isSome = true ↔ IsGiven part := by
  match part with
  | none => simp_all [wrapped?, IsGiven]
  | some .null => simp_all [wrapped?, IsGiven]
  | some (.object wrapper) =>
    rw [wrapped?] at h
    split_ifs at h
    obtain ⟨must, -, h⟩ := Option.bind_eq_some_iff.mp h
    obtain ⟨should, -, h⟩ := Option.bind_eq_some_iff.mp h
    obtain rfl := Option.some.inj h
    simp [IsGiven]
  | some (.bool _) | some (.integer _) | some (.real _) | some (.text _) | some (.array _) =>
    simp [wrapped?] at h

end Parts

namespace Query

variable {document : Json.Fields}

/-- The check of a part finds no fault where its shape is that of an object or it may be left out. -/
theorem checkPart_eq_ok {shape : Json → Prop} (hshape : ∀ v, shape v → IsObject v) {name : String}
    {part : Option Json} (h : IsOptional shape part) : checkPart name part = .ok () := by
  cases h with
  | absent => rfl
  | null => rfl
  | given h =>
    obtain ⟨fields⟩ := hshape _ h
    rfl

/-- The first check finds no fault with a query document. -/
theorem checkShape_eq_ok (h : IsQueryDocument document) : checkShape document = .ok () := by
  have hgroup : ∀ v, IsGroup v → IsObject v := by
    rintro _ ⟨_, _, _, _⟩
    exact .object _
  have hwrapper : ∀ v, IsWrapper v → IsObject v := by
    rintro _ ⟨_, _, _⟩
    exact .object _
  rw [checkShape, checkPart_eq_ok hwrapper h.query, checkPart_eq_ok hgroup h.must,
    checkPart_eq_ok hgroup h.should]
  have hquery := h.query
  revert hquery
  generalize document.get? "query" = query
  rintro (_ | _ | ⟨_, hmust, hshould⟩)
  · rfl
  · rfl
  · dsimp only
    rw [checkPart_eq_ok hgroup hmust, checkPart_eq_ok hgroup hshould]
    rfl

/-- The parts of an object are read when they have their shapes. -/
theorem Parts.isSome_ofFields?_iff : (Parts.ofFields? document).isSome = true ↔
    (∀ key ∈ document.keys, key ∈ ["query", "must", "should", "from", "size"]) ∧
      IsOptional IsWrapper (document.get? "query") ∧ IsOptional IsGroup (document.get? "must") ∧
      IsOptional IsGroup (document.get? "should") ∧ IsOptional IsBound (document.get? "from") ∧
      IsOptional IsBound (document.get? "size") := by
  rw [← hasOnly_iff, ← isSome_wrapped?_iff, ← isSome_group?_iff, ← isSome_group?_iff,
    ← isSome_bound?_iff, ← isSome_bound?_iff, Parts.ofFields?]
  split_ifs with hkeys
  · cases wrapped? (document.get? "query") <;> cases group? (document.get? "must") <;>
      cases group? (document.get? "should") <;> cases bound? (document.get? "from") <;>
      cases bound? (document.get? "size") <;> simp [hkeys]
  · simp [hkeys]

/-- The parts that are read make a query unless there are groups in a wrapper and beside it. -/
theorem Parts.exists_ofParts_iff {parts : Parts} (h : Parts.ofFields? document = some parts) :
    (∃ q, ofParts parts = .ok q) ↔ (IsGiven (document.get? "query") →
      ¬ IsGiven (document.get? "must") ∧ ¬ IsGiven (document.get? "should")) := by
  rw [Parts.ofFields?] at h
  split_ifs at h
  obtain ⟨wrapped, hwrapped, h⟩ := Option.bind_eq_some_iff.mp h
  obtain ⟨must, hmust, h⟩ := Option.bind_eq_some_iff.mp h
  obtain ⟨should, hshould, h⟩ := Option.bind_eq_some_iff.mp h
  obtain ⟨skip, -, h⟩ := Option.bind_eq_some_iff.mp h
  obtain ⟨size, -, h⟩ := Option.bind_eq_some_iff.mp h
  obtain rfl := Option.some.inj h
  rw [← isSome_of_wrapped?_eq_some hwrapped, ← isSome_of_group?_eq_some hmust,
    ← isSome_of_group?_eq_some hshould, ofParts]
  cases wrapped <;> cases must <;> cases should <;> simp

/-- An object is read as a query when it is a query document. -/
theorem exists_ofFields_iff : (∃ q, ofFields document = .ok q) ↔ IsQueryDocument document := by
  constructor
  · rintro ⟨q, h⟩
    obtain ⟨_, -, h⟩ := bind_eq_ok_iff.mp h
    cases hparts : Parts.ofFields? document with
    | none => simp [hparts] at h
    | some parts =>
      rw [hparts] at h
      obtain ⟨hkeys, hquery, hmust, hshould, hskip, hsize⟩ :=
        Parts.isSome_ofFields?_iff.mp (Option.isSome_iff_exists.mpr ⟨parts, hparts⟩)
      exact ⟨hkeys, hquery, hmust, hshould, hskip, hsize,
        (Parts.exists_ofParts_iff hparts).mp ⟨q, h⟩⟩
  · intro h
    obtain ⟨parts, hparts⟩ := Option.isSome_iff_exists.mp
      (Parts.isSome_ofFields?_iff.mpr ⟨h.keys, h.query, h.must, h.should, h.skip, h.size⟩)
    obtain ⟨q, hq⟩ := (Parts.exists_ofParts_iff hparts).mpr h.alone
    refine ⟨q, ?_⟩
    rw [ofFields, checkShape_eq_ok h, hparts]
    exact hq

/-- A text is read as a query when it is blank or a query document. -/
theorem exists_ofText_iff {text : String} : (∃ q, ofText text = .ok q) ↔
    Text.isBlankText text = true ∨
      ∃ document, Json.parse? text = some (.object document) ∧ IsQueryDocument document := by
  rw [ofText]
  split_ifs with hblank
  · simp [hblank]
  · rw [or_iff_right hblank]
    cases hparse : Json.parse? text with
    | none => simp
    | some v =>
      cases v with
      | object document => simpa using exists_ofFields_iff
      | _ => simp

/-! ## The wrapper -/

/-- A document with both groups in a wrapper. -/
def wrappedDocument (must should skip size : Json) : Json :=
  .object [("query", .object [("must", must), ("should", should)]), ("from", skip), ("size", size)]

/-- A document with both groups at the top. -/
def flatDocument (must should skip size : Json) : Json :=
  .object [("must", must), ("should", should), ("from", skip), ("size", size)]

/-- A wrapper around two parts is read as the parts are. -/
theorem wrapped?_object (must should : Json) :
    wrapped? (some (.object [("must", must), ("should", should)])) =
      (group? (some must)).bind fun must => (group? (some should)).map fun should =>
        some (must.getD .empty, should.getD .empty) := by
  have hkeys : hasOnly ["must", "should"] [("must", must), ("should", should)] = true := rfl
  rw [wrapped?, if_pos hkeys]
  simp only [Json.Fields.get?, if_pos, String.reduceEq, if_false]
  cases group? (some must) <;> cases group? (some should) <;> rfl

/-- The first check treats the groups in a wrapper as those at the top. -/
theorem checkShape_wrapped (must should skip size : Json) :
    checkShape [("from", skip), ("query", .object [("must", must), ("should", should)]),
        ("size", size)] =
      checkShape [("from", skip), ("must", must), ("should", should), ("size", size)] := by
  simp only [checkShape, Json.Fields.get?, if_pos, String.reduceEq, if_false]
  cases checkPart "must" (some must) <;> cases checkPart "should" (some should) <;> rfl

/-- The fields of a document with a wrapper are read as those of the document without it. -/
theorem ofFields_wrapped (must should skip size : Json) :
    ofFields [("from", skip), ("query", .object [("must", must), ("should", should)]),
        ("size", size)] =
      ofFields [("from", skip), ("must", must), ("should", should), ("size", size)] := by
  rw [ofFields, ofFields, checkShape_wrapped]
  congr 1
  funext _
  simp only [Parts.ofFields?, Json.Fields.get?, if_pos, String.reduceEq, if_false, wrapped?_object]
  cases group? (some must) <;> cases group? (some should) <;> cases bound? (some skip) <;>
    cases bound? (some size) <;> rfl

/-- The query that is read of four written parts, with the groups inside `depth` open objects. -/
def ofWritten (depth : ℕ) (must should skip size : Json) : Except QueryFault Query :=
  let read := Json.Reader.readBack? Json.Reader.strict
  ((read depth must).bind fun must => (read depth should).bind fun should =>
    (read 1 skip).bind fun skip => (read 1 size).map fun size =>
      ofFields [("from", skip), ("must", must), ("should", should), ("size", size)]).getD
    (.error (.malformed "not a JSON document"))

/-- A written document without a wrapper is read part by part. -/
theorem ofText_flatDocument (must should skip size : Json) :
    ofText (flatDocument must should skip size).render = ofWritten 1 must should skip size := by
  rw [flatDocument, ofText_render_object, ofWritten]
  simp only [Json.Reader.readBackFields?]
  cases Json.Reader.readBack? Json.Reader.strict 1 must <;>
    cases Json.Reader.readBack? Json.Reader.strict 1 should <;>
    cases Json.Reader.readBack? Json.Reader.strict 1 skip <;>
    cases Json.Reader.readBack? Json.Reader.strict 1 size <;> rfl

/-- A written document with a wrapper is read part by part, the groups one object deeper. -/
theorem ofText_wrappedDocument (must should skip size : Json) :
    ofText (wrappedDocument must should skip size).render = ofWritten 2 must should skip size := by
  rw [wrappedDocument, ofText_render_object, ofWritten]
  simp only [Json.Reader.readBackFields?, Json.Reader.readBack?, ← ofFields_wrapped]
  cases Json.Reader.readBack? Json.Reader.strict 2 must <;>
    cases Json.Reader.readBack? Json.Reader.strict 2 should <;>
    cases Json.Reader.readBack? Json.Reader.strict 1 skip <;>
    cases Json.Reader.readBack? Json.Reader.strict 1 size <;> rfl

/-- Groups that can be read inside two objects are read alike inside one. -/
theorem ofWritten_one_of_two {must should skip size : Json} {q : Query}
    (h : ofWritten 2 must should skip size = .ok q) :
    ofWritten 1 must should skip size = .ok q := by
  rw [ofWritten] at h ⊢
  cases hmust : Json.Reader.readBack? Json.Reader.strict 2 must with
  | none => simp [hmust] at h
  | some _ =>
    cases hshould : Json.Reader.readBack? Json.Reader.strict 2 should with
    | none => simp [hmust, hshould] at h
    | some _ =>
      rw [hmust, hshould] at h
      rw [Json.Reader.readBack?_of_succ hmust, Json.Reader.readBack?_of_succ hshould]
      exact h

/-- Groups that nest no deeper than two objects leave room for are read alike inside one and two. -/
theorem ofWritten_two_eq_one {must should : Json} (hmust : must.FitsIn 125)
    (hshould : should.FitsIn 125) (skip size : Json) :
    ofWritten 2 must should skip size = ofWritten 1 must should skip size := by
  have hread : ∀ v : Json, v.FitsIn 125 → Json.Reader.readBack? Json.Reader.strict 2 v =
      Json.Reader.readBack? Json.Reader.strict 1 v := by
    intro v hv
    have hroom : 2 + 125 ≤ Json.Reader.deepest := by decide
    obtain ⟨w, hw⟩ := Option.isSome_iff_exists.mp (Json.Reader.isSome_readBack? hv hroom)
    rw [hw, Json.Reader.readBack?_of_succ hw]
  simp only [ofWritten, hread must hmust, hread should hshould]

/-- What may stand in a query document: a blank text asks for everything, and otherwise the text is a
JSON object of one of two shapes. Every other text is refused as an invalid query. A text is JSON
only up to 127 levels, and of fields with one key the last counts. The two shapes are read alike: a
document with a wrapper asks for what the one without it does, and the one without it is read
whenever the other is, or when its groups leave room for the wrapper. -/
theorem exists_ofText_iff_shape :
    (∀ text, (∃ q, ofText text = .ok q) ↔ Text.isBlankText text = true ∨
      ∃ document, Json.parse? text = some (.object document) ∧ IsQueryDocument document) ∧
    (∀ text, (¬ ∃ q, ofText text = .ok q) →
      ∃ fault, ofText text = .error fault ∧ (LedgerFault.query fault).category = .invalidQuery) ∧
    (∀ text v, Json.parse? text = some v → v.FitsIn 127) ∧
    (∀ v : Json, v.FitsIn 127 → ∃ w, Json.parse? v.render = some w) ∧
    (∀ (front back found : Json.Fields) key v, key ∉ back.keys →
      Json.parse? (Json.object (front ++ (key, v) :: back)).render = some (.object found) →
        ∃ w, Json.parse? v.render = some w ∧ found.get? key = some w) ∧
    (∀ must should skip size q, ofText (wrappedDocument must should skip size).render = .ok q →
      ofText (flatDocument must should skip size).render = .ok q) ∧
    (∀ must should skip size : Json, must.FitsIn 125 → should.FitsIn 125 →
      ofText (wrappedDocument must should skip size).render =
        ofText (flatDocument must should skip size).render) := by
  refine ⟨fun _ => exists_ofText_iff, ?refused, fun _ _ => Json.isDocument_of_parse?, ?_,
    fun _ _ _ _ _ hlast h => Json.get?_of_parse?_render_object h hlast, ?deep, ?alike⟩
  case refused =>
    intro text hnone
    cases h : ofText text with
    | ok q => exact absurd ⟨q, h⟩ hnone
    | error fault => exact ⟨fault, rfl, rfl⟩
  case deep =>
    intro must should skip size q h
    rw [ofText_wrappedDocument] at h
    rw [ofText_flatDocument, ofWritten_one_of_two h]
  case alike =>
    intro must should skip size hmust hshould
    rw [ofText_wrappedDocument, ofText_flatDocument, ofWritten_two_eq_one hmust hshould]
  · exact fun v hv => Option.isSome_iff_exists.mp (Json.IsDocument.isSome_parse?_render hv)

/-- A group that asks for entries above a number. -/
def aboveThree : Json :=
  .object [("ranges", .array [.object [("k", .object [("gt", .integer 3)])]])]

/-- The group may be wrapped or not, of two bounds the last counts, and an array is no document. -/
theorem exists_ofText_iff_shape_aboveThree :
    aboveThree.FitsIn 125 ∧
      ofText (wrappedDocument aboveThree .null (.integer 1) .null).render =
        ofText (flatDocument aboveThree .null (.integer 1) .null).render ∧
      (∃ found : Json.Fields, Json.parse? (Json.object ([("from", .integer 7)] ++
          ("from", .null) :: [])).render = some (.object found) ∧
        found.get? "from" = some .null) ∧
      (∃ w, Json.parse? aboveThree.render = some w) ∧
      ∃ fault, ofText (Json.array []).render = .error fault ∧
        (LedgerFault.query fault).category = .invalidQuery := by
  obtain ⟨-, hrefused, -, hread, hlast, -, halike⟩ := exists_ofText_iff_shape
  have hfits : ∀ room, aboveThree.FitsIn (room + 4) := fun room =>
    List.forall_mem_singleton.mpr (List.forall_mem_singleton.mpr (List.forall_mem_singleton.mpr
      (List.forall_mem_singleton.mpr (by cases room <;> rfl))))
  have hparse : Json.parse? (Json.object ([("from", .integer 7)] ++
      ("from", .null) :: [])).render = some (.object [("from", .null)]) := by
    rw [Json.parse?_render]
    rfl
  have harray : Json.parse? (Json.array []).render = some (.array []) := by
    rw [Json.parse?_render]
    rfl
  refine ⟨hfits 121, halike _ _ _ _ (hfits 121) trivial, ⟨_, hparse, ?_⟩, hread _ (hfits 123),
    hrefused _ ?_⟩
  · obtain ⟨w, hw, hget⟩ := hlast _ _ _ _ _ List.not_mem_nil hparse
    rw [hget, ← hw, Json.parse?_render]
    rfl
  · have hblank : Text.isBlankText (Json.array []).render = false := by decide
    rw [ofText, hblank, if_neg Bool.false_ne_true, harray]
    simp

/-- A group that nests as deep as a group at the top may. -/
def deepestGroup : Json :=
  .object [("terms", .array [.object [("k", (fun v => Json.array [v])^[123] .null)]])]

/-- The group is accepted at the top and refused in a wrapper. -/
theorem deepestGroup_not_wrapped :
    (∃ q, ofText (flatDocument deepestGroup .null .null .null).render = .ok q) ∧
      ofText (wrappedDocument deepestGroup .null .null .null).render =
        .error (.malformed "not a JSON document") := by
  have hflat : (ofWritten 1 deepestGroup .null .null .null).isOk = true := by decide +kernel
  have hwrapped : (Json.Reader.readBack? Json.Reader.strict 2 deepestGroup).isNone = true := by
    decide +kernel
  rw [ofText_flatDocument, ofText_wrappedDocument]
  constructor
  · cases h : ofWritten 1 deepestGroup .null .null .null with
    | ok q => exact ⟨q, rfl⟩
    | error fault => simp [h, Except.isOk, Except.toBool] at hflat
  · rw [ofWritten, Option.isNone_iff_eq_none.mp hwrapped]
    rfl

end Query

end DoubleEntry.Search
