import DoubleEntry.Proofs.Json.Parts
import DoubleEntry.Proofs.Search.StoredValues

/-!
# Containment

Being contained is a preorder on the values that are read back as they were written: every value
contains itself, and what is contained in a value is contained wherever that value is. The order of
the elements of an array does not matter, nor how often one is repeated, on either side.
-/

namespace DoubleEntry.Search

open Number (Binary64)
open Entry

variable {entry : Json} {a b c v : Json}

/-! ## What contains a value -/

/-- Items are contained one by one. -/
theorem Entry.containsItems_eq_all (found items : List Json) :
    containsItems found items = items.all fun v => found.any fun element => contains element v := by
  induction items with
  | nil => rfl
  | cons v rest ih => rw [containsItems, List.all_cons, ih]

/-- Fields are contained one by one. -/
theorem Entry.containsFields_eq_all (found fields : Json.Fields) :
    containsFields found fields = fields.all fun field =>
      (found.get? field.1).any fun entry => contains entry field.2 := by
  induction fields with
  | nil => rfl
  | cons field rest ih => rw [containsFields, List.all_cons, ih]

/-- An array is contained in arrays with an element for each item. -/
theorem Entry.contains_array_iff {items : List Json} : contains entry (.array items) = true ↔
    ∃ found, entry = .array found ∧
      ∀ v ∈ items, ∃ element ∈ found, contains element v = true := by
  cases entry <;> simp [contains, containsItems_eq_all]

/-- An object is contained in objects with an entry for each field. -/
theorem Entry.contains_object_iff {fields : Json.Fields} :
    contains entry (.object fields) = true ↔ ∃ found, entry = .object found ∧
      ∀ field ∈ fields, ∃ value, Json.Fields.get? field.1 found = some value ∧
        contains value field.2 = true := by
  cases entry <;> simp [contains, containsFields_eq_all, Option.any_eq_true]

/-! ## Values that are read back -/

/-- A value whose integers are words and whose doubles are read back by a search. -/
structure IsFaithful (v : Json) : Prop where
  integer : ∀ n, Json.Within (.integer n) v → Json.fitsWord n = true
  real : ∀ x, Json.Within (.real x) v → ReadsBack x

/-- The items of such an array are such values. -/
theorem IsFaithful.item {items : List Json} (h : IsFaithful (.array items)) (hv : v ∈ items) :
    IsFaithful v :=
  ⟨fun n hn => h.integer n (.item hv hn), fun x hx => h.real x (.item hv hx)⟩

/-- An array that holds such a value is such a value. -/
theorem IsFaithful.held (h : IsFaithful v) : IsFaithful (.array [v]) :=
  ⟨fun n hn => h.integer n (by simpa using hn), fun x hx => h.real x (by simpa using hx)⟩

/-- The values of such an object are such values. -/
theorem IsFaithful.field {fields : Json.Fields} (h : IsFaithful (.object fields)) {key : String}
    (hv : (key, v) ∈ fields) : IsFaithful v :=
  ⟨fun n hn => h.integer n (.field hv hn), fun x hx => h.real x (.field hv hx)⟩

/-- A number that is read back is seen as a number at the place that it has as an operand. -/
theorem IsFaithful.exists_number?_seen (h : IsFaithful v) {number : Operand}
    (hv : Operand.ofNumber? v = some number) :
    ∃ value, number? (seen v) = some value ∧ value.place? = some number.place := by
  cases v with
  | integer n =>
    obtain rfl := Option.some.inj hv
    exact exists_number?_seen_integer (h.integer n .refl)
  | real x =>
    obtain rfl := Option.some.inj hv
    exact (h.real x .refl).exists_number?_seen
  | _ => simp [Operand.ofNumber?] at hv

/-- Only null and truth values are seen as such. -/
theorem IsFaithful.eq_of_isScalar (h : IsFaithful b) (hc : c = .null ∨ ∃ t, c = .bool t)
    (hbc : isScalar (seen b) c = true) : b = c := by
  have hnumber : ∀ number, Operand.ofNumber? b ≠ some number := by
    intro number hb
    obtain ⟨value, hvalue, -⟩ := h.exists_number?_seen hb
    obtain rfl | ⟨t, rfl⟩ := hc
    all_goals
      revert hvalue hbc
      cases seen b <;> simp [isScalar, number?]
  cases b with
  | integer n => exact absurd rfl (hnumber (.ofInt n))
  | real x => exact absurd rfl (hnumber (.real x))
  | null | bool | text | array | object =>
    obtain rfl | ⟨t, rfl⟩ := hc <;> simp_all [seen, isScalar]

/-- Only numbers are seen as numbers. -/
theorem exists_ofNumber?_of_seen {value : Value} (h : number? (seen v) = some value) :
    ∃ number, Operand.ofNumber? v = some number := by
  cases v with
  | integer | real => exact ⟨_, rfl⟩
  | null | bool | text | array | object => simp [seen, number?] at h

/-- Only texts are seen as texts, up to their first NUL. -/
theorem exists_text_of_seen {words : String} (h : words? (seen v) = some words) :
    ∃ s, v = .text s ∧ String.ofList (untilNul s) = words := by
  cases v with
  | integer n =>
    rw [seen] at h
    obtain hword | ⟨_, hword⟩ | ⟨_, hword⟩ | ⟨_, hword⟩ :=
      storedWord?_getD_cases (Json.integerText n) <;> simp [hword, words?] at h
  | real x =>
    rw [seen] at h
    obtain hword | ⟨_, hword⟩ | ⟨_, hword⟩ | ⟨_, hword⟩ :=
      storedWord?_getD_cases (Json.realLetters x) <;> simp [hword, words?] at h
  | text s => exact ⟨s, rfl, Option.some.inj h⟩
  | null | bool | array | object => simp [seen, words?] at h

/-! ## The preorder -/

/-- A number is contained in numbers at the same place. -/
theorem contains_number_iff {number : Operand} (hv : Operand.ofNumber? v = some number) :
    contains entry v = true ↔
      ∃ value, number? entry = some value ∧ value.place? = some number.place := by
  rw [← isScalar_number_iff hv]
  cases v with
  | integer | real => rfl
  | _ => simp [Operand.ofNumber?] at hv

/-- A text without NUL ends where it does. -/
theorem ofList_untilNul {s : String} (h : '\x00' ∉ s.toList) :
    String.ofList (untilNul s) = s := by
  have hall : untilNul s = s.toList := by
    rw [untilNul, List.takeWhile_eq_self_iff]
    intro c hc
    exact decide_eq_true fun hnul => h (hnul ▸ hc)
  rw [hall, String.ofList_toList]

/-- An ordered value without NULs in its texts is contained in what is seen of it, if its numbers
are read back. -/
theorem contains_seen_self (hordered : v.IsOrdered)
    (htext : ∀ s, Json.Within (.text s) v → '\x00' ∉ s.toList) (h : IsFaithful v) :
    contains (seen v) v = true := by
  induction v using Json.inductionOn with
  | null => rfl
  | bool b => simp [seen, contains, isScalar]
  | integer n =>
    have hn : Operand.ofNumber? (.integer n) = some (.ofInt n) := rfl
    exact (contains_number_iff hn).mpr (h.exists_number?_seen hn)
  | real x =>
    have hx : Operand.ofNumber? (.real x) = some (.real x) := rfl
    exact (contains_number_iff hx).mpr (h.exists_number?_seen hx)
  | text s => simp [seen, contains, isScalar, words?, ofList_untilNul (htext s .refl)]
  | array items ih =>
    cases hordered with
    | array hitems =>
      refine contains_array_iff.mpr ⟨_, by rw [seen, seenItems_eq_map], fun v hv => ?_⟩
      exact ⟨seen v, List.mem_map_of_mem hv,
        ih v hv (hitems v hv) (fun s hs => htext s (.item hv hs)) (h.item hv)⟩
  | object fields ih =>
    cases hordered with
    | object hkeys hfields =>
      refine contains_object_iff.mpr ⟨_, by rw [seen], fun field hfield => ?_⟩
      refine ⟨seen field.2, ?_, ih field hfield (hfields field hfield)
        (fun s hs => htext s (.field hfield hs)) (h.field hfield)⟩
      rw [get?_seenFields, Json.Fields.get?_of_mem hkeys hfield, Option.map_some]

/-- A number that is contained in one that is read back is contained wherever that one is. -/
theorem contains_number_trans (hb : IsFaithful b) {number : Operand}
    (hc : Operand.ofNumber? c = some number) (hab : contains (seen a) b = true)
    (hbc : contains (seen b) c = true) : contains (seen a) c = true := by
  obtain ⟨value, hvalue, hplace⟩ := (contains_number_iff hc).mp hbc
  obtain ⟨middle, hmiddle⟩ := exists_ofNumber?_of_seen hvalue
  obtain ⟨value', hvalue', hplace'⟩ := hb.exists_number?_seen hmiddle
  obtain rfl := Option.some.inj (hvalue.symm.trans hvalue')
  have hsame : middle.place = number.place := Option.some.inj (hplace'.symm.trans hplace)
  rw [contains_number_iff hmiddle, hsame] at hab
  exact (contains_number_iff hc).mpr hab

/-- A text that is contained in another is contained wherever that one is. -/
theorem contains_text_trans {s : String} (hab : contains (seen a) b = true)
    (hbc : contains (seen b) (.text s) = true) : contains (seen a) (.text s) = true := by
  have htext : ∀ {entry t}, contains entry (.text t) = true ↔ words? entry = some t := by
    simp [contains, isScalar]
  obtain ⟨t, rfl, hs⟩ := exists_text_of_seen (htext.mp hbc)
  obtain ⟨u, rfl, ht⟩ := exists_text_of_seen (htext.mp hab)
  -- The middle text is what is left of the first, so it has no NUL to lose.
  rw [← ht, Condition.untilNul_ofList_untilNul, ht] at hs
  exact hs ▸ hab

/-- What is contained in a value whose numbers are read back is contained wherever the value is. -/
theorem contains_seen_trans (hb : IsFaithful b) (hab : contains (seen a) b = true)
    (hbc : contains (seen b) c = true) : contains (seen a) c = true := by
  induction c using Json.inductionOn generalizing a b with
  | null => exact hb.eq_of_isScalar (.inl rfl) hbc ▸ hab
  | bool t => exact hb.eq_of_isScalar (.inr ⟨t, rfl⟩) hbc ▸ hab
  | integer n => exact contains_number_trans hb rfl hab hbc
  | real x => exact contains_number_trans hb rfl hab hbc
  | text s => exact contains_text_trans hab hbc
  | array items ih =>
    obtain ⟨found, hfound, hitems⟩ := contains_array_iff.mp hbc
    obtain ⟨middle, rfl, rfl⟩ := seen_eq_array_iff.mp hfound
    obtain ⟨entries, hentries, hmiddle⟩ := contains_array_iff.mp hab
    obtain ⟨first, rfl, rfl⟩ := seen_eq_array_iff.mp hentries
    refine contains_array_iff.mpr ⟨_, hentries, fun v hv => ?_⟩
    obtain ⟨element, helement, hcontains⟩ := hitems v hv
    obtain ⟨w, hw, rfl⟩ := List.mem_map.mp helement
    obtain ⟨element', helement', hcontains'⟩ := hmiddle w hw
    obtain ⟨u, hu, rfl⟩ := List.mem_map.mp helement'
    exact ⟨seen u, helement', ih v hv (hb.item hw) hcontains' hcontains⟩
  | object fields ih =>
    obtain ⟨found, hfound, hfields⟩ := contains_object_iff.mp hbc
    obtain ⟨middle, rfl, rfl⟩ := seen_eq_object_iff.mp hfound
    obtain ⟨entries, hentries, hmiddle⟩ := contains_object_iff.mp hab
    obtain ⟨first, rfl, rfl⟩ := seen_eq_object_iff.mp hentries
    refine contains_object_iff.mpr ⟨_, hentries, fun field hfield => ?_⟩
    obtain ⟨value, hvalue, hcontains⟩ := hfields field hfield
    rw [get?_seenFields] at hvalue
    obtain ⟨w, hw, rfl⟩ := Option.map_eq_some_iff.mp hvalue
    have hmem := Json.Fields.mem_of_get? hw
    obtain ⟨value', hvalue', hcontains'⟩ := hmiddle _ hmem
    refine ⟨value', hvalue', ?_⟩
    rw [get?_seenFields] at hvalue'
    obtain ⟨u, hu, rfl⟩ := Option.map_eq_some_iff.mp hvalue'
    exact ih field hfield (hb.field hmem) hcontains' hcontains

/-! ## Entries of the data map -/

/-- A value that is no array and no object. -/
def IsSimple (v : Json) : Prop := (∀ items, v ≠ .array items) ∧ ∀ fields, v ≠ .object fields

/-- A value without parts is contained in an entry by itself, or in an array that holds it. -/
theorem containsTop_iff : containsTop entry v = true ↔
    contains entry v = true ∨ IsSimple v ∧ contains entry (.array [v]) = true := by
  cases v with
  | array items => simp [containsTop, IsSimple]
  | object fields => simp [containsTop, IsSimple]
  | null | bool | integer | real | text =>
    cases entry <;> simp [containsTop, contains, containsItems, anyElement, IsSimple]

/-- What a value without parts is seen to contain has no parts. -/
theorem IsSimple.of_contains (hb : IsSimple b) (hbc : contains (seen b) c = true) : IsSimple c := by
  constructor
  · rintro items rfl
    obtain ⟨found, hfound, -⟩ := contains_array_iff.mp hbc
    obtain ⟨middle, rfl, -⟩ := seen_eq_array_iff.mp hfound
    exact hb.1 middle rfl
  · rintro fields rfl
    obtain ⟨found, hfound, -⟩ := contains_object_iff.mp hbc
    obtain ⟨middle, rfl, -⟩ := seen_eq_object_iff.mp hfound
    exact hb.2 middle rfl

/-- What is held by an array is contained in what holds it. -/
theorem contains_seen_held_iff {u : Json} :
    contains (seen (.array [u])) (.array [v]) = true ↔ contains (seen u) v = true := by
  rw [contains_array_iff]
  simp [seen, seenItems]

/-- What is contained in an entry whose numbers are read back is contained in every entry that
contains that one as a whole, also if one of them is an array that holds the other. -/
theorem containsTop_seen_trans (hb : IsFaithful b) (hab : containsTop (seen a) b = true)
    (hbc : containsTop (seen b) c = true) : containsTop (seen a) c = true := by
  rw [containsTop_iff] at hab hbc ⊢
  obtain hab | ⟨hsimple, hab⟩ := hab
  · obtain hbc | ⟨hsimple, hbc⟩ := hbc
    · exact .inl (contains_seen_trans hb hab hbc)
    · exact .inr ⟨hsimple, contains_seen_trans hb hab hbc⟩
  · obtain hbc | ⟨-, hbc⟩ := hbc
    · exact .inr ⟨hsimple.of_contains hbc,
        contains_seen_trans hb.held hab (contains_seen_held_iff.mpr hbc)⟩
    · exact absurd rfl ((hsimple.of_contains hbc).1 [c])

/-! ## Rearranged values -/

open Json (Rearranged)

variable {a' c' entry' : Json}

/-- Rearranged values are seen as rearranged values. -/
theorem rearranged_seen (h : Rearranged a a') : Rearranged (seen a) (seen a') := by
  induction h with
  | refl => exact .refl _
  | elements h =>
    rw [seen, seen, seenItems_eq_map, seenItems_eq_map]
    exact .elements fun v => by simp [h]
  | item before after _ ih =>
    simp only [seen, seenItems_eq_map, List.map_append, List.map_cons]
    exact .item _ _ ih
  | field before after key _ ih =>
    simp only [seen, seenFields_eq_map, List.map_append, List.map_cons]
    exact .field _ _ key ih
  | trans _ _ ih ih' => exact ih.trans ih'

/-- Rearranged values are contained in the same entries. -/
theorem contains_value_congr (h : Rearranged c c') :
    contains entry c = true ↔ contains entry c' = true := by
  induction h generalizing entry with
  | refl => rfl
  | elements h => simp only [contains_array_iff, h]
  | item before after _ ih =>
    simp only [contains_array_iff, List.forall_mem_append, List.forall_mem_cons, ih]
  | field before after key _ ih =>
    simp only [contains_object_iff, List.forall_mem_append, List.forall_mem_cons, ih]
  | trans _ _ ih ih' => exact ih.trans ih'

/-- An array contains the arrays that have each of their items in one of its elements. -/
theorem array_contains_iff {found : List Json} : contains (.array found) c = true ↔
    ∃ items, c = .array items ∧ ∀ v ∈ items, ∃ element ∈ found, contains element v = true := by
  cases c <;> simp [contains, isScalar, number?, words?, containsItems_eq_all]

/-- An object contains the objects that have the value of each of their fields in its entry. -/
theorem object_contains_iff {found : Json.Fields} : contains (.object found) c = true ↔
    ∃ fields, c = .object fields ∧ ∀ field ∈ fields,
      (found.get? field.1).any (fun entry => contains entry field.2) = true := by
  cases c <;> simp [contains, isScalar, number?, words?, containsFields_eq_all]

/-- Rearranged entries contain the same values. -/
theorem contains_entry_congr (h : Rearranged entry entry') :
    contains entry c = true ↔ contains entry' c = true := by
  induction h generalizing c with
  | refl => rfl
  | elements h => simp only [array_contains_iff, h]
  | item before after _ ih =>
    simp only [array_contains_iff, List.mem_append, List.mem_cons, or_and_right, exists_or,
      exists_eq_left, ih]
  | field before after key _ ih =>
    have hany := fun field : String × Json =>
      Json.Fields.any_get?_replaced (P := fun entry => contains entry field.2)
        (Bool.eq_iff_iff.mpr ih) field.1 key before after
    simp only [object_contains_iff, hany]
  | trans _ _ ih ih' => exact ih.trans ih'

/-- A rearranged value has no parts if the other has none. -/
theorem isSimple_congr (h : Rearranged c c') : IsSimple c ↔ IsSimple c' := by
  induction h with
  | refl => rfl
  | elements | item | field => simp [IsSimple]
  | trans _ _ ih ih' => exact ih.trans ih'

/-- Rearranging an entry or a value does not change whether the first contains the second. -/
theorem containsTop_congr (hentry : Rearranged entry entry') (hc : Rearranged c c') :
    containsTop entry c = true ↔ containsTop entry' c' = true := by
  have hheld : Rearranged (.array [c]) (.array [c']) := .item [] [] hc
  rw [containsTop_iff, containsTop_iff, isSimple_congr hc,
    contains_value_congr hc, contains_entry_congr hentry,
    contains_value_congr hheld, contains_entry_congr hentry]

/-- The keys inside an array are those inside its items. -/
theorem keyInside_array_iff {key : String} {items : List Json} :
    KeyInside key (.array items) ↔ ∃ v ∈ items, KeyInside key v := by
  constructor
  · rintro (_ | _ | ⟨hv, h⟩)
    exact ⟨_, hv, h⟩
  · exact fun ⟨_, hv, h⟩ => .item hv h

/-- The keys inside an object are its keys and those inside its values. -/
theorem keyInside_object_iff {key : String} {fields : Json.Fields} :
    KeyInside key (.object fields) ↔ ∃ field ∈ fields, field.1 = key ∨ KeyInside key field.2 := by
  constructor
  · intro h
    cases h with
    | here hmem =>
      obtain ⟨field, hfield, hkey⟩ := List.mem_map.mp hmem
      exact ⟨field, hfield, .inl hkey⟩
    | field hv h => exact ⟨_, hv, .inr h⟩
  · rintro ⟨field, hfield, rfl | h⟩
    · exact .here (List.mem_map_of_mem hfield)
    · exact .field hfield h

/-- Rearranged values have the same keys inside. -/
theorem keyInside_congr {key : String} (h : Rearranged c c') :
    KeyInside key c ↔ KeyInside key c' := by
  induction h with
  | refl => rfl
  | elements h => simp only [keyInside_array_iff, h]
  | item before after _ ih =>
    simp only [keyInside_array_iff, List.mem_append, List.mem_cons, or_and_right, exists_or,
      exists_eq_left, ih]
  | field before after name _ ih =>
    simp only [keyInside_object_iff, List.mem_append, List.mem_cons, or_and_right, exists_or,
      exists_eq_left, ih]
  | trans _ _ ih ih' => exact ih.trans ih'

/-! ## Terms -/

open Constraint

variable {space space' : Namespace} {row row' : Row} {key : String}

/-- The numbers of a stored value are read back if its doubles are. -/
theorem Row.Stores.isFaithful (h : row.Stores key a)
    (hreal : ∀ x, Json.Within (.real x) a → ReadsBack x) : IsFaithful a :=
  ⟨fun _ hn => h.isDocument.fitsWord_of_within hn, hreal⟩

/-- A row matches a value to be contained when the keys are made of letters and underscores and the
stored value contains it as it is seen. -/
theorem Row.Stores.matches_term_iff (h : row.Stores key a) (hrow : row.IsOf space) :
    (term key c).Matches space row ↔
      (DataKey.Matches key ∧ ∀ inside, KeyInside inside c → DataKey.Matches inside) ∧
        containsTop (seen a) c = true := by
  rw [Constraint.matches_term_iff hrow.hasTexts, h.entry?_eq]
  simp

/-- A row matches the value that it stores if its texts have no NUL and its doubles are read back. A
row that matches the stored value of another matches what that one does, if the doubles of the
other are read back. Rearranging arrays, in a row or in the value, does not change whether the row
matches the value. -/
theorem containment_preorder (hrow : row.IsOf space) (hrow' : row'.IsOf space')
    (ha : row.Stores key a) (hb : row'.Stores key b) (hkey : DataKey.Matches key) :
    ((∀ inside, KeyInside inside a → DataKey.Matches inside) →
      (∀ s, Json.Within (.text s) a → '\x00' ∉ s.toList) →
      (∀ x, Json.Within (.real x) a → ReadsBack x) → (term key a).Matches space row) ∧
    (∀ c, (∀ x, Json.Within (.real x) b → ReadsBack x) → (term key b).Matches space row →
      (term key c).Matches space' row' → (term key c).Matches space row) ∧
    (∀ c c', Rearranged a b → Rearranged c c' →
      ((term key c).Matches space row ↔ (term key c').Matches space' row')) := by
  simp only [ha.matches_term_iff hrow, hb.matches_term_iff hrow', hkey, true_and]
  refine ⟨fun hkeys htext hreal => ⟨hkeys, ?_⟩, fun c hreal hab hbc => ⟨hbc.1, ?_⟩,
    fun c c' hrows hc => ?_⟩
  · exact containsTop_iff.mpr (.inl (contains_seen_self ha.isOrdered htext (ha.isFaithful hreal)))
  · exact containsTop_seen_trans (hb.isFaithful hreal) hab.2 hbc.2
  · simp only [containsTop_congr (rearranged_seen hrows) hc, keyInside_congr hc]

/-- One half. -/
def half : Binary64 := .finite false ⟨4503599627370496, -53⟩

/-- An object and a number. -/
def listed : Json := .array [.object [("s", .text "x")], .real half]

/-- The same in another order, with the number twice. -/
def relisted : Json := .array [.real half, .object [("s", .text "x")], .real half]

/-- Both lists match themselves and each other, and the number matches them. -/
theorem containment_preorder_listed :
    (Row.holding "k" listed).IsOf .accounts ∧ (Row.holding "k" listed).Stores "k" listed ∧
      (Row.holding "k" relisted).Stores "k" relisted ∧ Rearranged listed relisted ∧
      (term "k" listed).Matches .accounts (.holding "k" listed) ∧
      (term "k" relisted).Matches .accounts (.holding "k" relisted) ∧
      (term "k" relisted).Matches .accounts (.holding "k" listed) ∧
      (term "k" (.real half)).Matches .accounts (.holding "k" listed) := by
  have hdouble : half.IsDouble := ⟨by decide, by decide, by decide⟩
  have hletters : Json.numeral? (Json.realLetters half) = some (⟨false, [0], [5], 0⟩, true) := by
    decide +kernel
  have hextended : (⟨false, [0], [5], 0⟩ : Number.Numeral).extended = half := by decide +kernel
  have hreads : ReadsBack half := .of_numeral? hletters (by rw [hextended])
  have hobject : (Json.object [("s", .text "x")]).IsOrdered :=
    .object (List.pairwise_singleton _ _) (List.forall_mem_singleton.mpr (.text "x"))
  have ha : (Row.holding "k" listed).Stores "k" listed := by
    refine Row.stores_holding (List.forall_mem_cons.mpr ⟨?_, ?_⟩) (.array ?_)
    · exact List.forall_mem_singleton.mpr trivial
    · exact List.forall_mem_singleton.mpr hdouble
    · simpa using ⟨hobject, .real half⟩
  have hb : (Row.holding "k" relisted).Stores "k" relisted := by
    refine Row.stores_holding (List.forall_mem_cons.mpr ⟨hdouble, ?_⟩) (.array ?_)
    · exact List.forall_mem_cons.mpr
        ⟨List.forall_mem_singleton.mpr trivial, List.forall_mem_singleton.mpr hdouble⟩
    · simpa using ⟨.real half, hobject, .real half⟩
  have hmem : ∀ u w v : Json, v ∈ [u, w] ↔ v ∈ [w, u, w] := by grind
  have hsame : Rearranged listed relisted := .elements (hmem _ _)
  have hkey : DataKey.Matches "k" := (DataKey.isValid_iff _).mp rfl
  have hkeys : ∀ inside, KeyInside inside listed → DataKey.Matches inside := by
    intro inside hinside
    have hs : "s" = inside ∨ KeyInside inside (.text "x") ∨ KeyInside inside (.real half) := by
      simpa [listed, keyInside_array_iff, keyInside_object_iff, or_assoc] using hinside
    obtain rfl | h | h := hs
    · exact (DataKey.isValid_iff _).mp rfl
    · exact nomatch h
    · exact nomatch h
  have htexts : ∀ s, Json.Within (.text s) listed → '\x00' ∉ s.toList := by
    intro s hs
    obtain rfl : s = "x" := by simpa [listed] using hs
    decide
  have hreals : ∀ v, v = listed ∨ v = relisted → ∀ x, Json.Within (.real x) v → ReadsBack x := by
    rintro v (rfl | rfl) x hx
    · obtain rfl : x = half := by simpa [listed] using hx
      exact hreads
    · obtain rfl : x = half := by simpa [relisted] using hx
      exact hreads
  have hrow := Row.isOf_holding "k" listed
  have hrow' := Row.isOf_holding "k" relisted
  obtain ⟨hself, htrans, hrearranged⟩ := containment_preorder hrow hrow' ha hb hkey
  have hlisted := hself hkeys htexts (hreals _ (.inl rfl))
  have hrelisted := (hrearranged _ _ hsame hsame).mp hlisted
  have hboth := (hrearranged _ _ hsame (.refl relisted)).mpr hrelisted
  have hnumber : (term "k" (.real half)).Matches .accounts (.holding "k" relisted) := by
    have hcontains : contains (seen (.real half)) (.real half) = true :=
      (contains_number_iff rfl).mpr hreads.exists_number?_seen
    have hheld : contains (seen relisted) (.array [.real half]) = true :=
      contains_array_iff.mpr ⟨_, rfl, List.forall_mem_singleton.mpr
        ⟨_, List.mem_cons_self, hcontains⟩⟩
    refine (hb.matches_term_iff hrow').mpr ⟨⟨hkey, fun _ h => nomatch h⟩, ?_⟩
    exact containsTop_iff.mpr (.inr ⟨by simp [IsSimple], hheld⟩)
  exact ⟨hrow, ha, hb, hsame, hlisted, hrelisted, hboth,
    htrans _ (hreals _ (.inr rfl)) hboth hnumber⟩

/-- A small double with the given significant bits. -/
def small (bits : ℕ) : Json := .real (.finite false ⟨bits, -485⟩)

/-- A text with a NUL does not match itself, nor does a double that is read back as the next one. Of
three neighbouring doubles of which the first two are read back as the next one, each matches the
next, and the first does not match the last. -/
theorem truthOn_altered_values :
    (Predicate.contains "k" (.text "a\x00b")).truthOn [("k", .text "a\x00b")] = some .no ∧
      (Predicate.contains "k" (small 8786245151633214)).truthOn
        [("k", small 8786245151633214)] = some .no ∧
      (Predicate.contains "k" (small 8786245151633215)).truthOn
        [("k", small 8786245151633214)] = some .yes ∧
      (Predicate.contains "k" (small 8786245151633216)).truthOn
        [("k", small 8786245151633215)] = some .yes ∧
      (Predicate.contains "k" (small 8786245151633216)).truthOn
        [("k", small 8786245151633214)] = some .no := by
  decide +kernel

end DoubleEntry.Search
