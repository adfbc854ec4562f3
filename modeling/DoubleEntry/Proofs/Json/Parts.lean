import DoubleEntry.Proofs.Json.Ordered

/-!
# Parts of values

Values are met by induction over their parts. What holds of a value that fits a document or of an
ordered object holds of the parts. Values whose arrays differ only in the order and the number of
their elements are rearrangements of each other.
-/

namespace DoubleEntry.Json

/-- What holds of all values without parts, of arrays when it does of their items, and of objects
when it does of the values of their fields, holds of all values. -/
theorem inductionOn {P : Json → Prop} (null : P .null) (bool : ∀ b, P (.bool b))
    (integer : ∀ n, P (.integer n)) (real : ∀ x, P (.real x)) (text : ∀ s, P (.text s))
    (array : ∀ items : List Json, (∀ v ∈ items, P v) → P (.array items))
    (object : ∀ fields : List (String × Json), (∀ field ∈ fields, P field.2) → P (.object fields))
    (v : Json) : P v :=
  @Json.rec P (fun items => ∀ v ∈ items, P v) (fun fields => ∀ field ∈ fields, P field.2)
    (fun field => P field.2) null bool integer real text array object
    (fun _ h => absurd h List.not_mem_nil)
    (fun _ _ hv hrest => List.forall_mem_cons.mpr ⟨hv, hrest⟩)
    (fun _ h => absurd h List.not_mem_nil)
    (fun _ _ hfield hrest => List.forall_mem_cons.mpr ⟨hfield, hrest⟩)
    (fun _ _ hv => hv) v

/-- A value that another is or has anywhere inside it. -/
inductive Within (u : Json) : Json → Prop where
  | refl : Within u u
  | item {items : List Json} {v : Json} (hv : v ∈ items) (h : Within u v) : Within u (.array items)
  | field {fields : Fields} {key : String} {v : Json} (hv : (key, v) ∈ fields)
      (h : Within u v) : Within u (.object fields)

/-- A number is all that it has inside. -/
@[simp]
theorem within_real_iff {u : Json} {x : Number.Binary64} : Within u (.real x) ↔ u = .real x := by
  constructor
  · rintro (_ | _ | _)
    rfl
  · rintro rfl
    exact .refl

/-- A text is all that it has inside. -/
@[simp]
theorem within_text_iff {u : Json} {s : String} : Within u (.text s) ↔ u = .text s := by
  constructor
  · rintro (_ | _ | _)
    rfl
  · rintro rfl
    exact .refl

/-- An array has itself inside and what its items have. -/
@[simp]
theorem within_array_iff {u : Json} {items : List Json} :
    Within u (.array items) ↔ u = .array items ∨ ∃ v ∈ items, Within u v := by
  constructor
  · rintro (_ | ⟨hv, h⟩ | _)
    · exact .inl rfl
    · exact .inr ⟨_, hv, h⟩
  · rintro (rfl | ⟨v, hv, h⟩)
    · exact .refl
    · exact .item hv h

/-- An object has itself inside and what the values of its fields have. -/
@[simp]
theorem within_object_iff {u : Json} {fields : Fields} :
    Within u (.object fields) ↔ u = .object fields ∨ ∃ field ∈ fields, Within u field.2 := by
  constructor
  · rintro (_ | _ | ⟨hv, h⟩)
    · exact .inl rfl
    · exact .inr ⟨_, hv, h⟩
  · rintro (rfl | ⟨field, hfield, h⟩)
    · exact .refl
    · exact .field hfield h

/-- The integers inside a value that fits are words. -/
theorem FitsIn.fitsWord_of_within {v : Json} {n : ℤ} (hn : Within (.integer n) v) {room : ℕ}
    (h : v.FitsIn room) : fitsWord n = true := by
  induction hn generalizing room with
  | refl => cases room <;> exact h
  | item hv _ ih =>
    cases room with
    | zero => exact absurd h id
    | succ room => exact ih (h _ hv)
  | field hv _ ih =>
    cases room with
    | zero => exact absurd h id
    | succ room => exact ih (h _ hv)

/-- A field of an ordered object is the value under its key. -/
theorem Fields.get?_of_mem {key : String} {value : Json} {fields : Fields}
    (hkeys : fields.keys.Pairwise (· < ·)) (h : (key, value) ∈ fields) :
    fields.get? key = some value := by
  induction fields with
  | nil => exact absurd h List.not_mem_nil
  | cons field rest ih =>
    obtain ⟨k, v⟩ := field
    obtain ⟨hfirst, hrest⟩ := List.pairwise_cons.mp hkeys
    rw [get?]
    obtain heq | hmem := List.mem_cons.mp h
    · obtain ⟨rfl, rfl⟩ := Prod.mk.inj heq
      exact if_pos rfl
    · have hless := hfirst key (List.mem_map_of_mem (f := Prod.fst) hmem)
      rw [if_neg hless.ne', ih hrest hmem]

/-! ## Rearranged values -/

/-- Values that differ only in the order of the elements of their arrays, at any depth, and in how
often one is repeated. -/
inductive Rearranged : Json → Json → Prop where
  | refl (v : Json) : Rearranged v v
  | elements {items items' : List Json} (h : ∀ v, v ∈ items ↔ v ∈ items') :
      Rearranged (.array items) (.array items')
  | item (before after : List Json) {v v' : Json} (h : Rearranged v v') :
      Rearranged (.array (before ++ v :: after)) (.array (before ++ v' :: after))
  | field (before after : Fields) (key : String) {v v' : Json} (h : Rearranged v v') :
      Rearranged (.object (before ++ (key, v) :: after)) (.object (before ++ (key, v') :: after))
  | trans {u v w : Json} (h : Rearranged u v) (h' : Rearranged v w) : Rearranged u w

/-- The value under a key changes as that of one field does. -/
theorem Fields.any_get?_replaced {P : Json → Bool} {v v' : Json} (h : P v = P v')
    (name key : String) (before after : Fields) :
    (get? name (before ++ (key, v) :: after)).any P =
      (get? name (before ++ (key, v') :: after)).any P := by
  induction before with
  | nil =>
    rw [List.nil_append, List.nil_append, get?, get?]
    split_ifs
    · exact h
    · rfl
  | cons field rest ih =>
    rw [List.cons_append, List.cons_append, get?, get?]
    split_ifs
    · rfl
    · exact ih

end DoubleEntry.Json
