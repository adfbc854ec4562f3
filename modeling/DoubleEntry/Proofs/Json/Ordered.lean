import DoubleEntry.Proofs.Json.Documents

/-!
# Values that are read back as themselves

A value that was read has the fields of every object in increasing order of their keys. When none of
its numbers is a double, it is written and read again without any change: words and texts are, and
each field comes behind the fields before it as it did in the value.
-/

namespace DoubleEntry.Json

/-- A value whose objects have their fields in increasing order of their keys. -/
inductive IsOrdered : Json → Prop
  | null : IsOrdered .null
  | bool (b : Bool) : IsOrdered (.bool b)
  | integer (n : ℤ) : IsOrdered (.integer n)
  | real (x : Number.Binary64) : IsOrdered (.real x)
  | text (s : String) : IsOrdered (.text s)
  | array {items : List Json} (hitems : ∀ v ∈ items, IsOrdered v) : IsOrdered (.array items)
  | object {fields : List (String × Json)} (hkeys : (Fields.keys fields).Pairwise (· < ·))
      (hfields : ∀ field ∈ fields, IsOrdered field.2) : IsOrdered (.object fields)

/-- A value all of whose numbers are integers. -/
inductive IsIntegral : Json → Prop
  | null : IsIntegral .null
  | bool (b : Bool) : IsIntegral (.bool b)
  | integer (n : ℤ) : IsIntegral (.integer n)
  | text (s : String) : IsIntegral (.text s)
  | array {items : List Json} (hitems : ∀ v ∈ items, IsIntegral v) : IsIntegral (.array items)
  | object {fields : List (String × Json)} (hfields : ∀ field ∈ fields, IsIntegral field.2) :
      IsIntegral (.object fields)

namespace Fields

variable {key : String} {value : Json} {fields : Fields}

/-- A field that is set takes its place in the order of the keys. -/
theorem pairwise_keys_put (h : fields.keys.Pairwise (· < ·)) :
    (fields.put key value).keys.Pairwise (· < ·) := by
  induction fields with
  | nil => exact List.pairwise_singleton _ _
  | cons field rest ih =>
    obtain ⟨k, v⟩ := field
    obtain ⟨hk, hrest⟩ := List.pairwise_cons.mp h
    simp only [put]
    split_ifs with heq hlt
    · subst heq
      exact h
    · refine List.pairwise_cons.mpr ⟨?_, h⟩
      intro later hlater
      rcases List.mem_cons.mp hlater with rfl | hlater
      · exact hlt
      · exact hlt.trans (hk later hlater)
    · refine List.pairwise_cons.mpr ⟨?_, ih hrest⟩
      intro later hlater
      rcases mem_keys_put hlater with rfl | hlater
      · exact lt_of_le_of_ne (not_lt.mp hlt) (Ne.symm heq)
      · exact hk later hlater

/-- A field with a key beyond those before it is set behind them. -/
theorem put_of_lt (h : ∀ k ∈ fields.keys, k < key) :
    fields.put key value = fields ++ [(key, value)] := by
  induction fields with
  | nil => rfl
  | cons field rest ih =>
    obtain ⟨k, v⟩ := field
    obtain ⟨hk, hrest⟩ := List.forall_mem_cons.mp h
    rw [put, if_neg (ne_of_gt hk), if_neg (lt_asymm hk), ih hrest, List.cons_append]

end Fields

/-! ## What is read is ordered -/

/-- A word means a value without parts. -/
theorem isOrdered_of_ofWord? {letters : List Char} {v : Json} (h : ofWord? letters = some v) :
    v.IsOrdered := by
  unfold ofWord? at h
  split_ifs at h
  case neg =>
    obtain ⟨⟨numeral, broken⟩, -, h⟩ := Option.bind_eq_some_iff.mp h
    dsimp only at h
    split_ifs at h
    all_goals first
      | exact Option.some.inj h ▸ .integer _
      | obtain ⟨x, -, rfl⟩ := Option.map_eq_some_iff.mp h
        exact .real x
  all_goals
    obtain rfl := Option.some.inj h
    constructor

/-- Assembled fields are in increasing order of their keys. -/
theorem Reader.Assembled.pairwise_keys {P : Json → Prop} {fields : Fields}
    (h : Assembled P fields) : fields.keys.Pairwise (· < ·) := by
  induction h with
  | nil => exact List.Pairwise.nil
  | put _ _ ih => exact Fields.pairwise_keys_put ih

/-- Reading keeps values ordered. -/
theorem Reader.kept_isOrdered : Kept fun _ v => v.IsOrdered where
  word _ _ _ h := isOrdered_of_ofWord? h
  text _ s := .text s
  array _ h := .array h
  object _ h := .object h.pairwise_keys h.forall_mem

/-- Whatever is read is ordered. -/
theorem isOrdered_of_parse? {text : String} {v : Json} (h : parse? text = some v) : v.IsOrdered :=
  Reader.kept_isOrdered.of_parse? h

/-- The parts of an ordered object are ordered. -/
theorem IsOrdered.get? {fields : Fields} {key : String} {v : Json}
    (h : (Json.object fields).IsOrdered) (hget : fields.get? key = some v) : v.IsOrdered := by
  cases h with
  | object _ hfields => exact hfields _ (Fields.mem_of_get? hget)

/-! ## What is written and read again -/

namespace Reader

/-- Fields are read back behind the fields before them when the value of each of them is and all
keys are in increasing order. -/
theorem readBackFields?_eq_append {depth : ℕ} {before fields : Fields}
    (hkeys : (Fields.keys (before ++ fields)).Pairwise (· < ·))
    (h : ∀ field ∈ fields, readBack? strict depth field.2 = some field.2) :
    readBackFields? strict depth before fields = some (before ++ fields) := by
  induction fields generalizing before with
  | nil => rw [readBackFields?, List.append_nil]
  | cons field rest ih =>
    obtain ⟨k, v⟩ := field
    obtain ⟨hv, hrest⟩ := List.forall_mem_cons.mp h
    have hput : strict.put k v before = before ++ [(k, v)] := by
      apply Fields.put_of_lt
      intro earlier hearlier
      rw [Fields.keys, List.map_append, List.pairwise_append] at hkeys
      exact hkeys.2.2 earlier hearlier k List.mem_cons_self
    rw [readBackFields?, hv, Option.bind_some, hput, ih _ hrest, List.append_assoc]
    · rfl
    · rwa [List.append_assoc]

/-- An ordered value without doubles that fits into the room that is left is read back as itself. -/
theorem readBack?_eq_self {room depth : ℕ} {v : Json} (hfits : v.FitsIn room)
    (hordered : v.IsOrdered) (hintegral : v.IsIntegral) (hroom : depth + room ≤ deepest) :
    readBack? strict depth v = some v := by
  -- The recursion is on the room, as for whether a value is read back at all.
  induction room generalizing depth v with
  | zero =>
    cases hintegral with
    | null | text => rfl
    | bool b => cases b <;> rfl
    | integer n => exact ofWord?_integerText hfits
    | array | object => exact absurd hfits id
  | succ room ih =>
    have hdepth : depth < strict.deepest := by
      change depth < deepest
      omega
    cases hintegral with
    | null | text => rfl
    | bool b => cases b <;> rfl
    | integer n => exact ofWord?_integerText hfits
    | array hitems =>
      rename_i items
      cases hordered with
      | array hordered =>
        have hparts : ∀ v ∈ items, readBack? strict (depth + 1) v = some v :=
          fun v hv => ih (hfits v hv) (hordered v hv) (hitems v hv) (by omega)
        have hall : readBackItems? strict (depth + 1) (items.map id) = some (items.map id) :=
          readBackItems?_map hparts
        rw [List.map_id] at hall
        rw [readBack?, if_pos hdepth, hall, Option.map_some]
    | object hfields =>
      rename_i fields
      cases hordered with
      | object hkeys hordered =>
        have hparts : ∀ field ∈ fields,
            readBack? strict (depth + 1) field.2 = some field.2 := fun field hfield =>
          ih (hfits field hfield) (hordered field hfield) (hfields field hfield) (by omega)
        have hall : readBackFields? strict (depth + 1) [] fields = some ([] ++ fields) :=
          readBackFields?_eq_append hkeys hparts
        rw [readBack?, if_pos hdepth, hall, Option.map_some, List.nil_append]

end Reader

/-- An ordered document without doubles is read back as itself. -/
theorem parse?_render_eq_self {v : Json} (hdocument : v.IsDocument) (hordered : v.IsOrdered)
    (hintegral : v.IsIntegral) : parse? v.render = some v := by
  rw [parse?_render]
  exact Reader.readBack?_eq_self hdocument hordered hintegral (Nat.zero_add _).le

end DoubleEntry.Json
