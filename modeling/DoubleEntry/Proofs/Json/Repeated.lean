import DoubleEntry.Proofs.Json.Parts

/-!
# Fields that are read

Setting a field changes the value under its key and no other. So of several fields with one key the
last decides what the object that is read has under it, and it has what is read of the value of that
field alone, since a value that can be read deep inside others can be read by itself.
-/

namespace DoubleEntry.Json

namespace Fields

/-- Setting a field changes the value under its key and no other. -/
theorem get?_put (key k : String) (value : Json) (fields : Fields) :
    (fields.put k value).get? key = if key = k then some value else fields.get? key := by
  induction fields with
  | nil => rfl
  | cons field rest ih =>
    obtain ⟨l, v⟩ := field
    simp only [put]
    split_ifs with hsame hless hkey hkey <;> simp_all [get?]

end Fields

namespace Reader

variable {rules : Rules}

/-- Items that are each read back inside other values as outside of them are so together. -/
theorem readBackItems?_of_succ {depth : ℕ} {items found : List Json}
    (hitems : ∀ v ∈ items, ∀ w, readBack? rules (depth + 1) v = some w →
      readBack? rules depth v = some w)
    (h : readBackItems? rules (depth + 1) items = some found) :
    readBackItems? rules depth items = some found := by
  induction items generalizing found with
  | nil => exact h
  | cons v rest ih =>
    obtain ⟨hv, hrest⟩ := List.forall_mem_cons.mp hitems
    obtain ⟨w, hw, h⟩ := Option.bind_eq_some_iff.mp h
    obtain ⟨more, hmore, rfl⟩ := Option.map_eq_some_iff.mp h
    rw [readBackItems?, hv w hw, Option.bind_some, ih hrest hmore, Option.map_some]

/-- Fields whose values are each read back inside other values as outside of them are so together. -/
theorem readBackFields?_of_succ {depth : ℕ} {before fields found : Fields}
    (hfields : ∀ field ∈ fields, ∀ w, readBack? rules (depth + 1) field.2 = some w →
      readBack? rules depth field.2 = some w)
    (h : readBackFields? rules (depth + 1) before fields = some found) :
    readBackFields? rules depth before fields = some found := by
  induction fields generalizing before with
  | nil => exact h
  | cons field rest ih =>
    obtain ⟨hfield, hrest⟩ := List.forall_mem_cons.mp hfields
    obtain ⟨w, hw, h⟩ := Option.bind_eq_some_iff.mp h
    rw [readBackFields?, hfield w hw, Option.bind_some]
    exact ih hrest h

/-- What is read back inside other values is read back alike outside of them. -/
theorem readBack?_of_succ {depth : ℕ} {v w : Json} (h : readBack? rules (depth + 1) v = some w) :
    readBack? rules depth v = some w := by
  induction v using inductionOn generalizing depth w with
  | null => exact h
  | bool b => cases b <;> exact h
  | integer n => exact h
  | real x => exact h
  | text s => exact h
  | array items ih =>
    rw [readBack?] at h ⊢
    split_ifs at h with hdepth
    obtain ⟨found, hfound, rfl⟩ := Option.map_eq_some_iff.mp h
    have hitems := readBackItems?_of_succ (fun v hv _ => ih v hv) hfound
    rw [if_pos (by omega), hitems, Option.map_some]
  | object fields ih =>
    rw [readBack?] at h ⊢
    split_ifs at h with hdepth
    obtain ⟨found, hfound, rfl⟩ := Option.map_eq_some_iff.mp h
    have hfields := readBackFields?_of_succ (fun field hfield _ => ih field hfield) hfound
    rw [if_pos (by omega), hfields, Option.map_some]

variable {depth : ℕ} {key : String} {before fields found : Fields}

/-- Reading fields back keeps what is under a key that none of them has. -/
theorem get?_readBackFields?_of_notMem (h : readBackFields? strict depth before fields = some found)
    (hkey : key ∉ fields.keys) : found.get? key = before.get? key := by
  induction fields generalizing before with
  | nil =>
    obtain rfl := Option.some.inj h
    rfl
  | cons field rest ih =>
    obtain ⟨k, v⟩ := field
    obtain ⟨w, -, hrest⟩ := Option.bind_eq_some_iff.mp h
    obtain ⟨hother, hlater⟩ := not_or.mp (List.mem_cons.not.mp hkey)
    rw [ih hrest hlater]
    exact (Fields.get?_put key k w before).trans (if_neg hother)

/-- Reading fields back gives under a key what the value of the last field with the key is read back
as. -/
theorem exists_get?_readBackFields? {front back : Fields} {v : Json}
    (h : readBackFields? strict depth before (front ++ (key, v) :: back) = some found)
    (hlast : key ∉ back.keys) :
    ∃ w, readBack? strict depth v = some w ∧ found.get? key = some w := by
  induction front generalizing before with
  | nil =>
    obtain ⟨w, hw, hback⟩ := Option.bind_eq_some_iff.mp h
    refine ⟨w, hw, ?_⟩
    rw [get?_readBackFields?_of_notMem hback hlast]
    exact (Fields.get?_put key key w before).trans (if_pos rfl)
  | cons field rest ih =>
    obtain ⟨w, -, hrest⟩ := Option.bind_eq_some_iff.mp h
    exact ih hrest

end Reader

/-- An object is written and read again as the object of the fields that are read back. -/
theorem parse?_render_object_eq_some_iff {fields : Fields} {v : Json} :
    parse? (Json.object fields).render = some v ↔
      ∃ found, Reader.readBackFields? Reader.strict 1 [] fields = some found ∧
        v = .object found := by
  rw [parse?_render, Reader.readBack?, if_pos (by decide), Option.map_eq_some_iff]
  exact exists_congr fun found => and_congr_right fun _ => eq_comm

/-- Of several fields with one key the last decides what is read under it. -/
theorem get?_of_parse?_render_object {front back found : Fields} {key : String} {v : Json}
    (h : parse? (Json.object (front ++ (key, v) :: back)).render = some (.object found))
    (hlast : key ∉ back.keys) : ∃ w, parse? v.render = some w ∧ found.get? key = some w := by
  obtain ⟨_, hread, heq⟩ := parse?_render_object_eq_some_iff.mp h
  obtain rfl := Json.object.inj heq
  obtain ⟨w, hw, hget⟩ := Reader.exists_get?_readBackFields? hread hlast
  exact ⟨w, by rw [parse?_render, Reader.readBack?_of_succ hw], hget⟩

end DoubleEntry.Json
