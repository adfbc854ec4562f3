import DoubleEntry.Proofs.Json.Ordered
import DoubleEntry.Proofs.Number.Extended
import DoubleEntry.Proofs.Search.Verdicts

/-!
# Stored values as conditions see them

What conditions see of a data map is computed from the map without its text. Texts, truth values and
the shape of arrays and objects are as they were written, and numbers are read again: an integer
that fits a signed word is itself, a larger one is its nearest double, and a double is what the
reader of the store makes of its digits.
-/

namespace DoubleEntry.Search

open Number (Binary64 Numeral)

mutual

/-- A written value as conditions see it. -/
def seen : Json → Json
  | .null => .null
  | .bool b => .bool b
  | .integer n => (storedWord? (Json.integerText n)).getD .null
  | .real x => (storedWord? (Json.realLetters x)).getD .null
  | .text s => .text s
  | .array items => .array (seenItems items)
  | .object fields => .object (seenFields fields)

/-- Written items as conditions see them. -/
def seenItems : List Json → List Json
  | [] => []
  | v :: rest => seen v :: seenItems rest

/-- Written fields as conditions see them. -/
def seenFields : List (String × Json) → List (String × Json)
  | [] => []
  | (key, v) :: rest => (key, seen v) :: seenFields rest

end

/-- Items are seen one by one. -/
theorem seenItems_eq_map (items : List Json) : seenItems items = items.map seen := by
  induction items with
  | nil => rfl
  | cons v rest ih => rw [seenItems, List.map_cons, ih]

/-- Fields are seen one by one, under their keys. -/
theorem seenFields_eq_map (fields : Json.Fields) :
    seenFields fields = fields.map fun field => (field.1, seen field.2) := by
  induction fields with
  | nil => rfl
  | cons field rest ih => rw [seenFields, List.map_cons, ih]

/-- The value under a key is seen under it. -/
theorem get?_seenFields (key : String) (fields : Json.Fields) :
    Json.Fields.get? key (seenFields fields) = (fields.get? key).map seen := by
  induction fields with
  | nil => rfl
  | cons field rest ih =>
    rw [seenFields, Json.Fields.get?, Json.Fields.get?, ih]
    split_ifs <;> rfl

/-! ## Numbers -/

/-- A numeral is read as a number and not as one of the literals. -/
theorem storedWord?_of_numeral? {letters : List Char} {numeral : Numeral} {broken : Bool}
    (h : Json.numeral? letters = some (numeral, broken)) :
    storedWord? letters = some (storedNumeral numeral broken) := by
  have hne : ∀ literal, Json.numeral? literal = none → letters ≠ literal := by
    rintro literal hnone rfl
    rw [hnone] at h
    exact absurd h (by simp)
  rw [storedWord?, if_neg (hne _ rfl), if_neg (hne _ rfl), if_neg (hne _ rfl), h]
  rfl

/-- An integer is seen as itself if it fits a signed word, and otherwise as its nearest double. -/
theorem seen_integer {n : ℤ} (h : Json.fitsWord n = true) :
    seen (.integer n) = if fitsSigned n then .integer n else .real (Binary64.ofInt n) := by
  rw [seen, storedWord?_of_numeral? (Json.numeral?_integerText n), Option.getD_some, storedNumeral]
  simp only [Json.value_integerText, Bool.not_false, Bool.true_and]
  change (if fitsSigned n = true then _ else _) = _
  by_cases hsigned : fitsSigned n = true
  · rw [if_pos hsigned, if_pos hsigned]
  · rw [if_neg hsigned, if_neg hsigned]
    simp only [fitsSigned, decide_eq_true_eq] at hsigned
    simp only [Json.fitsWord, decide_eq_true_eq] at h
    have hsome : (0 : ℤ) < Number.wordCount 63 := by decide
    rw [Numeral.extended_toDigits (by omega) (by omega)]
    rfl

/-- An integer is seen as a number at the place that it has as an operand. -/
theorem exists_number?_seen_integer {n : ℤ} (h : Json.fitsWord n = true) :
    ∃ value, Entry.number? (seen (.integer n)) = some value ∧
      value.place? = some (Operand.ofInt n).place := by
  rw [seen_integer h, Operand.ofInt]
  split_ifs <;> exact ⟨_, rfl, rfl⟩

/-- A double that stored data has with the same value. -/
def ReadsBack (x : Binary64) : Prop :=
  ∃ y, storedWord? (Json.realLetters x) = some (.real y) ∧ y.value = x.value

/-- A double is read back if the numeral that is written for it is, in extended precision. -/
theorem ReadsBack.of_numeral? {x : Binary64} {numeral : Numeral}
    (h : Json.numeral? (Json.realLetters x) = some (numeral, true))
    (hvalue : numeral.extended.value = x.value) : ReadsBack x :=
  ⟨numeral.extended, storedWord?_of_numeral? h, hvalue⟩

/-- A double that is read back is seen as a number at the place that it has as an operand. -/
theorem ReadsBack.exists_number?_seen {x : Binary64} (h : ReadsBack x) :
    ∃ value, Entry.number? (seen (.real x)) = some value ∧
      value.place? = some (Operand.real x).place := by
  obtain ⟨y, hy, hvalue⟩ := h
  refine ⟨.real y, by rw [seen, hy]; rfl, ?_⟩
  rw [Value.place?, Operand.place, hvalue]

/-- A word in stored data is no array and no object. -/
theorem storedWord?_getD_cases (letters : List Char) :
    (storedWord? letters).getD .null = .null ∨ (∃ b, (storedWord? letters).getD .null = .bool b) ∨
      (∃ n, (storedWord? letters).getD .null = .integer n) ∨
        ∃ x, (storedWord? letters).getD .null = .real x := by
  unfold storedWord?
  split_ifs
  · simp
  · simp
  · simp
  · cases Json.numeral? letters with
    | none => simp
    | some found =>
      simp only [Option.map_some, Option.getD_some, storedNumeral]
      split_ifs <;> simp

/-- Only arrays are seen as arrays. -/
theorem seen_eq_array_iff {v : Json} {found : List Json} :
    seen v = .array found ↔ ∃ items, v = .array items ∧ items.map seen = found := by
  cases v with
  | integer n =>
    rw [seen]
    obtain h | ⟨_, h⟩ | ⟨_, h⟩ | ⟨_, h⟩ := storedWord?_getD_cases (Json.integerText n) <;> simp [h]
  | real x =>
    rw [seen]
    obtain h | ⟨_, h⟩ | ⟨_, h⟩ | ⟨_, h⟩ := storedWord?_getD_cases (Json.realLetters x) <;> simp [h]
  | array items => simp [seen, seenItems_eq_map]
  | null | bool | text | object => simp [seen]

/-- Only objects are seen as objects. -/
theorem seen_eq_object_iff {v : Json} {found : Json.Fields} :
    seen v = .object found ↔ ∃ fields, v = .object fields ∧ seenFields fields = found := by
  cases v with
  | integer n =>
    rw [seen]
    obtain h | ⟨_, h⟩ | ⟨_, h⟩ | ⟨_, h⟩ := storedWord?_getD_cases (Json.integerText n) <;> simp [h]
  | real x =>
    rw [seen]
    obtain h | ⟨_, h⟩ | ⟨_, h⟩ | ⟨_, h⟩ := storedWord?_getD_cases (Json.realLetters x) <;> simp [h]
  | object fields => simp [seen]
  | null | bool | text | array => simp [seen]

/-! ## What is read -/

open Json.Reader (readBack? readBackItems? readBackFields?)

/-- A word of a request is seen as what stored data has in its place. -/
theorem storedWord?_eq_some_getD {letters : List Char}
    (h : (Json.ofWord? letters).isSome = true) :
    storedWord? letters = some ((storedWord? letters).getD .null) := by
  obtain ⟨v, hv⟩ := Option.isSome_iff_exists.mp (storedWord?_isSome h)
  rw [hv, Option.getD_some]

/-- Items that are each read as they are seen are read so together. -/
theorem readBackItems?_seen {depth : ℕ} {items : List Json}
    (h : ∀ v ∈ items, readBack? storedRules depth v = some (seen v)) :
    readBackItems? storedRules depth items = some (seenItems items) := by
  induction items with
  | nil => rfl
  | cons v rest ih =>
    obtain ⟨hv, hrest⟩ := List.forall_mem_cons.mp h
    rw [readBackItems?, hv, ih hrest, seenItems]
    rfl

/-- Fields whose values are each read as they are seen are read so behind those before them. -/
theorem readBackFields?_seen {depth : ℕ} {fields : Json.Fields}
    (h : ∀ field ∈ fields, readBack? storedRules depth field.2 = some (seen field.2))
    (before : Json.Fields) :
    readBackFields? storedRules depth before fields = some (before ++ seenFields fields) := by
  induction fields generalizing before with
  | nil => rw [readBackFields?, seenFields, List.append_nil]
  | cons field rest ih =>
    obtain ⟨hv, hrest⟩ := List.forall_mem_cons.mp h
    rw [readBackFields?, hv, Option.bind_some, ih hrest, seenFields]
    exact congrArg some (List.append_assoc _ _ _)

/-- A value that fits into the room that is left is read by a search as it is seen. -/
theorem readBack?_seen {room depth : ℕ} {v : Json} (h : v.FitsIn room)
    (hroom : depth + room ≤ storedRules.deepest) :
    readBack? storedRules depth v = some (seen v) := by
  -- The recursion is on the room, as for whether a value is read back at all.
  induction room generalizing depth v with
  | zero =>
    cases v with
    | null | text => rfl
    | bool b => cases b <;> rfl
    | integer n =>
      exact storedWord?_eq_some_getD (by rw [Json.ofWord?_integerText h]; rfl)
    | real x => exact storedWord?_eq_some_getD (Json.isSome_ofWord?_realLetters h)
    | array | object => exact absurd h id
  | succ room ih =>
    have hdepth : depth < storedRules.deepest := by omega
    cases v with
    | null | text => rfl
    | bool b => cases b <;> rfl
    | integer n =>
      exact storedWord?_eq_some_getD (by rw [Json.ofWord?_integerText h]; rfl)
    | real x => exact storedWord?_eq_some_getD (Json.isSome_ofWord?_realLetters h)
    | array items =>
      rw [readBack?, if_pos hdepth, readBackItems?_seen fun v hv => ih (h v hv) (by omega)]
      rfl
    | object fields =>
      rw [readBack?, if_pos hdepth,
        readBackFields?_seen (fun field hfield => ih (h field hfield) (by omega)) []]
      rfl

/-- A data map that is a document is read by a search as it is seen. -/
theorem storedValue?_stored {data : Data} (h : (Json.object data).IsDocument) :
    storedValue? (some data.stored) = some (seen (.object data)) := by
  rw [storedValue?, Data.stored, Json.render, String.toList_ofList, Json.Reader.read?_letters,
    readBack?_seen h (by decide)]
  rfl

/-- A row whose data map was written with a value under a key. -/
def Row.Stores (row : Row) (key : String) (value : Json) : Prop :=
  ∃ data : Data, (Json.object data).IsDocument ∧ (Json.object data).IsOrdered ∧
    data.get? key = some value ∧ storedValue? (some data.stored) = some row.data

namespace Row.Stores

variable {row : Row} {key : String} {value : Json}

/-- The value of a written data map is a document. -/
theorem isDocument (h : row.Stores key value) : value.IsDocument := by
  obtain ⟨data, hdocument, -, hget, -⟩ := h
  exact hdocument.get? hget

/-- The value of a written data map is ordered. -/
theorem isOrdered (h : row.Stores key value) : value.IsOrdered := by
  obtain ⟨data, -, hordered, hget, -⟩ := h
  exact hordered.get? hget

/-- The entry of a row is what was written, as it is seen. -/
theorem entry?_eq (h : row.Stores key value) : row.entry? key = some (seen value) := by
  obtain ⟨data, hdocument, -, hget, hdata⟩ := h
  rw [storedValue?_stored hdocument] at hdata
  unfold entry?
  rw [← Option.some.inj hdata, seen, entryAt?, get?_seenFields, hget]
  rfl

end Row.Stores

/-- The row of an account stores the values of the map that was written for it. -/
theorem stores_accountRow {data : Data} {key : String} {value : Json}
    (hdocument : (Json.object data).IsDocument) (hordered : (Json.object data).IsOrdered)
    (hget : data.get? key = some value) (t : Tables) (id : String) :
    (accountRow t ⟨id, data.stored⟩).Stores key value := by
  refine ⟨data, hdocument, hordered, hget, ?_⟩
  rw [accountRow, storedValue?_stored hdocument, Option.getD_some]

/-- The row of a transaction stores the values of the map that was written for it. -/
theorem stores_headerRow {data : Data} {key : String} {value : Json}
    (hdocument : (Json.object data).IsDocument) (hordered : (Json.object data).IsOrdered)
    (hget : data.get? key = some value) (id timestamp : String) :
    (headerRow ⟨id, timestamp, some data.stored⟩).Stores key value := by
  refine ⟨data, hdocument, hordered, hget, ?_⟩
  rw [headerRow, storedValue?_stored hdocument, Option.getD_some]

/-- An account with one value in its data map. -/
def Row.holding (key : String) (value : Json) : Row :=
  ⟨accountColumn ⟨"a", Data.stored [(key, value)]⟩ (some 0), seen (.object [(key, value)])⟩

/-- Such an account is one of the rows of accounts. -/
theorem Row.isOf_holding (key : String) (value : Json) : (holding key value).IsOf .accounts :=
  .account _ _ _

/-- Such an account stores an ordered value that fits into its data map. -/
theorem Row.stores_holding {key : String} {value : Json}
    (hfits : value.FitsIn (Json.Reader.deepest - 1)) (hordered : value.IsOrdered) :
    (holding key value).Stores key value := by
  have hdocument : (Json.object [(key, value)]).IsDocument :=
    List.forall_mem_singleton.mpr hfits
  refine ⟨[(key, value)], hdocument, ?_, ?_, storedValue?_stored hdocument⟩
  · exact .object (List.pairwise_singleton _ _) (List.forall_mem_singleton.mpr hordered)
  · exact if_pos rfl

end DoubleEntry.Search
