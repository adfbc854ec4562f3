import DoubleEntry.Body
import DoubleEntry.Proofs.Json.Reading
import DoubleEntry.Proofs.Json.Reals

/-!
# Documents

A document is a value that a text can bring in: its numbers are words or doubles, and it does not
nest too deep. Whatever is read is a document, and so are its parts. A document that is written is
read again, perhaps with other numbers.
-/

namespace DoubleEntry

namespace Json

/-- Whether all numbers of a value are words or doubles, and no more than `room` arrays and objects
are inside each other. -/
def FitsIn : ℕ → Json → Prop
  | _, .integer n => fitsWord n = true
  | _, .real x => x.IsDouble
  | 0, .array _ | 0, .object _ => False
  | room + 1, .array items => ∀ v ∈ items, FitsIn room v
  | room + 1, .object fields => ∀ field ∈ fields, FitsIn room field.2
  | _, .null | _, .bool _ | _, .text _ => True

/-- A value that a text can bring in. -/
def IsDocument (v : Json) : Prop := v.FitsIn Reader.deepest

/-- What fits has more than enough room where there is more. -/
theorem FitsIn.mono {small large : ℕ} {v : Json} (h : v.FitsIn small) (hle : small ≤ large) :
    v.FitsIn large := by
  induction small generalizing large v with
  | zero => cases v <;> cases large <;> simp_all [FitsIn]
  | succ small ih =>
    obtain ⟨large, rfl⟩ : ∃ n, large = n + 1 := ⟨large - 1, by omega⟩
    have hle : small ≤ large := by omega
    cases v with
    | array items => exact fun v hv => ih (h v hv) hle
    | object fields => exact fun field hfield => ih (h field hfield) hle
    | null | bool | text => trivial
    | integer | real => exact h

/-- A word means a value without parts that fits anywhere. -/
theorem fitsIn_of_ofWord? {letters : List Char} {v : Json} (h : ofWord? letters = some v)
    (room : ℕ) : v.FitsIn room := by
  unfold ofWord? at h
  split_ifs at h
  case neg =>
    obtain ⟨⟨numeral, broken⟩, -, h⟩ := Option.bind_eq_some_iff.mp h
    dsimp only at h
    generalize (if numeral.negative = true then -(Number.ofDigits numeral.whole : ℤ)
      else Number.ofDigits numeral.whole) = value at h
    split_ifs at h with hinteger
    · obtain rfl := Option.some.inj h
      have hfits := (Bool.and_eq_true_iff.mp (Bool.and_eq_true_iff.mp hinteger).1).2
      cases room <;> exact hfits
    · obtain ⟨x, hx, rfl⟩ := Option.map_eq_some_iff.mp h
      cases room <;> exact Number.Numeral.isDouble_stepwise? hx
  all_goals
    obtain rfl := Option.some.inj h
    cases room <;> trivial

/-! ## What is read -/

/-- Reading keeps values within the room that is left at their depth. -/
theorem Reader.kept_fitsIn : Kept fun depth v => v.FitsIn (deepest - depth) where
  word _ _ _ h := fitsIn_of_ofWord? h _
  text depth _ := by cases deepest - depth <;> trivial
  array {depth _} hdepth h := by
    have hroom : deepest - depth = deepest - (depth + 1) + 1 := by omega
    rw [hroom]
    exact h
  object {depth _} hdepth h := by
    have hroom : deepest - depth = deepest - (depth + 1) + 1 := by omega
    rw [hroom]
    exact h.forall_mem

/-- Whatever is read is a document. -/
theorem isDocument_of_parse? {text : String} {v : Json} (h : parse? text = some v) :
    v.IsDocument :=
  Reader.kept_fitsIn.of_parse? h

/-! ## What is read again -/

namespace Reader

/-- Items are read back when each of them is. -/
theorem isSome_readBackItems? {rules : Rules} {depth : ℕ} {items : List Json}
    (h : ∀ v ∈ items, (readBack? rules depth v).isSome = true) :
    (readBackItems? rules depth items).isSome = true := by
  induction items with
  | nil => rfl
  | cons v rest ih =>
    obtain ⟨hv, hrest⟩ := List.forall_mem_cons.mp h
    obtain ⟨w, hw⟩ := Option.isSome_iff_exists.mp hv
    rw [readBackItems?, hw, Option.bind_some, Option.isSome_map]
    exact ih hrest

/-- Fields are read back when the value of each of them is. -/
theorem isSome_readBackFields? {rules : Rules} {depth : ℕ} {fields : Fields}
    (h : ∀ field ∈ fields, (readBack? rules depth field.2).isSome = true) (before : Fields) :
    (readBackFields? rules depth before fields).isSome = true := by
  induction fields generalizing before with
  | nil => rfl
  | cons field rest ih =>
    obtain ⟨hv, hrest⟩ := List.forall_mem_cons.mp h
    obtain ⟨w, hw⟩ := Option.isSome_iff_exists.mp hv
    rw [readBackFields?, hw, Option.bind_some]
    exact ih hrest _

/-- A value that fits into the room that is left is read back. -/
theorem isSome_readBack? {room depth : ℕ} {v : Json} (h : v.FitsIn room)
    (hroom : depth + room ≤ deepest) : (readBack? strict depth v).isSome = true := by
  cases v with
  | null | text => rfl
  | bool b => cases b <;> rfl
  | integer n =>
    have hn : fitsWord n = true := by cases room <;> exact h
    exact congrArg Option.isSome (ofWord?_integerText hn)
  | real x =>
    have hx : x.IsDouble := by cases room <;> exact h
    exact isSome_ofWord?_realLetters hx
  | array items =>
    cases room with
    | zero => exact absurd h id
    | succ room =>
      have hdepth : depth < strict.deepest := by change depth < deepest; omega
      rw [readBack?, if_pos hdepth, Option.isSome_map]
      exact isSome_readBackItems? fun v hv => isSome_readBack? (h v hv) (by omega)
  | object fields =>
    cases room with
    | zero => exact absurd h id
    | succ room =>
      have hdepth : depth < strict.deepest := by change depth < deepest; omega
      rw [readBack?, if_pos hdepth, Option.isSome_map]
      exact isSome_readBackFields?
        (fun field hfield => isSome_readBack? (h field hfield) (by omega)) []

end Reader

/-- A document that is written is read again. -/
theorem IsDocument.isSome_parse?_render {v : Json} (h : v.IsDocument) :
    (parse? v.render).isSome = true := by
  rw [parse?_render]
  exact Reader.isSome_readBack? h (Nat.zero_add _).le

/-- One array more than a document may have inside each other is written and not read again. -/
example : parse? ((fun v => Json.array [v])^[128] .null).render = none := by
  rw [parse?_render]
  decide +kernel

/-- The value under a key is that of a field with the key. -/
theorem Fields.mem_of_get? {key : String} {value : Json} {fields : Fields}
    (h : fields.get? key = some value) : (key, value) ∈ fields := by
  induction fields with
  | nil => exact absurd h (by simp [get?])
  | cons field rest ih =>
    obtain ⟨k, v⟩ := field
    rw [get?] at h
    split_ifs at h with hk
    · rw [hk, Option.some.inj h]
      exact List.mem_cons_self
    · exact List.mem_cons_of_mem _ (ih h)

/-- The parts of a document are documents. -/
theorem IsDocument.get? {fields : Fields} {key : String} {v : Json}
    (h : (Json.object fields).IsDocument) (hget : fields.get? key = some v) : v.IsDocument := by
  have hfits : ∀ field ∈ fields, field.2.FitsIn (Reader.deepest - 1) := h
  exact (hfits _ (Fields.mem_of_get? hget)).mono (Nat.sub_le _ _)

end Json

/-! ## Request bodies -/

/-- A request body that is accepted was read from its text. -/
theorem Body.exists_parse?_of_ofText {α : Type} {shape? : Json.Fields → Option α} {text : String}
    {a : α} (h : Body.ofText shape? text = .ok a) :
    ∃ body, Json.parse? text = some (.object body) ∧ shape? body = some a := by
  unfold Body.ofText at h
  split at h
  · exact absurd h (by simp)
  next fields hparse =>
    refine ⟨fields, hparse, ?_⟩
    split at h
    next hshape => rw [hshape, Except.ok.inj h]
    next => exact absurd h (by simp)
  · exact absurd h (by simp)

/-- A body of bytes that is accepted was read from some text. -/
theorem Body.exists_parse?_of_ofBytes {α : Type} {shape? : Json.Fields → Option α}
    {bytes : List UInt8} {a : α} (h : Body.ofBytes shape? bytes = .ok a) :
    ∃ text body, Json.parse? text = some (.object body) ∧ shape? body = some a := by
  unfold Body.ofBytes at h
  split at h
  · exact ⟨_, Body.exists_parse?_of_ofText h⟩
  · exact absurd h (by simp)

/-- The data map of a submitted transaction is the one of its body. -/
theorem Transaction.data_of_ofBody? {body : Json.Fields} {t : Transaction}
    (h : Transaction.ofBody? body = some t) : Data.ofBody? body = some t.data := by
  obtain ⟨_, -, h⟩ := Option.bind_eq_some_iff.mp h
  obtain ⟨id, -, h⟩ := Option.bind_eq_some_iff.mp h
  obtain ⟨timestamp, -, h⟩ := Option.bind_eq_some_iff.mp h
  obtain ⟨data, hdata, h⟩ := Option.bind_eq_some_iff.mp h
  obtain ⟨lines, -, h⟩ := Option.bind_eq_some_iff.mp h
  obtain rfl := Option.some.inj h
  exact hdata

/-- The data map that goes with an id is the one of its body. -/
theorem DataRequest.data_of_ofBody? {body : Json.Fields} {a : DataRequest}
    (h : DataRequest.ofBody? body = some a) : Data.ofBody? body = some a.data := by
  obtain ⟨_, -, h⟩ := Option.bind_eq_some_iff.mp h
  obtain ⟨id, -, h⟩ := Option.bind_eq_some_iff.mp h
  obtain ⟨data, hdata, h⟩ := Option.bind_eq_some_iff.mp h
  obtain rfl := Option.some.inj h
  exact hdata

/-- The data map of a request body is empty or the value of its field. -/
theorem Data.eq_nil_or_get?_of_ofBody? {body : Json.Fields} {data : Data}
    (h : Data.ofBody? body = some data) : data = [] ∨ body.get? "data" = some (.object data) := by
  unfold Data.ofBody? at h
  split at h
  · exact .inl (Option.some.inj h).symm
  · exact .inl (Option.some.inj h).symm
  next fields hget => exact .inr (Option.some.inj h ▸ hget)
  · exact absurd h (by simp)

/-- The data map of a request body leaves room for the object around it. -/
theorem Data.fitsIn_of_ofBody? {body : Json.Fields} {data : Data}
    (hbody : (Json.object body).IsDocument) (h : Data.ofBody? body = some data) :
    (Json.object data).FitsIn 126 := by
  rcases eq_nil_or_get?_of_ofBody? h with rfl | hget
  · exact fun _ hfield => absurd hfield List.not_mem_nil
  · have hfits : ∀ field ∈ body, field.2.FitsIn 126 := hbody
    exact hfits _ (Json.Fields.mem_of_get? hget)

/-- The data map of a request body is a document. -/
theorem Data.isDocument_of_ofBody? {body : Json.Fields} {data : Data}
    (hbody : (Json.object body).IsDocument) (h : Data.ofBody? body = some data) :
    (Json.object data).IsDocument :=
  (fitsIn_of_ofBody? hbody h).mono (Nat.le_succ 126)

end DoubleEntry
