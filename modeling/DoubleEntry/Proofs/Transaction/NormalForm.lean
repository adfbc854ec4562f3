import DoubleEntry.Proofs.Json.Repeated
import DoubleEntry.Proofs.Store.Data
import DoubleEntry.Proofs.Text.Utf8
import DoubleEntry.Proofs.Time.ReadBack

/-!
# The normal form of a transaction

However a transaction was written in the body that brought it, with fields in any order, unknown or
repeated ones, lines as pairs and any form of a timestamp, it is written in one way: with the fields
in a fixed order, without a timestamp when it has none, with its data map and its lines as objects.
This text is read as the same transaction, so there is one text for each.
-/

namespace DoubleEntry

/-! ## Fields -/

namespace Json

/-- Fields whose values are read back as themselves are set one after another. -/
theorem Reader.readBackFields?_eq_foldl {depth : ℕ} {before fields : Fields}
    (h : ∀ field ∈ fields, readBack? strict depth field.2 = some field.2) :
    readBackFields? strict depth before fields =
      some (fields.foldl (fun done f => Fields.put f.1 f.2 done) before) := by
  induction fields generalizing before with
  | nil => rfl
  | cons field rest ih =>
    obtain ⟨hfield, hrest⟩ := List.forall_mem_cons.mp h
    rw [readBackFields?, hfield, Option.bind_some, ih hrest]
    rfl

/-- An object whose values are read back as themselves is read with its fields sorted. -/
theorem parse?_render_object {fields : Fields}
    (h : ∀ field ∈ fields, Reader.readBack? Reader.strict 1 field.2 = some field.2) :
    parse? (Json.object fields).render = some (Json.ofFields fields) :=
  parse?_render_object_eq_some_iff.mpr ⟨_, Reader.readBackFields?_eq_foldl h, rfl⟩

end Json

/-! ## Lines -/

namespace Line

/-- A line is read from its JSON object. -/
theorem ofJson?_toJson (line : Line) : ofJson? line.toJson = some line := by
  have hdelta : (Json.ofAmount line.delta).amount? = some line.delta :=
    Amount.ofInt?_toInt line.delta
  change (do
    let account ← (some (Json.text line.account)).bind Json.text?
    let delta ← (some (Json.ofAmount line.delta)).bind Json.amount?
    some (Line.mk account delta)) = _
  rw [Option.bind_some, Option.bind_some, hdelta]
  rfl

/-- Lines are read from their JSON objects. -/
theorem mapM_ofJson?_toJson (lines : List Line) :
    (lines.map toJson).mapM ofJson? = some lines := by
  induction lines with
  | nil => rfl
  | cons line rest ih =>
    rw [List.map_cons, List.mapM_cons, ofJson?_toJson, ih]
    rfl

/-- The JSON object of a line has two fields in order, and no double. -/
theorem isOrdered_toJson (line : Line) : line.toJson.IsOrdered := by
  have hkeys : "account" < "delta" := by decide
  refine .object (List.pairwise_pair.mpr hkeys) ?_
  exact List.forall_mem_cons.mpr ⟨.text _, List.forall_mem_singleton.mpr (.integer _)⟩

/-- The JSON object of a line has no double. -/
theorem isIntegral_toJson (line : Line) : line.toJson.IsIntegral :=
  .object (List.forall_mem_cons.mpr ⟨.text _, List.forall_mem_singleton.mpr (.integer _)⟩)

/-- Lines fit with room for an array and an object. -/
theorem fitsIn_toJson (lines : List Line) (room : ℕ) :
    (Json.array (lines.map toJson)).FitsIn (room + 2) := by
  intro v hv
  obtain ⟨line, -, rfl⟩ := List.mem_map.mp hv
  have hdelta : (Json.ofAmount line.delta).FitsIn room := by
    cases room <;> exact Json.fitsWord_toInt line.delta
  have haccount : (Json.text line.account).FitsIn room := by cases room <;> trivial
  exact List.forall_mem_cons.mpr ⟨haccount, List.forall_mem_singleton.mpr hdelta⟩

end Line

namespace Transaction

variable {t : Transaction}

/-! ## Writing and reading -/

/-- A transaction is read from its JSON object. -/
theorem exists_ofBody?_toJson (t : Transaction) :
    ∃ body, t.toJson = .object body ∧ ofBody? body = some t := by
  refine ⟨_, rfl, ?_⟩
  have htimestamp : timestamp? ([("data", .object t.data), ("id", .text t.id),
      ("lines", .array (t.lines.map Line.toJson))] ++
      t.timestamp.toList.map fun at_ => ("timestamp", .text at_.render)) = some t.timestamp := by
    cases t.timestamp with
    | none => rfl
    | some at_ =>
      change (Time.Timestamp.parse? at_.render).map some = _
      rw [at_.parse?_render, Option.map_some]
  have hlines : lines? ([("data", .object t.data), ("id", .text t.id),
      ("lines", .array (t.lines.map Line.toJson))] ++
      t.timestamp.toList.map fun at_ => ("timestamp", .text at_.render)) = some t.lines :=
    Line.mapM_ofJson?_toJson t.lines
  rw [ofBody?, htimestamp, hlines]
  rfl

/-- The fields that are written are those of the JSON object, in another order. -/
theorem ofFields_fields (t : Transaction) : Json.ofFields t.fields = t.toJson := by
  have hdata : "data" < "id" := by decide
  have hlines : "lines" < "timestamp" := by decide
  have hbehind : ¬"timestamp" < "id" ∧ ¬"lines" < "data" ∧ ¬"lines" < "id" := by decide
  unfold fields toJson Json.ofFields Json.Fields.sorted
  cases t.timestamp <;>
    simp only [Option.toList_none, Option.toList_some, List.map_nil, List.map_cons, List.cons_append,
      List.nil_append, List.append_nil, List.foldl_cons, List.foldl_nil, Json.Fields.put,
      String.reduceEq, hdata, hlines, hbehind, if_true, if_false]

/-- A transaction whose data map leaves room for the object around it is a document. -/
theorem isDocument_toJson (hdata : (Json.object t.data).FitsIn 126) : t.toJson.IsDocument := by
  intro field hfield
  rcases List.mem_append.mp hfield with hfield | hfield
  · simp only [List.mem_cons, List.not_mem_nil, or_false] at hfield
    obtain rfl | rfl | rfl := hfield
    · exact hdata
    · trivial
    · exact Line.fitsIn_toJson t.lines 124
  · obtain ⟨at_, -, rfl⟩ := List.mem_map.mp hfield
    trivial

/-- The fields of a transaction are read back as themselves when its data map has no doubles. -/
theorem readBack?_of_mem_fields (hfits : (Json.object t.data).FitsIn 126)
    (hordered : (Json.object t.data).IsOrdered) (hintegral : (Json.object t.data).IsIntegral) :
    ∀ field ∈ t.fields, Json.Reader.readBack? Json.Reader.strict 1 field.2 = some field.2 := by
  have hlines : ∀ v ∈ t.lines.map Line.toJson, v.IsOrdered ∧ v.IsIntegral := by
    intro v hv
    obtain ⟨line, -, rfl⟩ := List.mem_map.mp hv
    exact ⟨line.isOrdered_toJson, line.isIntegral_toJson⟩
  intro field hfield
  rw [fields, List.cons_append, List.mem_cons, List.mem_append, List.mem_map, List.mem_pair]
    at hfield
  rcases hfield with rfl | ⟨at_, -, rfl⟩ | rfl | rfl
  · rfl
  · rfl
  · exact Json.Reader.readBack?_eq_self hfits hordered hintegral le_rfl
  · exact Json.Reader.readBack?_eq_self (Line.fitsIn_toJson t.lines 124)
      (.array fun v hv => (hlines v hv).1) (.array fun v hv => (hlines v hv).2) le_rfl

/-- A transaction whose data map has no doubles is read from its text. -/
theorem ofBytes_render (hfits : (Json.object t.data).FitsIn 126)
    (hordered : (Json.object t.data).IsOrdered) (hintegral : (Json.object t.data).IsIntegral) :
    Body.ofBytes ofBody? (Text.Utf8.encode t.render) = .ok t := by
  obtain ⟨body, hbody, hshape⟩ := t.exists_ofBody?_toJson
  have hparse : Json.parse? t.render = some (.object body) := by
    rw [render, Json.parse?_render_object (readBack?_of_mem_fields hfits hordered hintegral),
      ofFields_fields, hbody]
  rw [Body.ofBytes, Text.Utf8.decode?_encode]
  simp only [Body.ofText, hparse, hshape]

/-- A transaction that came in a body and has no doubles in its data map is read from the text in
which it is written. The transaction that is read is written as the same text, has the same fault or
none, and is balanced or not as the one that came. No other transaction that came so is written as
this text. -/
theorem normal_form {bytes : List UInt8} (h : Body.ofBytes ofBody? bytes = .ok t)
    (hintegral : (Json.object t.data).IsIntegral) :
    (∃ again, Body.ofBytes ofBody? (Text.Utf8.encode t.render) = .ok again ∧ again = t ∧
      again.render = t.render ∧ again.validate = t.validate ∧ again.isBalanced = t.isBalanced) ∧
    ∀ {others other}, Body.ofBytes ofBody? others = .ok other →
      (Json.object other.data).IsIntegral → (other.render = t.render ↔ other = t) := by
  have hreads : ∀ {bytes t}, Body.ofBytes ofBody? bytes = .ok t →
      (Json.object t.data).IsIntegral →
      Body.ofBytes ofBody? (Text.Utf8.encode t.render) = .ok t := by
    intro bytes t h hintegral
    have hsubmitted : t.data.IsSubmitted := .transaction h
    exact ofBytes_render hsubmitted.fitsIn hsubmitted.isOrdered hintegral
  refine ⟨⟨t, hreads h hintegral, rfl, rfl, rfl, rfl⟩, fun hother hintegral' => ⟨?_, ?_⟩⟩
  · intro hsame
    have hread := hreads hother hintegral'
    rw [hsame, hreads h hintegral] at hread
    exact (Except.ok.inj hread).symm
  · exact congrArg render

/-- A payment that was written with a field twice, one that is unknown, a line as a pair and a local
time. -/
def looseBody : String :=
  "\x7b\"id\":\"0\",\"lines\":[[\"a\",5],\x7b\"delta\":-5,\"account\":\"b\",\"note\":1\x7d]," ++
    "\"timestamp\":\"2018-01-01T12:00:00.1239+02:00\",\"data\":\x7b\"k\":7\x7d,\"id\":\"1\"," ++
    "\"rate\":1.5\x7d"

/-- The same payment in normal form. -/
def strictBody : String :=
  "\x7b\"id\":\"1\",\"timestamp\":\"2018-01-01 10:00:00.123\",\"data\":\x7b\"k\":7\x7d," ++
    "\"lines\":[\x7b\"account\":\"a\",\"delta\":5\x7d,\x7b\"account\":\"b\",\"delta\":-5\x7d]\x7d"

/-- The payment is read again from its normal form. -/
theorem normal_form_payment :
    ∃ t, Body.ofBytes ofBody? (Text.Utf8.encode looseBody) = .ok t ∧
      (Json.object t.data).IsIntegral ∧ t.render = strictBody ∧
      Body.ofBytes ofBody? (Text.Utf8.encode strictBody) = .ok t := by
  have hread : (Body.ofBytes ofBody? (Text.Utf8.encode looseBody)).toOption.map
      (fun t => (t.render, t.data.all fun field => field.2.amount?.isSome)) =
        some (strictBody, true) := by decide +kernel
  obtain ⟨t, ht, hsame⟩ := Option.map_eq_some_iff.mp hread
  obtain ⟨hrender, hamounts⟩ := Prod.mk.inj hsame
  have haccepted : Body.ofBytes ofBody? (Text.Utf8.encode looseBody) = .ok t := by
    cases hbody : Body.ofBytes ofBody? (Text.Utf8.encode looseBody) with
    | ok found => rw [hbody] at ht; exact congrArg _ (Option.some.inj ht)
    | error fault => rw [hbody] at ht; exact absurd ht (by simp [Except.toOption])
  have hintegral : (Json.object t.data).IsIntegral := by
    refine .object fun field hfield => ?_
    have hamount := List.all_eq_true.mp hamounts field hfield
    cases hvalue : field.2 with
    | integer n => exact .integer n
    | null | bool | real | text | array | object =>
      rw [hvalue] at hamount
      exact absurd hamount (by simp [Json.amount?])
  obtain ⟨⟨again, hagain, rfl, -⟩, -⟩ := normal_form haccepted hintegral
  exact ⟨again, haccepted, hintegral, hrender, hrender ▸ hagain⟩

end Transaction

end DoubleEntry
