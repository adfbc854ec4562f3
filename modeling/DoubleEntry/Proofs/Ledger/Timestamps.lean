import DoubleEntry.Http.Service
import DoubleEntry.Proofs.Json.Repeated
import DoubleEntry.Proofs.Ledger.Availability
import DoubleEntry.Proofs.Ledger.Permanence
import DoubleEntry.Proofs.Search.Comparisons
import DoubleEntry.Proofs.Transaction.NormalForm

/-!
# Timestamps last

A timestamp is written in one form, and this form is read as the timestamp that was written,
whatever its year and also in a leap second. So it comes back the same from a document that is
printed and submitted again and from the store, and no stored row is spoiled by a timestamp that
cannot be read. An operand in any accepted form is the one in the written form.
-/

namespace DoubleEntry

open Search (Constraint PostedTransaction Predicate)
open Time (Timestamp)

/-! ## Documents -/

/-- A transaction that is printed is read with its timestamp. -/
theorem Transaction.exists_body_of_toJson {txn : Transaction} {t : Timestamp}
    (ht : txn.timestamp = some t) (hdata : (Json.object txn.data).FitsIn 126) :
    ∃ body, Json.parse? txn.toJson.render = some (.object body) ∧
      Transaction.timestamp? body = some (some t) := by
  obtain ⟨v, hv⟩ := Option.isSome_iff_exists.mp (isDocument_toJson hdata).isSome_parse?_render
  have hfields : txn.toJson = .object ([("data", .object txn.data), ("id", .text txn.id),
      ("lines", .array (txn.lines.map Line.toJson))] ++ ("timestamp", .text t.render) :: []) := by
    rw [toJson, ht]
    rfl
  rw [hfields] at hv ⊢
  obtain ⟨body, -, rfl⟩ := Json.parse?_render_object_eq_some_iff.mp hv
  refine ⟨body, hv, ?_⟩
  obtain ⟨w, hw, hget⟩ := Json.get?_of_parse?_render_object hv List.not_mem_nil
  rw [Json.parse?_render] at hw
  obtain rfl : Json.text t.render = w := Option.some.inj hw
  rw [timestamp?, hget]
  dsimp only
  rw [t.parse?_render, Option.map_some]

namespace Search

/-! ## Operands -/

namespace Predicate

variable {text : String} {at_ : Timestamp}

/-- A timestamp is compared with an operand in any accepted form as with the one in the written
form. -/
theorem ofColumn_timestamp_eq (h : Timestamp.parse? text = some at_) (r : Relation) (op : String) :
    ofColumn .timestamp (.relation r) op (.text text) =
      ofColumn .timestamp (.relation r) op (.text at_.render) := by
  simp only [ofColumn, canonicalTime, h, at_.parse?_render]

/-- A timestamp is looked for in a list with an operand in any accepted form as in the list with the
written form in its place. -/
theorem ofField_timestamp_listed (h : Timestamp.parse? text = some at_)
    (before after : List String) {op : String} (hop : op ∈ ["in", "nin"]) :
    ofField .timestamp op (.array ((before ++ text :: after).map .text)) =
      ofField .timestamp op (.array ((before ++ at_.render :: after).map .text)) := by
  have heach : ∀ r : Relation, ((before ++ text :: after).map Json.text).mapM
        (ofColumn .timestamp (.relation r) op) =
      ((before ++ at_.render :: after).map Json.text).mapM
        (ofColumn .timestamp (.relation r) op) := by
    intro r
    simp only [List.map_append, List.map_cons, List.mapM_append, List.mapM_cons,
      ofColumn_timestamp_eq h]
  obtain rfl | rfl : op = "in" ∨ op = "nin" := by simpa using hop
  · exact congrArg (fun found => anyOf <$> found) (heach .eq)
  · exact congrArg (fun found => allOf <$> found) (heach .ne)

end Predicate

/-- A constraint on the timestamp has the predicate of its operator. -/
theorem Constraint.predicate_timestamp (op : String) (v : Json) :
    (Constraint.field "timestamp" op v).predicate .transactions =
      Predicate.ofField .timestamp op v := rfl

end Search

namespace Ledger

/-- A ledger that shows a transaction with a given timestamp. -/
structure ShowsTimestamp (l : Ledger) (id : String) (t : Timestamp) : Prop where
  /-- Its header has the written form. -/
  header : ∃ header, l.store.tables.header? id = some header ∧ header.timestamp = t.render
  /-- Every search that finds it shows the timestamp. -/
  hits : ∀ collection text rows, (l.searchIn collection text).1 = .ok (.transactions rows) →
    ∀ row ∈ rows, row.id = id → row.timestamp = t
  /-- No search meets a row that it cannot read. -/
  readable : ∀ collection text fault, (l.searchIn collection text).1 = .error fault →
    fault.category ≠ .internal

/-- A search fails with a fault of the name of the collection, or with that of its answer. -/
theorem searchIn_eq_error {l : Ledger} {collection text : String} {fault : LedgerFault}
    (h : (l.searchIn collection text).1 = .error fault) :
    Search.Namespace.ofName collection = .error fault ∨
      ∃ space, Search.answer space text l.store = .error fault := by
  unfold searchIn at h
  cases hspace : Search.Namespace.ofName collection with
  | error found =>
    rw [hspace] at h
    exact .inl (congrArg Except.error (Except.error.inj h))
  | ok space =>
    rw [hspace] at h
    exact .inr ⟨space, (search_fst space text l).symm.trans h⟩

/-- A ledger shows the transactions of its journal with the timestamps of their commits. -/
theorem showsTimestamp_of_records {l : Ledger} {journal : List Call}
    (h : l.store.tables.Records journal) (hintact : l.store.tables.Intact) {c : Call}
    (hc : c ∈ journal) : l.ShowsTimestamp c.id c.timestamp := by
  obtain ⟨header, hheader, htimestamp⟩ := h.header?_eq hintact hc
  refine ⟨⟨header, hheader, htimestamp⟩, ?hits, ?readable⟩
  case hits =>
    intro collection text rows hrows row hrow hid
    obtain ⟨space, -, hrun⟩ := exists_run_of_searchIn hrows
    obtain ⟨found, hfound, hshows⟩ := Search.exists_header_of_mem_run hrun hrow
    have hsame : l.store.tables.header? found.id = some found :=
      find?_eq_some_of_nodup hintact.nodup_headers hfound
    rw [← hshows.id, hid, hheader] at hsame
    have hparse := hshows.timestamp
    rw [← Option.some.inj hsame, htimestamp, Timestamp.parse?_render] at hparse
    exact (Option.some.inj hparse).symm
  case readable =>
    intro collection text fault hfault
    rcases searchIn_eq_error hfault with hname | ⟨space, hanswer⟩
    · unfold Search.Namespace.ofName at hname
      split_ifs at hname
      cases hname
      simp [LedgerFault.category]
    · exact Search.category_ne_internal_of_answer hintact hanswer

/-- A transaction that was created is shown with the timestamp of its commit ever after. -/
theorem showsTimestamp_run {l : Ledger} (hreachable : l.Reachable) {clock : Clock}
    {txn : Transaction} (hcreated : (l.submit clock txn).1 = .ok .created) (later : List Event) :
    ((l.submit clock txn).2.run later).2.ShowsTimestamp txn.id
      (txn.timestamp.getD clock.now) := by
  obtain ⟨calls, hcalls⟩ := hreachable.exists_hasJournal
  have hrecords := records_run (records_respond hcalls.records (.submit clock txn)) later
  have hintact := intact_run (intact_run hreachable.intact [.submit clock txn]) later
  refine showsTimestamp_of_records (c := ⟨clock, txn⟩) hrecords hintact ?_
  rw [created?_submit hcreated]
  simp

/-- Whatever text is read as a timestamp, the timestamp is read again from its written form. So it
comes back from a transaction that is printed, as it is submitted or as a search returns it, when
the data map leaves room for the object around it, as every map does that came in a body. A
transaction that was created with the timestamp is stored with the written form, every later search
that finds it shows the timestamp, and none meets a row that cannot be read. As an operand, alone or
in a list, the text asks for the same as the written form. -/
theorem timestamp_survives {text : String} {at_ : Timestamp}
    (h : Timestamp.parse? text = some at_) :
    Timestamp.parse? at_.render = some at_ ∧
    (∀ txn : Transaction, txn.timestamp = some at_ → (Json.object txn.data).FitsIn 126 →
      ∃ body, Json.parse? txn.toJson.render = some (.object body) ∧
        Transaction.timestamp? body = some (some at_)) ∧
    (∀ row : PostedTransaction, row.timestamp = at_ → (Json.object row.data).FitsIn 126 →
      ∃ body, Json.parse? (Http.postedJson row).render = some (.object body) ∧
        Transaction.timestamp? body = some (some at_)) ∧
    (∀ (l : Ledger) clock txn, l.Reachable → txn.timestamp = some at_ →
      (l.submit clock txn).1 = .ok .created → ∀ later,
        ((l.submit clock txn).2.run later).2.ShowsTimestamp txn.id at_) ∧
    (∀ r : Search.Relation,
      (Constraint.field "timestamp" r.name (.text text)).predicate .transactions =
        (Constraint.field "timestamp" r.name (.text at_.render)).predicate .transactions) ∧
    ∀ before after : List String, ∀ op ∈ ["in", "nin"],
      (Constraint.field "timestamp" op
        (.array ((before ++ text :: after).map .text))).predicate .transactions =
      (Constraint.field "timestamp" op
        (.array ((before ++ at_.render :: after).map .text))).predicate .transactions := by
  refine ⟨at_.parse?_render, fun txn => Transaction.exists_body_of_toJson, ?printed, ?stored,
    ?operand, ?listed⟩
  case printed =>
    intro row hrow hdata
    have hjson : Http.postedJson row =
        Transaction.toJson ⟨row.id, some row.timestamp, row.data, row.lines⟩ := rfl
    rw [hjson]
    exact Transaction.exists_body_of_toJson (congrArg some hrow) hdata
  case stored =>
    intro l clock txn hreachable ht hcreated later
    have hshows := showsTimestamp_run hreachable hcreated later
    rwa [ht] at hshows
  case operand =>
    intro r
    rw [Constraint.predicate_timestamp, Constraint.predicate_timestamp, Predicate.ofField_name,
      Predicate.ofField_name, Predicate.ofColumn_timestamp_eq h]
  case listed =>
    intro before after op hop
    rw [Constraint.predicate_timestamp, Constraint.predicate_timestamp]
    exact Predicate.ofField_timestamp_listed h before after hop

/-- A payment at a time. -/
def paymentAt (at_ : Timestamp) : Transaction := ⟨"1", some at_, [], [⟨"a", 5⟩, ⟨"b", -5⟩]⟩

/-- A new ledger creates the payment. -/
theorem submit_paymentAt (clock : Clock) (at_ : Timestamp) :
    (uncounted.submit clock (paymentAt at_)).1 = .ok .created := by
  have hvalid : (paymentAt at_).Valid :=
    { id_not_blank := show Text.isBlankText "1" = false by decide
      accounts_not_blank := show ∀ line ∈ [Line.mk "a" 5, ⟨"b", -5⟩],
        Text.isBlankText line.account = false by decide
      balanced := rfl
      keys_match := fun _ hkey => absurd hkey List.not_mem_nil }
  have hrefused : ¬ uncounted.store.RefusesRows (paymentAt at_) := by
    rintro ⟨table, htable, -⟩
    exact absurd htable List.not_mem_nil
  rw [submit_of_accepted clock hvalid rfl rfl hrefused]

/-- The offset of a leap second leads into the year before zero, and the payment is shown there
whatever comes after it. -/
theorem timestamp_survives_leap :
    ∃ at_, Timestamp.parse? "0000-01-01T00:00:60.5+00:01" = some at_ ∧
      at_.render = "-0001-12-31 23:59:60.500" ∧
      Timestamp.parse? "-0001-12-31 23:59:60.500" = some at_ ∧
      uncounted.Reachable ∧
      (∃ body, Json.parse? (paymentAt at_).toJson.render = some (.object body) ∧
        Transaction.timestamp? body = some (some at_)) ∧
      (uncounted.submit ⟨at_, .zero false⟩ (paymentAt at_)).1 = .ok .created ∧
      ((uncounted.submit ⟨at_, .zero false⟩ (paymentAt at_)).2.run
        afterwards).2.ShowsTimestamp "1" at_ := by
  have hread : (Timestamp.parse? "0000-01-01T00:00:60.5+00:01").map Timestamp.render =
      some "-0001-12-31 23:59:60.500" := by decide +kernel
  obtain ⟨at_, hparse, hrender⟩ := Option.map_eq_some_iff.mp hread
  have hreachable : uncounted.Reachable := ⟨none, [], rfl⟩
  obtain ⟨hagain, hprinted, -, hstored, -⟩ := timestamp_survives hparse
  have hcreated : (uncounted.submit ⟨at_, .zero false⟩ (paymentAt at_)).1 = .ok .created :=
    submit_paymentAt _ at_
  refine ⟨at_, hparse, hrender, hrender ▸ hagain, hreachable, hprinted _ rfl ?_, hcreated,
    hstored _ _ _ hreachable rfl hcreated _⟩
  exact fun _ hfield => absurd hfield List.not_mem_nil

end Ledger

end DoubleEntry
