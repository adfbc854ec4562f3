import DoubleEntry.Proofs.Ledger.Agreement
import DoubleEntry.Proofs.Ledger.Timestamps
import DoubleEntry.Proofs.Search.ColumnPlans
import DoubleEntry.Proofs.Text.ByteOrder

/-!
# Searches by time

Texts of timestamps in years of four digits are ordered like the points in time, in a leap second
too. An operand that can be read as a timestamp is put in the same form, alone or in a list. So a
search that compares timestamps selects transactions by the points in time, however these are
written.
-/

namespace DoubleEntry

open Search (Constraint Place PostedTransaction Predicate Query Relation)
open Time (Timestamp)

/-! ## The order of time -/

namespace Time.Timestamp

variable {a b : Timestamp}

/-- A timestamp is given by its components. -/
theorem components_injective : Function.Injective components := by
  intro a b h
  obtain ⟨⟨_, _, _⟩, _⟩ := a
  obtain ⟨⟨_, _, _⟩, _⟩ := b
  simp_all [components]

/-- Timestamps are ordered by their components, from the year down. -/
instance : LinearOrder Timestamp := LinearOrder.lift' components components_injective

/-- Lists of integers compare as less when the first is before the second in a dictionary. -/
theorem compare_eq_lt_iff_lt {xs ys : List ℤ} : compare xs ys = .lt ↔ xs < ys := by
  induction xs generalizing ys with
  | nil => cases ys <;> simp
  | cons x xs ih =>
    cases ys with
    | nil => simp
    | cons y ys =>
      rw [List.compare_cons_cons, Ordering.then_eq_lt, Int.compare_eq_lt, Int.compare_eq_eq, ih,
        List.cons_lt_cons_iff]

/-- The order is the order of time. -/
theorem cmp_eq_lt_iff_lt : a.cmp b = .lt ↔ a < b := compare_eq_lt_iff_lt

/-- Timestamps in years of four digits are ordered like their texts. -/
theorem HasFourDigits.render_lt_iff (ha : a.HasFourDigits) (hb : b.HasFourDigits) :
    a.render < b.render ↔ a < b := by
  have hordered : a.IsTextOrdered b := ⟨ha.2, hb.2, .inl ha.1⟩
  rw [Timestamp.render_lt_iff, letters_lt_iff hordered, cmp_eq_lt_iff_lt]

/-- A relation holds between the texts of two timestamps in years of four digits when it holds
between the timestamps. -/
theorem HasFourDigits.holds_render_iff (ha : a.HasFourDigits) (hb : b.HasFourDigits)
    (r : Relation) : r.Holds (Place.text a.render) (Place.text b.render) ↔ r.Holds a b := by
  let early := {t : Timestamp // t.HasFourDigits}
  have htext : StrictMono fun t : early => Place.text t.val.render := by
    intro x y h
    exact Place.strictMono_text ((x.prop.render_lt_iff y.prop).mpr h)
  have htime : StrictMono fun t : early => t.val := Subtype.strictMono_coe _
  exact (r.holds_map_iff htext (a := ⟨a, ha⟩) (b := ⟨b, hb⟩)).trans (r.holds_map_iff htime).symm

end Time.Timestamp

/-! ## Verdicts on headers -/

namespace Search

/-- Whether a relation holds between elements of a linear order can be decided. -/
instance {α : Type} [LinearOrder α] (r : Relation) (a b : α) : Decidable (r.Holds a b) :=
  match r with
  | .eq => inferInstanceAs (Decidable (a = b))
  | .ne => inferInstanceAs (Decidable (a ≠ b))
  | .gt => inferInstanceAs (Decidable (a > b))
  | .gte => inferInstanceAs (Decidable (a ≥ b))
  | .lt => inferInstanceAs (Decidable (a < b))
  | .lte => inferInstanceAs (Decidable (a ≤ b))

variable {text : String} {at_ : Timestamp} {texts : List String} {times : List Timestamp}

namespace Predicate

/-- In years of four digits a header passes a comparison of its timestamp with the written form of
another when the relation holds between the timestamps. -/
theorem holds_timestamp_iff {header : Header} {t : Timestamp}
    (hheader : header.timestamp = t.render) (ht : t.HasFourDigits) (hat : at_.HasFourDigits)
    (r : Relation) :
    (column .timestamp (.relation r) (.text at_.render)).holds ⟨headerColumn header, .null⟩ = true ↔
      r.Holds t at_ := by
  have hplace : (headerColumn header .timestamp).place? = some (.text t.render) :=
    congrArg (fun text => (Value.text text).place?) hheader
  rw [holds, Comparator.holds_relation_iff, ← ht.holds_render_iff hat]
  simp [hplace, Operand.place]

/-- An operand that is read as a timestamp is compared in the written form. -/
theorem ofColumn_timestamp (h : Timestamp.parse? text = some at_) (r : Relation) (op : String) :
    ofColumn .timestamp (.relation r) op (.text text) =
      .ok (.column .timestamp (.relation r) (.text at_.render)) := by
  rw [ofColumn_timestamp_eq h]
  simp only [ofColumn, canonicalTime, at_.parse?_render]

/-- Operands of a list that are read as timestamps are all compared in the written form. -/
theorem mapM_ofColumn_timestamp
    (h : List.Forall₂ (fun text at_ => Timestamp.parse? text = some at_) texts times)
    (r : Relation) (op : String) :
    (texts.map Json.text).mapM (ofColumn .timestamp (.relation r) op) =
      .ok (times.map fun at_ => .column .timestamp (.relation r) (.text at_.render)) := by
  refine mapM_eq_ok_iff.mpr (List.forall₂_map_left_iff.mpr (List.forall₂_map_right_iff.mpr ?_))
  exact h.imp fun _ _ hparse => ofColumn_timestamp hparse r op

end Predicate

end Search

/-! ## Selections -/

/-- What tells a transaction that a search shows from others, whatever its data are: its id, its
timestamp and its lines. -/
def Search.PostedTransaction.posting (row : PostedTransaction) : String × Timestamp × List Line :=
  (row.id, row.timestamp, row.lines)

/-- The id, timestamp and lines that a call commits. -/
def Call.posting (c : Call) : String × Timestamp × List Line :=
  (c.id, c.timestamp, c.transaction.lines)

namespace Tables.Records

variable {t : Tables} {journal : List Call}

/-- The headers whose timestamps pass a test are those of the calls in the journal whose timestamps
do. -/
theorem filter_headers (h : t.Records journal) (hintact : t.Intact)
    (test : Option Timestamp → Bool) :
    ((t.headers.filter fun header => test (Timestamp.parse? header.timestamp)).map fun header =>
        (header.id, Timestamp.parse? header.timestamp, t.linesOf header.id)) =
      (journal.filter fun c => test (some c.timestamp)).map fun c =>
        (c.id, some c.timestamp, c.transaction.lines) := by
  have hpairs := congrArg (fun pairs => (pairs.filter fun p : String × String =>
    test (Timestamp.parse? p.2)).map fun p => (p.1, Timestamp.parse? p.2, t.linesOf p.1)) h.headers
  simp only [List.filter_map, List.map_map, Function.comp_def, Timestamp.parse?_render] at hpairs
  rw [hpairs]
  refine List.map_congr_left fun c hc => ?_
  rw [h.linesOf_eq hintact (List.mem_of_mem_filter hc)]

end Tables.Records

namespace Ledger

/-- A ledger in which a search for a constraint selects the transactions of a journal by their
timestamps. -/
structure Selects (l : Ledger) (calls : List Call) (c : Constraint) (test : Timestamp → Prop)
    [DecidablePred test] : Prop where
  /-- There is a query document with the constraint alone. -/
  document : ∃ text, Query.ofText text = .ok c.query
  /-- On an open store the answer to it is what is read from the headers whose timestamps pass the
  test, in the order of the collection, be it a fault. -/
  outcome : l.store.isOpen = true → ∀ text, Query.ofText text = .ok c.query →
    (l.search .transactions text).1 =
      (((Search.headersInOrder l.store.tables).filter fun header =>
        (Timestamp.parse? header.timestamp).any (test ·)).mapM fun header =>
          Search.readTransaction (Search.transactionRow l.store.tables header)).map .transactions
  /-- A search for it returns the transactions whose timestamps pass the test, and no others. -/
  returned : ∀ text rows, Query.ofText text = .ok c.query →
    (l.search .transactions text).1 = .ok (.transactions rows) →
      (rows.map PostedTransaction.posting).Perm
        ((calls.filter fun call => test call.timestamp).map Call.posting)
  /-- An open store gives a result exactly when the data of all these transactions can be read. -/
  answered : l.store.isOpen = true → ∀ text, Query.ofText text = .ok c.query →
    ((∃ rows, (l.search .transactions text).1 = .ok (.transactions rows)) ↔
      ∀ header ∈ l.store.tables.headers, (Timestamp.parse? header.timestamp).any (test ·) = true →
        Data.IsReadable header.data)

section Selects

variable {l : Ledger} {calls : List Call} {op text : String} {v : Json} {p : Predicate}
  {test : Timestamp → Prop} [DecidablePred test]

/-- A constraint on the timestamp whose verdict on the headers of a journal is a test of their
timestamps reads the headers that pass the test. -/
theorem search_timestamp (h : l.HasJournal calls) (hopen : l.store.isOpen = true)
    (hp : Predicate.ofField .timestamp op v = .ok p)
    (hpattern : (Constraint.field "timestamp" op v).pattern? = none)
    (hverdict : ∀ call ∈ calls, ∀ header : Header, header.timestamp = call.timestamp.render →
      (p.holds ⟨Search.headerColumn header, .null⟩ = true ↔ test call.timestamp))
    (htext : Query.ofText text = .ok (Constraint.field "timestamp" op v).query) :
    (l.search .transactions text).1 =
      (((Search.headersInOrder l.store.tables).filter fun header =>
        (Timestamp.parse? header.timestamp).any (test ·)).mapM fun header =>
          Search.readTransaction (Search.transactionRow l.store.tables header)).map
            .transactions := by
  have hpredicate : (Constraint.field "timestamp" op v).predicate .transactions = .ok p := hp
  rw [search_fst, Search.answer_eq_run htext (Query.patternsFit_query hpattern), Search.run_eq,
    htext, Except.mapError, Store.bind_of_eq_ok rfl, Constraint.run_field hpredicate hopen]
  congr 2
  refine List.filter_congr fun header hheader => ?_
  obtain ⟨call, hcall, -, htimestamp⟩ :=
    h.records.exists_call ((List.mergeSort_perm _ _).mem_iff.mp hheader)
  rw [Bool.eq_iff_iff, hverdict call hcall header htimestamp, htimestamp, Timestamp.parse?_render]
  simp

/-- A constraint on the timestamp whose verdict on the headers of a journal is a test of their
timestamps selects the transactions that pass the test. -/
theorem selects_timestamp (h : l.HasJournal calls)
    (hread : Json.Reader.readBack? Json.Reader.strict 5 v = some v)
    (hp : Predicate.ofField .timestamp op v = .ok p)
    (hpattern : (Constraint.field "timestamp" op v).pattern? = none)
    (hverdict : ∀ call ∈ calls, ∀ header : Header, header.timestamp = call.timestamp.render →
      (p.holds ⟨Search.headerColumn header, .null⟩ = true ↔ test call.timestamp)) :
    l.Selects calls (.field "timestamp" op v) test where
  document := ⟨_, Constraint.ofText_fieldDocument "timestamp" op hread⟩
  outcome := fun hopen _ => search_timestamp h hopen hp hpattern hverdict
  returned := by
    intro text rows htext hrows
    have hopen : l.store.isOpen = true := by
      rw [search_fst] at hrows
      obtain ⟨_, _, -, -, hopen, -⟩ := Search.exists_plan_of_run (Search.run_of_answer hrows)
      exact hopen
    rw [search_timestamp h hopen hp hpattern hverdict htext] at hrows
    obtain ⟨_, hread, hsame⟩ := map_eq_ok_iff.mp hrows
    obtain rfl := Search.Results.transactions.inj hsame
    let shown : String × Timestamp × List Line → String × Option Timestamp × List Line :=
      fun p => (p.1, some p.2.1, p.2.2)
    have hshown : Function.Injective shown := by
      rintro ⟨_, _, _⟩ ⟨_, _, _⟩ heq
      simpa [shown] using heq
    have hheaders := map_eq_map_of_forall₂ (mapM_eq_ok_iff.mp hread)
      (f := fun header => (header.id, Timestamp.parse? header.timestamp,
        l.store.tables.linesOf header.id))
      (g := fun row => shown row.posting) fun header row hrow => by
        have hshows := Search.shows_of_readTransaction hrow
        simp only [shown, PostedTransaction.posting, hshows.id, hshows.timestamp, hshows.lines]
    have hcalls := h.records.filter_headers h.intact fun found => found.any (test ·)
    rw [← List.map_perm_map_iff hshown, List.map_map, List.map_map]
    refine (List.Perm.of_eq hheaders.symm).trans (.trans ?_ (List.Perm.of_eq hcalls))
    exact ((List.mergeSort_perm _ _).filter _).map _
  answered := by
    intro hopen text htext
    have hread : ∀ header ∈ l.store.tables.headers, ((∃ row, Search.readTransaction
        (Search.transactionRow l.store.tables header) = .ok row) ↔ Data.IsReadable header.data) :=
      fun header hheader => h.intact.readTransaction_eq_ok_iff hheader
    have hmem : ∀ header, header ∈ Search.headersInOrder l.store.tables ↔
        header ∈ l.store.tables.headers := fun _ => (List.mergeSort_perm _ _).mem_iff
    rw [search_timestamp h hopen hp hpattern hverdict htext]
    simp only [map_eq_ok_iff, Search.Results.transactions.injEq, exists_eq_right,
      Search.exists_mapM_eq_ok_iff, List.mem_filter, and_imp, hmem]
    exact forall₂_congr fun header hheader => imp_congr_right fun _ => hread header hheader

end Selects

/-- Timestamps in years of four digits are in the order of the bytes of their texts. So in a ledger
that has committed no others, a comparison of the timestamp with a text that is read as such a
timestamp, in whatever form, selects the transactions whose timestamps stand in the relation to it,
and a list of such texts those whose timestamps are in the list, or are not. -/
theorem timestamp_searches_chronological :
    (∀ a b : Timestamp, a.HasFourDigits → b.HasFourDigits →
      (a.cmp b = .lt ↔ Text.Utf8.encode a.render < Text.Utf8.encode b.render)) ∧
    ∀ (l : Ledger) calls, l.HasJournal calls → (∀ call ∈ calls, call.timestamp.HasFourDigits) →
      (∀ text b, Timestamp.parse? text = some b → b.HasFourDigits → ∀ r : Relation,
        l.Selects calls (.field "timestamp" r.name (.text text)) (r.Holds · b)) ∧
      ∀ texts times, List.Forall₂ (fun text b => Timestamp.parse? text = some b) texts times →
        (∀ b ∈ times, b.HasFourDigits) →
        l.Selects calls (.field "timestamp" "in" (.array (texts.map .text))) (· ∈ times) ∧
        l.Selects calls (.field "timestamp" "nin" (.array (texts.map .text))) (· ∉ times) := by
  refine ⟨fun a b ha hb => ?order, fun l calls h hdigits => ⟨?relation, ?list⟩⟩
  case order =>
    rw [Timestamp.cmp_eq_lt_iff_lt, Text.Utf8.encode_lt_encode_iff, ha.render_lt_iff hb]
  case relation =>
    intro text b hparse hb r
    have hp : Predicate.ofField .timestamp r.name (.text text) =
        .ok (.column .timestamp (.relation r) (.text b.render)) := by
      rw [Predicate.ofField_name, Predicate.ofColumn_timestamp hparse]
    have hpattern : (Constraint.field "timestamp" r.name (.text text)).pattern? = none := by
      cases r <;> rfl
    exact selects_timestamp h rfl hp hpattern fun call hcall header hheader =>
      Predicate.holds_timestamp_iff hheader (hdigits call hcall) hb r
  case list =>
    intro texts times hparse htimes
    have hread : Json.Reader.readBack? Json.Reader.strict 5 (.array (texts.map .text)) =
        some (.array (texts.map .text)) := by
      rw [Json.Reader.readBack?, if_pos (by decide),
        Json.Reader.readBackItems?_map fun _ _ => rfl, Option.map_some]
    have hparts := Predicate.mapM_ofColumn_timestamp hparse
    constructor
    · have hp : Predicate.ofField .timestamp "in" (.array (texts.map .text)) = .ok (.anyOf _) :=
        congrArg (fun found => Predicate.anyOf <$> found) (hparts .eq "in")
      refine selects_timestamp h hread hp rfl fun call hcall header hheader => ?_
      rw [Predicate.holds, Predicate.anyHolds_eq_any, List.any_map, List.any_eq_true]
      have heq := fun b hb =>
        Predicate.holds_timestamp_iff hheader (hdigits call hcall) (htimes b hb) .eq
      constructor
      · rintro ⟨b, hb, hholds⟩
        have hsame : call.timestamp = b := (heq b hb).mp hholds
        exact hsame ▸ hb
      · exact fun hlisted => ⟨_, hlisted, (heq _ hlisted).mpr rfl⟩
    · have hp : Predicate.ofField .timestamp "nin" (.array (texts.map .text)) = .ok (.allOf _) :=
        congrArg (fun found => Predicate.allOf <$> found) (hparts .ne "nin")
      refine selects_timestamp h hread hp rfl fun call hcall header hheader => ?_
      rw [Predicate.holds, Predicate.allHold_eq_all, List.all_map, List.all_eq_true]
      have hne := fun b hb =>
        Predicate.holds_timestamp_iff hheader (hdigits call hcall) (htimes b hb) .ne
      constructor
      · exact fun hall hlisted => (hne _ hlisted).mp (hall _ hlisted) rfl
      · intro hnot b hb
        refine (hne b hb).mpr fun hsame => ?_
        exact hnot (hsame ▸ hb)

/-- The middle of the leap second before the year 2017. -/
def leapSecond : Timestamp := (Timestamp.of? 2016 12 31 23 59 60 500).getD (.newYear 2017)

/-- A payment in the leap second and one after it. -/
def aroundLeapSecond : List Event :=
  [(Call.dated leapSecond "1" [⟨"a", 5⟩, ⟨"b", -5⟩]).event,
    (Call.dated (.newYear 2017) "2" [⟨"a", 5⟩, ⟨"b", -5⟩]).event]

/-- Before the new year, which is given by a local time, is the payment in the leap second, and it
alone is in a list with the leap second. -/
theorem timestamp_searches_chronological_leap :
    Timestamp.parse? "2017-01-01T01:00:00+01:00" = some (.newYear 2017) ∧
      Timestamp.parse? "2016-12-31T23:59:60.5Z" = some leapSecond ∧
      (leapSecond.cmp (.newYear 2017) = .lt ∧
        Text.Utf8.encode leapSecond.render < Text.Utf8.encode (Timestamp.newYear 2017).render) ∧
      ∃ calls, (uncounted.run aroundLeapSecond).2.HasJournal calls ∧
        (∀ call ∈ calls, call.timestamp.HasFourDigits) ∧
        (calls.filter fun call => call.timestamp < .newYear 2017).map Call.id = ["1"] ∧
        (calls.filter fun call => call.timestamp ∈ [leapSecond]).map Call.id = ["1"] ∧
        (uncounted.run aroundLeapSecond).2.Selects calls
          (.field "timestamp" "lt" (.text "2017-01-01T01:00:00+01:00")) (· < .newYear 2017) ∧
        (uncounted.run aroundLeapSecond).2.Selects calls
          (.field "timestamp" "in" (.array [.text "2016-12-31T23:59:60.5Z"]))
          (· ∈ [leapSecond]) := by
  have hnew : Timestamp.parse? "2017-01-01T01:00:00+01:00" = some (.newYear 2017) := by
    decide +kernel
  have hleap : Timestamp.parse? "2016-12-31T23:59:60.5Z" = some leapSecond := by decide +kernel
  have hdigits : (Timestamp.newYear 2017).HasFourDigits := by decide
  have hdigits' : leapSecond.HasFourDigits := by decide
  have hjournal : (uncounted.run aroundLeapSecond).2.HasJournal _ :=
    hasJournal_run none aroundLeapSecond
  have hall : ∀ call ∈ journal (run uncounted aroundLeapSecond).1,
      call.timestamp.HasFourDigits := by decide +kernel
  have hless : leapSecond.cmp (.newYear 2017) = .lt := by decide +kernel
  obtain ⟨horder, hsearch⟩ := timestamp_searches_chronological
  obtain ⟨hrelation, hlist⟩ := hsearch _ _ hjournal hall
  have hin := hlist ["2016-12-31T23:59:60.5Z"] [leapSecond] (.cons hleap .nil)
    (List.forall_mem_singleton.mpr hdigits')
  refine ⟨hnew, hleap, ⟨hless, (horder _ _ hdigits' hdigits).mp hless⟩, _, hjournal, hall, ?_, ?_,
    hrelation _ _ hnew hdigits .lt, hin.1⟩
  · decide +kernel
  · decide +kernel

end Ledger

end DoubleEntry
