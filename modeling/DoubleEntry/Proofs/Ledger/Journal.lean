import DoubleEntry.Proofs.Keyed
import DoubleEntry.Proofs.Ledger.Serial

/-!
# The journal of a history

The submissions that created a transaction, in the order of their commits, are the journal of a
history. Headers and lines of a ledger are those of its journal, data apart, so what is booked on an
account and what it comes to at some time can be told from the journal alone.
-/

namespace DoubleEntry

/-- The submission by which an answered event created a transaction. -/
def Event.created? : Event × Answer → Option Call
  | (.submit clock t, .outcome (.ok .created)) => some ⟨clock, t⟩
  | _ => none

/-- The submissions of a history that created a transaction, in order. -/
def Ledger.journal (history : List (Event × Answer)) : List Call :=
  history.filterMap Event.created?

/-- A ledger to which a history of a new one leads, and the journal of that history. -/
def Ledger.HasJournal (l : Ledger) (journal : List Call) : Prop :=
  ∃ metrics events, l = (run ⟨.empty, metrics⟩ events).2 ∧
    journal = Ledger.journal (run ⟨.empty, metrics⟩ events).1

namespace Call

/-- A call at a time, under which its transaction is committed. -/
def dated (at_ : Time.Timestamp) (id : String) (lines : List Line) : Call :=
  ⟨⟨at_, .zero false⟩, ⟨id, some at_, [], lines⟩⟩

/-- The lines of a call, each with the id that is submitted. -/
def lines (c : Call) : List (String × Line) := c.transaction.lines.map fun line => (c.id, line)

/-- The amounts that a call books on an account. -/
def deltasOf (account : String) (c : Call) : List Amount :=
  (c.transaction.lines.filter fun line => line.account = account).map Line.delta

/-- The amounts that calls book on an account, one call after another. -/
def booked (account : String) (calls : List Call) : List Amount :=
  calls.flatMap (deltasOf account)

end Call

namespace Tables

/-- Tables that hold the headers and lines of a journal and no others. -/
structure Records (t : Tables) (journal : List Call) : Prop where
  headers : (t.headers.map fun header => (header.id, header.timestamp)) =
    journal.map fun c => (c.id, c.timestamp.render)
  lines : (t.lines.map fun row => (row.transaction, row.line)) = journal.flatMap Call.lines
  valid : ∀ c ∈ journal, c.transaction.Valid

/-- Empty tables hold an empty journal. -/
theorem records_empty : empty.Records [] where
  headers := rfl
  lines := rfl
  valid := by simp

/-- The rows for the lines of a transaction name it and hold its lines. -/
theorem map_numbered (transaction : String) (n : Nat) (lines : List Line) :
    ((numbered transaction n lines).map fun row => (row.transaction, row.line)) =
      lines.map fun line => (transaction, line) := by
  induction lines generalizing n with
  | nil => rfl
  | cons line rest ih => rw [numbered, List.map_cons, List.map_cons, ih]

namespace Edit

variable {t after : Tables}

/-- An edit changes no header but for its data. -/
theorem map_headers (h : t.Edit after) :
    (after.headers.map fun header => (header.id, header.timestamp)) =
      t.headers.map fun header => (header.id, header.timestamp) := by
  cases h with
  | none | account | accountData => rfl
  | headerData id hkeys =>
    rw [withHeaderData, List.map_map]
    refine List.map_congr_left fun header _ => ?_
    simp only [Function.comp_apply]
    split_ifs <;> rfl

/-- An edit changes no line. -/
theorem lines_eq (h : t.Edit after) : after.lines = t.lines := by
  cases h <;> rfl

end Edit

namespace Records

variable {t : Tables} {journal : List Call}

/-- An edited table holds the journal that it held. -/
theorem edit (h : t.Records journal) {after : Tables} (hedit : t.Edit after) :
    after.Records journal where
  headers := hedit.map_headers.trans h.headers
  lines := by rw [hedit.lines_eq, h.lines]
  valid := h.valid

/-- A transaction that is added is the last one in the journal. -/
theorem withTransaction (h : t.Records journal) {c : Call} (hvalid : c.transaction.Valid) :
    (t.withTransaction c.transaction c.timestamp).Records (journal ++ [c]) where
  headers := by
    simp only [Tables.withTransaction, List.map_append, h.headers]
    rfl
  lines := by
    simp only [Tables.withTransaction, List.map_append, List.flatMap_append, h.lines, map_numbered]
    simp [Call.lines, Call.id]
  valid := by
    intro d hd
    rcases List.mem_append.mp hd with hd | hd
    · exact h.valid d hd
    · obtain rfl := List.mem_singleton.mp hd
      exact hvalid

end Records

end Tables

namespace Ledger

/-- A submission that is answered as created adds its call to the journal. -/
theorem created?_submit {l : Ledger} {clock : Clock} {t : Transaction}
    (h : (l.submit clock t).1 = .ok .created) :
    Event.created? (.submit clock t, (l.respond (.submit clock t)).1) = some ⟨clock, t⟩ := by
  change Event.created? (_, Answer.outcome (l.submit clock t).1) = _
  rw [h]
  rfl

/-- One event adds to the journal what it adds to the tables. -/
theorem records_respond {l : Ledger} {journal : List Call} (h : l.store.tables.Records journal)
    (e : Event) :
    (l.respond e).2.store.tables.Records
      (journal ++ (Event.created? (e, (l.respond e).1)).toList) := by
  rcases l.respond_cases e with ⟨clock, t, rfl, hvalid, -, hanswer, htables⟩ | ⟨hnot, hedit⟩
  · rw [hanswer, htables]
    exact h.withTransaction (c := ⟨clock, t⟩) hvalid
  · have hnone : Event.created? (e, (l.respond e).1) = none := by
      unfold Event.created?
      split
      · rename_i clock t heq
        obtain ⟨rfl, hanswer⟩ := Prod.mk.inj heq
        exact absurd hanswer (hnot clock t rfl)
      · rfl
    rw [hnone, Option.toList_none, List.append_nil]
    exact h.edit hedit

/-- A history adds to the journal what it adds to the tables. -/
theorem records_run {l : Ledger} {before : List Call} (h : l.store.tables.Records before)
    (events : List Event) :
    (l.run events).2.store.tables.Records (before ++ journal (l.run events).1) := by
  induction events generalizing l before with
  | nil => simpa [run, journal] using h
  | cons e rest ih =>
    have hrest := ih (records_respond h e)
    rw [List.append_assoc] at hrest
    rw [run_cons_fst, run_cons_snd]
    convert hrest using 2
    unfold journal
    cases hcreated : Event.created? (e, (l.respond e).1) <;>
      simp [hcreated]

namespace HasJournal

variable {l : Ledger} {calls : List Call}

/-- A ledger holds the journal of its history. -/
theorem records (h : l.HasJournal calls) : l.store.tables.Records calls := by
  obtain ⟨metrics, events, rfl, rfl⟩ := h
  have hrun := records_run (l := ⟨.empty, metrics⟩) Tables.records_empty events
  rwa [List.nil_append] at hrun

/-- The tables of a ledger with a history are intact. -/
theorem intact (h : l.HasJournal calls) : l.store.tables.Intact := by
  obtain ⟨metrics, events, rfl, -⟩ := h
  exact intact_run Tables.intact_empty events

end HasJournal

/-- A history of a new ledger leads to a ledger with its journal. -/
theorem hasJournal_run (metrics : Option Metrics) (events : List Event) :
    (run ⟨.empty, metrics⟩ events).2.HasJournal (journal (run ⟨.empty, metrics⟩ events).1) :=
  ⟨metrics, events, rfl, rfl⟩

/-- Every ledger that can be reached has a journal. -/
theorem Reachable.exists_hasJournal {l : Ledger} (h : l.Reachable) :
    ∃ calls, l.HasJournal calls := by
  obtain ⟨metrics, events, rfl⟩ := h
  exact ⟨_, hasJournal_run metrics events⟩

end Ledger

/-! ## What is read from a journal -/

namespace Tables.Records

variable {t : Tables} {journal : List Call}

/-- The ids of the headers are those of the journal. -/
theorem map_headers_id (h : t.Records journal) :
    t.headers.map Header.id = journal.map Call.id := by
  have hfst := congrArg (List.map Prod.fst) h.headers
  simpa only [List.map_map, Function.comp_def] using hfst

/-- No transaction is in the journal twice. -/
theorem nodup_ids (h : t.Records journal) (hintact : t.Intact) : (journal.map Call.id).Nodup :=
  h.map_headers_id ▸ hintact.nodup_headers

/-- A header belongs to a call in the journal. -/
theorem exists_call (h : t.Records journal) {header : Header} (hheader : header ∈ t.headers) :
    ∃ c ∈ journal, header.id = c.id ∧ header.timestamp = c.timestamp.render := by
  have hpair : (header.id, header.timestamp) ∈ journal.map fun c => (c.id, c.timestamp.render) := by
    rw [← h.headers]
    exact List.mem_map_of_mem hheader
  obtain ⟨c, hc, heq⟩ := List.mem_map.mp hpair
  obtain ⟨hid, htimestamp⟩ := Prod.mk.inj heq
  exact ⟨c, hc, hid.symm, htimestamp.symm⟩

/-- A transaction in the journal has a header with its timestamp. -/
theorem header?_eq (h : t.Records journal) (hintact : t.Intact) {c : Call} (hc : c ∈ journal) :
    ∃ header, t.header? c.id = some header ∧ header.timestamp = c.timestamp.render := by
  have hmem : (c.id, c.timestamp.render) ∈
      t.headers.map fun header => (header.id, header.timestamp) := by
    rw [h.headers]
    exact List.mem_map_of_mem hc
  obtain ⟨header, hheader, heq⟩ := List.mem_map.mp hmem
  obtain ⟨hid, htimestamp⟩ := Prod.mk.inj heq
  refine ⟨header, ?_, htimestamp⟩
  rw [← hid]
  exact find?_eq_some_of_nodup hintact.nodup_headers hheader

/-- The lines of the rows that a test of transaction and line lets through. -/
theorem filter_lines (h : t.Records journal) (test : String → Line → Bool) :
    (t.lines.filter fun row => test row.transaction row.line).map LineRow.line =
      journal.flatMap fun c => c.transaction.lines.filter (test c.id) := by
  have hrows : (t.lines.filter fun row => test row.transaction row.line).map LineRow.line =
      ((t.lines.map fun row => (row.transaction, row.line)).filter
        fun p => test p.1 p.2).map Prod.snd := by
    rw [List.filter_map, List.map_map]
    rfl
  rw [hrows, h.lines, List.filter_flatMap, List.map_flatMap]
  refine List.flatMap_congr fun c _ => ?_
  rw [Call.lines, List.filter_map, List.map_map]
  exact List.map_id' _

/-- The lines of a transaction in the journal are those that were submitted. -/
theorem linesOf_eq (h : t.Records journal) (hintact : t.Intact) {c : Call} (hc : c ∈ journal) :
    t.linesOf c.id = c.transaction.lines := by
  have hfilter := h.filter_lines fun transaction _ => decide (transaction = c.id)
  have hothers : ∀ d : Call, (d.transaction.lines.filter fun _ => decide (d.id = c.id)) =
      if d.id = c.id then d.transaction.lines else [] := by
    intro d
    split_ifs with hid <;> simp [hid]
  rw [linesOf, hfilter, List.flatMap_congr fun d _ => hothers d, flatMap_ite,
    filter_eq_singleton_of_nodup (h.nodup_ids hintact) hc, List.flatMap_singleton]

/-- The amounts booked on an account are those that the journal books on it. -/
theorem deltasOf_eq (h : t.Records journal) (account : String) :
    t.deltasOf account = Call.booked account journal := by
  have hfilter := congrArg (List.map Line.delta)
    (h.filter_lines fun _ line => decide (line.account = account))
  rw [List.map_map, List.map_flatMap] at hfilter
  exact hfilter

/-- The amounts booked on an account up to a limit are those that the transactions of the journal
with a timestamp text up to it book on the account. -/
theorem deltasUpTo_eq (h : t.Records journal) (hintact : t.Intact) (account limit : String) :
    t.deltasUpTo account limit =
      Call.booked account (journal.filter fun c => c.timestamp.render ≤ limit) := by
  let test : String → Line → Bool := fun transaction line =>
    line.account = account && t.isUpTo limit ⟨0, transaction, line⟩
  have hfilter := congrArg (List.map Line.delta) (h.filter_lines test)
  rw [List.map_map, List.map_flatMap] at hfilter
  have hlimited : ∀ d ∈ journal, (d.transaction.lines.filter (test d.id)).map Line.delta =
      if d.timestamp.render ≤ limit then d.deltasOf account else [] := by
    intro d hd
    obtain ⟨header, hheader, htimestamp⟩ := h.header?_eq hintact hd
    have hupTo : ∀ line, t.isUpTo limit ⟨0, d.id, line⟩ = decide (d.timestamp.render ≤ limit) := by
      intro line
      simp only [isUpTo, hheader, htimestamp]
    simp only [test, hupTo]
    split_ifs with hlimit <;> simp [hlimit, Call.deltasOf]
  rw [Call.booked, ← flatMap_ite, ← List.flatMap_congr hlimited]
  exact hfilter

end Tables.Records

end DoubleEntry
