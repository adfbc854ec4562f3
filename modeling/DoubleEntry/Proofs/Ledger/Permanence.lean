import DoubleEntry.Proofs.Ledger.Journal
import DoubleEntry.Proofs.Search.Rows
import DoubleEntry.Proofs.Time.Order

/-!
# What was committed stays

No event takes a row away. Lines are never changed, headers and accounts only in their data, and
these only by a replacement that succeeded. A transaction that was created is therefore read back as
it was submitted for ever after, line by line and by every search that finds it.
-/

namespace DoubleEntry

open Time (Timestamp)

/-! ## Replaced data -/

/-- The data by which an answered event replaced those of an account or a transaction. -/
def Event.replacement? (entity : Entity) : Event × Answer → Option Data
  | (.updateAccount id data, .done (.ok ())) => if entity = .account id then some data else none
  | (.updateTransaction id data, .done (.ok ())) =>
    if entity = .transaction id then some data else none
  | _ => none

namespace Ledger

/-- The data by which those of an account or a transaction were last replaced in a history. -/
def lastReplacement? (entity : Entity) (history : List (Event × Answer)) : Option Data :=
  (history.filterMap (Event.replacement? entity)).getLast?

/-- What a history replaced last was replaced at its end, or else at its beginning. -/
theorem lastReplacement?_append (entity : Entity) (first later : List (Event × Answer)) :
    lastReplacement? entity (first ++ later) =
      (lastReplacement? entity later).or (lastReplacement? entity first) := by
  rw [lastReplacement?, List.filterMap_append, List.getLast?_append]
  rfl

/-- A history of one event replaced what the event did. -/
theorem lastReplacement?_singleton (entity : Entity) (p : Event × Answer) :
    lastReplacement? entity [p] = Event.replacement? entity p := by
  unfold lastReplacement?
  cases h : Event.replacement? entity p <;> simp [h]

section Revised

variable {α : Type} {entity : α → Entity} {replace : Data → α → α}

/-- A row about some entity after a history: it has the data by which those of the entity were last
replaced. -/
def revised (entity : α → Entity) (replace : Data → α → α) (history : List (Event × Answer))
    (row : α) : α :=
  match lastReplacement? (entity row) history with
  | some data => replace data row
  | none => row

/-- Rows whose data were not replaced stay as they are. -/
theorem map_revised_of_none {history : List (Event × Answer)} {rows : List α}
    (hnone : ∀ row, lastReplacement? (entity row) history = none) :
    rows.map (revised entity replace history) = rows := by
  have hrow : ∀ row, revised entity replace history row = row := by
    intro row
    rw [revised, hnone row]
  calc rows.map (revised entity replace history) = rows.map fun row => row :=
        List.map_congr_left fun row _ => hrow row
    _ = rows := List.map_id' rows

/-- Rows are revised by one history after another as by both together when a replacement leaves the
entity of a row and forgets the one before. -/
theorem map_revised_append (hentity : ∀ data row, entity (replace data row) = entity row)
    (hreplace : ∀ data old row, replace data (replace old row) = replace data row)
    (first later : List (Event × Answer)) (rows : List α) :
    rows.map (revised entity replace (first ++ later)) =
      (rows.map (revised entity replace first)).map (revised entity replace later) := by
  rw [List.map_map]
  refine List.map_congr_left fun row _ => ?_
  simp only [Function.comp_apply, revised, lastReplacement?_append]
  cases hfirst : lastReplacement? (entity row) first with
  | none => simp
  | some old =>
    cases hlater : lastReplacement? (entity row) later with
    | none => simp [hentity, hlater]
    | some data => simp [hentity, hlater, hreplace]

end Revised

end Ledger

/-- An account row with other data. -/
def AccountRow.withData (data : Data) (row : AccountRow) : AccountRow :=
  { row with data := data.stored }

/-- A header with other data. -/
def Header.withData (data : Data) (header : Header) : Header :=
  { header with data := some data.stored }

/-- An account row after a history. -/
def AccountRow.since : List (Event × Answer) → AccountRow → AccountRow :=
  Ledger.revised (fun row => .account row.id) withData

/-- A header after a history. -/
def Header.since : List (Event × Answer) → Header → Header :=
  Ledger.revised (fun header => .transaction header.id) withData

/-- Account rows are revised by one history after another as by both together. -/
theorem AccountRow.map_since_append (first later : List (Event × Answer))
    (rows : List AccountRow) :
    rows.map (since (first ++ later)) = (rows.map (since first)).map (since later) := by
  apply Ledger.map_revised_append
  · exact fun _ _ => rfl
  · exact fun _ _ _ => rfl

/-- Headers are revised by one history after another as by both together. -/
theorem Header.map_since_append (first later : List (Event × Answer)) (headers : List Header) :
    headers.map (since (first ++ later)) = (headers.map (since first)).map (since later) := by
  apply Ledger.map_revised_append
  · exact fun _ _ => rfl
  · exact fun _ _ _ => rfl

/-- A header keeps its id and timestamp, and has the data that replaced its own last. -/
theorem Header.since_stored (history : List (Event × Answer)) (id timestamp : String)
    (data : Data) :
    Header.since history ⟨id, timestamp, some data.stored⟩ =
      ⟨id, timestamp,
        some ((Ledger.lastReplacement? (.transaction id) history).getD data).stored⟩ := by
  rw [since, Ledger.revised]
  cases Ledger.lastReplacement? (.transaction id) history <;> rfl

/-! ## Tables that go on -/

namespace Tables

/-- Tables that a history made of others: all rows that were there still are, in their order, with
the data that the history gave them, and new rows stand behind them. -/
structure Continues (before : Tables) (history : List (Event × Answer)) (after : Tables) :
    Prop where
  accounts : before.accounts.map (AccountRow.since history) <+: after.accounts
  headers : before.headers.map (Header.since history) <+: after.headers
  lines : before.lines <+: after.lines

namespace Continues

variable {before mid after : Tables}

/-- What one history made and a later one went on with is made by both together. -/
theorem trans {first later : List (Event × Answer)} (h : before.Continues first mid)
    (hlater : mid.Continues later after) : before.Continues (first ++ later) after where
  accounts := by
    rw [AccountRow.map_since_append]
    exact (h.accounts.map _).trans hlater.accounts
  headers := by
    rw [Header.map_since_append]
    exact (h.headers.map _).trans hlater.headers
  lines := h.lines.trans hlater.lines

/-- A history that replaces nothing may only add rows. -/
theorem of_added {history : List (Event × Answer)}
    (hnone : ∀ entity, Ledger.lastReplacement? entity history = none)
    (haccounts : before.accounts <+: after.accounts) (hheaders : before.headers <+: after.headers)
    (hlines : before.lines <+: after.lines) : before.Continues history after where
  accounts := by
    rwa [AccountRow.since, Ledger.map_revised_of_none fun _ => hnone _]
  headers := by
    rwa [Header.since, Ledger.map_revised_of_none fun _ => hnone _]
  lines := hlines

/-- A history that replaces nothing may leave the tables as they are. -/
theorem refl {history : List (Event × Answer)}
    (hnone : ∀ entity, Ledger.lastReplacement? entity history = none) (t : Tables) :
    t.Continues history t :=
  of_added hnone (List.prefix_refl _) (List.prefix_refl _) (List.prefix_refl _)

/-- A replacement of the data of an account changes its row and no other. -/
theorem withAccountData (t : Tables) (id : String) (data : Data) :
    t.Continues [(.updateAccount id data, .done (.ok ()))] (t.withAccountData id data) where
  accounts := by
    have hrows : t.accounts.map (AccountRow.since [(.updateAccount id data, .done (.ok ()))]) =
        (t.withAccountData id data).accounts := by
      refine List.map_congr_left fun row _ => ?_
      simp only [AccountRow.since, Ledger.revised, Ledger.lastReplacement?_singleton,
        Event.replacement?, Entity.account.injEq]
      by_cases hid : row.id = id <;> simp [hid, AccountRow.withData]
    rw [hrows]
  headers := by
    rw [Header.since, Ledger.map_revised_of_none]
    · exact List.prefix_refl _
    · intro header
      simp [Ledger.lastReplacement?_singleton, Event.replacement?]
  lines := List.prefix_refl _

/-- A replacement of the data of a transaction changes its header and no other. -/
theorem withHeaderData (t : Tables) (id : String) (data : Data) :
    t.Continues [(.updateTransaction id data, .done (.ok ()))] (t.withHeaderData id data) where
  accounts := by
    rw [AccountRow.since, Ledger.map_revised_of_none]
    · exact List.prefix_refl _
    · intro row
      simp [Ledger.lastReplacement?_singleton, Event.replacement?]
  headers := by
    have hrows : t.headers.map (Header.since [(.updateTransaction id data, .done (.ok ()))]) =
        (t.withHeaderData id data).headers := by
      refine List.map_congr_left fun header _ => ?_
      simp only [Header.since, Ledger.revised, Ledger.lastReplacement?_singleton,
        Event.replacement?, Entity.transaction.injEq]
      by_cases hid : header.id = id <;> simp [hid, Header.withData]
    rw [hrows]
  lines := List.prefix_refl _

end Continues

end Tables

namespace Ledger

/-- The tables go on over one event. -/
theorem continues_respond (l : Ledger) (e : Event) :
    l.store.tables.Continues [(e, (l.respond e).1)] (l.respond e).2.store.tables := by
  cases e with
  | submit clock t =>
    have hnone : ∀ entity, lastReplacement? entity
        [(Event.submit clock t, (l.respond (.submit clock t)).1)] = none := fun _ => rfl
    change Tables.Continues _ _ (l.submit clock t).2.store.tables
    rcases submit_cases clock t l with ⟨-, hstore⟩ | ⟨-, -, -, hstore⟩
    · rw [hstore]
      exact .refl hnone _
    · rw [hstore]
      exact .of_added hnone (List.prefix_append _ _) (List.prefix_append _ _)
        (List.prefix_append _ _)
  | createAccount id data =>
    have hnone : ∀ entity, lastReplacement? entity
        [(Event.createAccount id data, (l.respond (.createAccount id data)).1)] = none :=
      fun _ => rfl
    change Tables.Continues _ _ (l.createAccount id data).2.store.tables
    rcases createAccount_cases id data l with ⟨fault, h⟩ | ⟨-, -, -, h⟩
    · rw [h]
      exact .refl hnone _
    · rw [h]
      exact .of_added hnone (List.prefix_append _ _) (List.prefix_refl _) (List.prefix_refl _)
  | updateAccount id data =>
    change Tables.Continues _ [(_, Answer.done (l.updateAccount id data).1)]
      (l.updateAccount id data).2.store.tables
    rcases updateAccount_cases id data l with ⟨fault, h⟩ | ⟨-, -, h⟩
    · rw [h]
      exact .refl (fun _ => rfl) _
    · rw [h]
      exact .withAccountData _ id data
  | updateTransaction id data =>
    change Tables.Continues _ [(_, Answer.done (l.updateTransaction id data).1)]
      (l.updateTransaction id data).2.store.tables
    rcases updateTransaction_cases id data l with ⟨fault, h⟩ | ⟨-, -, h⟩
    · rw [h]
      exact .refl (fun _ => rfl) _
    · rw [h]
      exact .withHeaderData _ id data
  | search collection text =>
    change Tables.Continues _ _ (l.searchIn collection text).2.store.tables
    rw [store_searchIn]
    exact .refl (fun _ => rfl) _
  | account | balanceAt | refuse | allow | close | reopen => exact .refl (fun _ => rfl) _

/-- The tables go on over every history. -/
theorem continues_run (l : Ledger) (events : List Event) :
    l.store.tables.Continues (l.run events).1 (l.run events).2.store.tables := by
  induction events generalizing l with
  | nil => exact .refl (fun _ => rfl) _
  | cons e rest ih => exact (l.continues_respond e).trans (ih (l.respond e).2)

end Ledger

/-! ## Transactions that were created -/

/-- A ledger from which a transaction is read back as it was submitted, with the timestamp of its
commit and with the given data. -/
structure Ledger.Keeps (l : Ledger) (t : Transaction) (at_ : Timestamp) (data : Data) : Prop where
  /-- It has one header. -/
  header : l.store.tables.headers.filter (fun header => header.id = t.id) =
    [⟨t.id, at_.render, some data.stored⟩]
  /-- An open store gives its lines in the order in which they were submitted. -/
  lines : l.store.isOpen = true → l.store.linesOf t.id = .ok t.lines
  /-- A search that succeeds shows it once, with all its lines in order, or not at all. -/
  hits : ∀ collection text rows, (l.searchIn collection text).1 = .ok (.transactions rows) →
    rows.filter (fun row => row.id = t.id) = [] ∨
      ∃ shown, Data.ofStored (some data.stored) = .ok shown ∧
        rows.filter (fun row => row.id = t.id) = [⟨t.id, at_, shown, t.lines⟩]

namespace Ledger

/-- A ledger keeps a transaction of its journal that has a header with the given data. -/
theorem keeps_of_records {l : Ledger} {journal : List Call}
    (h : l.store.tables.Records journal) (hintact : l.store.tables.Intact) {c : Call}
    (hc : c ∈ journal) {data : Data}
    (hheader : ⟨c.id, c.timestamp.render, some data.stored⟩ ∈ l.store.tables.headers) :
    l.Keeps c.transaction c.timestamp data where
  header := filter_eq_singleton_of_nodup hintact.nodup_headers hheader
  lines := by
    intro hopen
    rw [Store.linesOf_eq _ hopen]
    exact congrArg Except.ok (h.linesOf_eq hintact hc)
  hits := by
    intro collection text rows hrows
    obtain ⟨space, -, hrun⟩ := exists_run_of_searchIn hrows
    refine (Search.filter_of_run hrun hintact.nodup_headers hheader).imp_right ?_
    rintro ⟨⟨id, timestamp, shown, lines⟩, hfilter, hshows⟩
    refine ⟨shown, hshows.data, ?_⟩
    have htimestamp : timestamp = c.timestamp := by
      have hparse := hshows.timestamp
      rw [Timestamp.parse?_render] at hparse
      exact (Option.some.inj hparse).symm
    have hlines : lines = c.transaction.lines := hshows.lines.trans (h.linesOf_eq hintact hc)
    rw [← htimestamp, ← hlines, ← show id = c.transaction.id from hshows.id]
    rw [← show id = c.id from hshows.id] at hfilter
    exact hfilter

/-- Whatever happens to a ledger later, its rows stay, with data changed by successful replacements
only, and a transaction that it created is read back from it as it was submitted. -/
theorem committed_permanently {l : Ledger} (hreachable : l.Reachable) (later : List Event) :
    l.store.tables.Continues (l.run later).1 (l.run later).2.store.tables ∧
      ∀ clock t, (l.submit clock t).1 = .ok .created →
        ((l.submit clock t).2.run later).2.Keeps t (t.timestamp.getD clock.now)
          ((lastReplacement? (.transaction t.id) ((l.submit clock t).2.run later).1).getD
            t.data) := by
  refine ⟨l.continues_run later, fun clock t hcreated => ?_⟩
  let c : Call := ⟨clock, t⟩
  have hintact := intact_run (intact_run hreachable.intact [.submit clock t]) later
  obtain ⟨calls, hcalls⟩ := hreachable.exists_hasJournal
  have hrecords := records_run (records_respond hcalls.records (.submit clock t)) later
  -- The call is in the journal since its answer; its header has been followed from there on.
  refine keeps_of_records (c := c) hrecords hintact ?_ ?_
  · rw [created?_submit hcreated]
    simp [c]
  · rw [Call.id, ← Header.since_stored]
    refine ((l.submit clock t).2.continues_run later).headers.mem (List.mem_map_of_mem ?_)
    rcases submit_cases clock t l with ⟨hnot, -⟩ | ⟨-, -, -, hstore⟩
    · exact absurd hcreated hnot
    · rw [hstore]
      exact List.mem_append_right _ List.mem_cons_self

/-- A payment. -/
def payment : Call := .dated (.newYear 2000) "1" [⟨"a", 5⟩, ⟨"b", -5⟩]

/-- A payment of the same id, a time without inserts, and two replacements of data. -/
def afterwards : List Event :=
  [.close, .reopen, (Call.dated (.newYear 2018) "1" [⟨"a", 7⟩, ⟨"b", -7⟩]).event, .refuse .lines,
    .updateTransaction "1" [("note", .text "open")], .updateTransaction "1" [("note", .text "paid")]]

/-- A payment is kept with the data by which its own were replaced last. -/
theorem committed_permanently_payment :
    uncounted.Reachable ∧
      (uncounted.submit payment.clock payment.transaction).1 = .ok .created ∧
      ∃ data : Data, data.stored = Data.stored [("note", .text "paid")] ∧
        ((uncounted.submit payment.clock payment.transaction).2.run afterwards).2.Keeps
          payment.transaction (.newYear 2000) data := by
  have hreachable : uncounted.Reachable := ⟨none, [], rfl⟩
  have hcreated : (uncounted.submit payment.clock payment.transaction).1 = .ok .created := by
    decide +kernel
  obtain ⟨-, hkeeps⟩ := committed_permanently hreachable afterwards
  exact ⟨hreachable, hcreated, _, by decide +kernel, hkeeps _ _ hcreated⟩

end Ledger

end DoubleEntry
