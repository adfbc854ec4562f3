import DoubleEntry.Proofs.Ledger.Agreement
import DoubleEntry.Proofs.Ledger.Permanence
import DoubleEntry.Proofs.Search.Pages

/-!
# Data maps are read back

A data map is stored as a text and read from it whenever its account or transaction is shown. When
the map came with a request and has no doubles, what is read is the map itself, until it is replaced.
-/

namespace DoubleEntry

open Search (Constraint Query)
open Time (Timestamp)

namespace Ledger

/-- A ledger that shows an account with a given data map. -/
structure ReadsAccount (l : Ledger) (id : String) (data : Data) : Prop where
  /-- It is read with the map whenever it has a balance. -/
  account : l.store.isOpen = true → ∀ balance, l.store.tables.balance? id = some balance →
    l.account id = .ok ⟨id, balance, data⟩
  /-- So is what a search for its id finds. -/
  lookup : l.store.isOpen = true → ∀ balance, l.store.tables.balance? id = some balance →
    (l.searchIn "accounts" (Constraint.documentWithId id).render).1 =
      .ok (.accounts [⟨id, balance, data⟩])
  /-- Every search that finds it shows the map. -/
  hits : ∀ collection text rows, (l.searchIn collection text).1 = .ok (.accounts rows) →
    ∀ row ∈ rows, row.id = id → row.data = data

/-- A ledger that shows a transaction with a given timestamp and data map. -/
structure ReadsTransaction (l : Ledger) (id : String) (timestamp : Timestamp) (data : Data) :
    Prop where
  /-- A search for its id finds it with its lines. -/
  lookup : l.store.isOpen = true →
    (l.searchIn "transactions" (Constraint.documentWithId id).render).1 =
      .ok (.transactions [⟨id, timestamp, data, l.store.tables.linesOf id⟩])
  /-- Every search that finds it shows the map. -/
  hits : ∀ collection text rows, (l.searchIn collection text).1 = .ok (.transactions rows) →
    ∀ row ∈ rows, row.id = id → row.timestamp = timestamp ∧ row.data = data

variable {l : Ledger} {id : String} {data : Data}

/-- An account is shown with the map that is read from its row. -/
theorem readsAccount_of_row (hkeys : l.store.tables.HasKeys)
    (hread : Data.ofStored (some data.stored) = .ok data)
    (hrow : ⟨id, data.stored⟩ ∈ l.store.tables.accounts) : l.ReadsAccount id data := by
  have haccount : l.store.isOpen = true → ∀ balance, l.store.tables.balance? id = some balance →
      l.account id = .ok ⟨id, balance, data⟩ := by
    intro hopen balance hbalance
    have hfound := account_of_row hopen (find?_eq_some_of_nodup hkeys.accounts hrow)
    rw [hfound]
    dsimp only
    rw [hbalance]
    dsimp only
    rw [hread]
    rfl
  constructor
  case account => exact haccount
  case lookup =>
    intro hopen balance hbalance
    rw [searchIn_accounts_withId hkeys hopen hrow (Constraint.ofText_documentWithId id),
      haccount hopen balance hbalance]
    rfl
  case hits =>
    intro collection text rows hrows account hmem hid
    obtain ⟨space, -, hrun⟩ := exists_run_of_searchIn hrows
    obtain ⟨row, hstored, hshows⟩ := Search.exists_row_of_mem_run hrun hmem
    have hsame : row = ⟨id, data.stored⟩ :=
      List.inj_on_of_nodup_map hkeys.accounts hstored hrow (hshows.id.symm.trans hid)
    have hdata := hshows.data
    rw [hsame, hread] at hdata
    exact (Except.ok.inj hdata).symm

/-- A transaction is shown with the timestamp and the map that are read from its header. -/
theorem readsTransaction_of_header (hkeys : l.store.tables.HasKeys)
    (hread : Data.ofStored (some data.stored) = .ok data) {text : String} {timestamp : Timestamp}
    (htimestamp : Timestamp.parse? text = some timestamp)
    (hheader : ⟨id, text, some data.stored⟩ ∈ l.store.tables.headers) :
    l.ReadsTransaction id timestamp data := by
  constructor
  case lookup =>
    intro hopen
    rw [searchIn_transactions_withId hkeys hopen hheader (Constraint.ofText_documentWithId id),
      Search.readTransaction_transactionRow, htimestamp]
    dsimp only
    rw [hread]
    rfl
  case hits =>
    intro collection query rows hrows row hmem hid
    obtain ⟨space, -, hrun⟩ := exists_run_of_searchIn hrows
    obtain ⟨header, hstored, hshows⟩ := Search.exists_header_of_mem_run hrun hmem
    have hsame : header = ⟨id, text, some data.stored⟩ :=
      List.inj_on_of_nodup_map hkeys.headers hstored hheader (hshows.id.symm.trans hid)
    have hshown := hshows.timestamp
    have hdata := hshows.data
    rw [hsame] at hshown hdata
    rw [htimestamp] at hshown
    rw [hread] at hdata
    exact ⟨(Option.some.inj hshown).symm, (Except.ok.inj hdata).symm⟩

/-- An account is shown with its map until the map is replaced. -/
theorem readsAccount_run (hkeys : l.store.tables.HasKeys)
    (hread : Data.ofStored (some data.stored) = .ok data)
    (hrow : ⟨id, data.stored⟩ ∈ l.store.tables.accounts) {later : List Event}
    (hnone : lastReplacement? (.account id) (l.run later).1 = none) :
    (l.run later).2.ReadsAccount id data := by
  apply readsAccount_of_row (hasKeys_run hkeys later) hread
  apply (l.continues_run later).accounts.mem
  apply List.mem_map.mpr
  refine ⟨_, hrow, ?_⟩
  rw [AccountRow.since, revised, hnone]

/-- A transaction is shown with its map until the map is replaced. -/
theorem readsTransaction_run (hkeys : l.store.tables.HasKeys)
    (hread : Data.ofStored (some data.stored) = .ok data) {text : String} {timestamp : Timestamp}
    (htimestamp : Timestamp.parse? text = some timestamp)
    (hheader : ⟨id, text, some data.stored⟩ ∈ l.store.tables.headers) {later : List Event}
    (hnone : lastReplacement? (.transaction id) (l.run later).1 = none) :
    (l.run later).2.ReadsTransaction id timestamp data := by
  apply readsTransaction_of_header (hasKeys_run hkeys later) hread htimestamp
  apply (l.continues_run later).headers.mem
  rw [← Option.getD_none (a := data), ← hnone, ← Header.since_stored]
  exact List.mem_map_of_mem hheader

/-- Once an account was created or changed with a data map that came with a request and has no
doubles, it is shown with this map until the map is replaced, whatever happens to the ledger in
between. So is a transaction that was created or changed with it, if its timestamp can be read, as it
can in every ledger that operations lead to. -/
theorem metadata_reads_back (hkeys : l.store.tables.HasKeys) (hsubmitted : data.IsSubmitted)
    (hintegral : (Json.object data).IsIntegral) (later : List Event) :
    (∀ id, (l.createAccount id data).1 = .ok () →
      lastReplacement? (.account id) ((l.createAccount id data).2.run later).1 = none →
        ((l.createAccount id data).2.run later).2.ReadsAccount id data) ∧
    (∀ id, (l.updateAccount id data).1 = .ok () →
      lastReplacement? (.account id) ((l.updateAccount id data).2.run later).1 = none →
        ((l.updateAccount id data).2.run later).2.ReadsAccount id data) ∧
    (∀ clock t, t.data = data → (l.submit clock t).1 = .ok .created →
      lastReplacement? (.transaction t.id) ((l.submit clock t).2.run later).1 = none →
        ((l.submit clock t).2.run later).2.ReadsTransaction t.id
          (t.timestamp.getD clock.now) data) ∧
    ∀ id, (l.updateTransaction id data).1 = .ok () →
      lastReplacement? (.transaction id) ((l.updateTransaction id data).2.run later).1 = none →
        ∃ header ∈ l.store.tables.headers, header.id = id ∧
          (l.Reachable → ∃ timestamp, Timestamp.parse? header.timestamp = some timestamp) ∧
          ∀ timestamp, Timestamp.parse? header.timestamp = some timestamp →
            ((l.updateTransaction id data).2.run later).2.ReadsTransaction id timestamp data := by
  have hread := hsubmitted.ofStored_stored hintegral
  refine ⟨?created, ?changed, ?submitted, ?replaced⟩
  case created =>
    intro id hdone hnone
    apply readsAccount_run (hasKeys_run hkeys [.createAccount id data]) hread _ hnone
    change _ ∈ (l.createAccount id data).2.store.tables.accounts
    rcases createAccount_cases id data l with ⟨fault, h⟩ | ⟨-, -, -, h⟩
    · rw [h] at hdone
      exact absurd hdone (by simp)
    · rw [h]
      exact List.mem_append_right _ List.mem_cons_self
  case changed =>
    intro id hdone hnone
    apply readsAccount_run (hasKeys_run hkeys [.updateAccount id data]) hread _ hnone
    change _ ∈ (l.updateAccount id data).2.store.tables.accounts
    rcases updateAccount_cases id data l with ⟨fault, h⟩ | ⟨hthere, -, h⟩
    · rw [h] at hdone
      exact absurd hdone (by simp)
    · rw [h]
      obtain ⟨row, hrow, rfl⟩ := List.mem_map.mp (Tables.account?_isSome_iff.mp hthere)
      exact List.mem_map.mpr ⟨row, hrow, if_pos rfl⟩
  case submitted =>
    rintro clock t rfl hdone hnone
    apply readsTransaction_run (hasKeys_run hkeys [.submit clock t]) hread
      (t.timestamp.getD clock.now).parse?_render _ hnone
    change _ ∈ (l.submit clock t).2.store.tables.headers
    rcases submit_cases clock t l with ⟨hnot, -⟩ | ⟨-, -, -, h⟩
    · exact absurd hdone hnot
    · rw [h]
      exact List.mem_append_right _ List.mem_cons_self
  case replaced =>
    intro id hdone hnone
    rcases updateTransaction_cases id data l with ⟨fault, h⟩ | ⟨hthere, -, h⟩
    · rw [h] at hdone
      exact absurd hdone (by simp)
    · obtain ⟨header, hheader, rfl⟩ := List.mem_map.mp (Tables.header?_isSome_iff.mp hthere)
      refine ⟨header, hheader, rfl, fun hreachable => ?_, fun timestamp htimestamp => ?_⟩
      · obtain ⟨timestamp, htimestamp, -⟩ := hreachable.intact.timestamps header hheader
        exact ⟨timestamp, htimestamp⟩
      apply readsTransaction_run (hasKeys_run hkeys [.updateTransaction header.id data]) hread
        htimestamp _ hnone
      change _ ∈ (l.updateTransaction header.id data).2.store.tables.headers
      rw [h]
      exact List.mem_map.mpr ⟨header, hheader, if_pos rfl⟩

/-- A request with a note of a quotation mark, nothing and a number. -/
def noteBody : String := "\x7b\"id\":\"a\",\"data\":\x7b\"note\":[\"\\\"\",null,7]\x7d\x7d"

/-- The data map of the request. -/
def noted : Data := [("note", .array [.text "\"", .null, .integer 7])]

/-- An account that was created with a note is shown with it after the store was closed. -/
theorem metadata_reads_back_note :
    uncounted.store.tables.HasKeys ∧ noted.IsSubmitted ∧ (Json.object noted).IsIntegral ∧
      (uncounted.createAccount "a" noted).1 = .ok () ∧
      ((uncounted.createAccount "a" noted).2.run [.close, .reopen]).2.account "a" =
        .ok ⟨"a", 0, noted⟩ := by
  have hkeys : uncounted.store.tables.HasKeys := Tables.intact_empty.hasKeys
  have hsubmitted : noted.IsSubmitted := by
    have hbody : Body.ofBytes DataRequest.ofBody? (Text.Utf8.encode noteBody) =
        .ok ⟨"a", noted⟩ := by rfl
    exact .request hbody
  have hintegral : (Json.object noted).IsIntegral := by
    apply Json.IsIntegral.object
    rw [noted, List.forall_mem_singleton]
    apply Json.IsIntegral.array
    simp only [List.forall_mem_cons]
    exact ⟨.text _, .null, .integer _, fun _ hnone => absurd hnone List.not_mem_nil⟩
  have hdone : (uncounted.createAccount "a" noted).1 = .ok () := by decide +kernel
  obtain ⟨hcreated, -⟩ := metadata_reads_back hkeys hsubmitted hintegral [.close, .reopen]
  refine ⟨hkeys, hsubmitted, hintegral, hdone, ?_⟩
  exact (hcreated "a" hdone rfl).account (by decide +kernel) 0 (by decide +kernel)

end Ledger

end DoubleEntry
