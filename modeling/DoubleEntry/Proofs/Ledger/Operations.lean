import DoubleEntry.Ledger.Access
import DoubleEntry.Ledger.Creation
import DoubleEntry.Ledger.Submission
import DoubleEntry.Proofs.Store.Commit
import DoubleEntry.Proofs.Transaction.Validity

/-!
# What the operations of a ledger do

Each writing operation is described once, by its answer and the ledger it leaves behind. Everything
that is proved about runs rests on these descriptions and opens no operation again.
-/

namespace DoubleEntry

open Time (Timestamp)

/-! ## Changes of tables -/

namespace Tables

/-- The tables with a row for an account that was created with data. -/
def withAccount (t : Tables) (id : String) (data : Data) : Tables :=
  { t with accounts := t.accounts ++ [⟨id, data.stored⟩] }

/-- The tables with the data of an account replaced. -/
def withAccountData (t : Tables) (id : String) (data : Data) : Tables :=
  { t with accounts := t.accounts.map fun r =>
      if r.id = id then { r with data := data.stored } else r }

/-- The tables with the data of a transaction replaced. -/
def withHeaderData (t : Tables) (id : String) (data : Data) : Tables :=
  { t with headers := t.headers.map fun r =>
      if r.id = id then { r with data := some data.stored } else r }

/-- A change of some rows changes nothing when there are none of them. -/
private theorem map_ite_of_length_filter_eq_zero {α : Type} {p : α → Prop} [DecidablePred p]
    {change : α → α} {rows : List α} (h : (rows.filter fun r => p r).length = 0) :
    (rows.map fun r => if p r then change r else r) = rows := by
  have hnone : ∀ r ∈ rows, ¬ p r := by
    simpa [List.filter_eq_nil_iff] using h
  calc (rows.map fun r => if p r then change r else r) = rows.map fun r => r :=
        List.map_congr_left fun r hr => if_neg (hnone r hr)
    _ = rows := List.map_id' rows

/-- Replacing the data of an account that is not there changes nothing. -/
theorem withAccountData_of_length_eq_zero {t : Tables} {id : String} (data : Data)
    (h : (t.accounts.filter fun r => r.id = id).length = 0) : t.withAccountData id data = t := by
  rw [withAccountData, map_ite_of_length_filter_eq_zero h]

/-- Replacing the data of a transaction that is not there changes nothing. -/
theorem withHeaderData_of_length_eq_zero {t : Tables} {id : String} (data : Data)
    (h : (t.headers.filter fun r => r.id = id).length = 0) : t.withHeaderData id data = t := by
  rw [withHeaderData, map_ite_of_length_filter_eq_zero h]

/-- An account is there when some row has its id. -/
theorem account?_isSome_iff_length {t : Tables} {id : String} :
    (t.account? id).isSome = true ↔ ¬ (t.accounts.filter fun r => r.id = id).length = 0 := by
  simp [account?, List.filter_eq_nil_iff]

/-- A transaction is there when some header has its id. -/
theorem header?_isSome_iff_length {t : Tables} {id : String} :
    (t.header? id).isSome = true ↔ ¬ (t.headers.filter fun r => r.id = id).length = 0 := by
  simp [header?, List.filter_eq_nil_iff]

end Tables

namespace Store

/-- An open store knows the transactions that have a header. -/
theorem transactionExists_eq (s : Store) (hopen : s.isOpen = true) (id : String) :
    s.transactionExists id = .ok (s.tables.header? id).isSome := by
  rw [transactionExists, contents, if_pos hopen]
  rfl

/-- An open store gives the lines of a transaction. -/
theorem linesOf_eq (s : Store) (hopen : s.isOpen = true) (id : String) :
    s.linesOf id = .ok (s.tables.linesOf id) := by
  rw [linesOf, contents, if_pos hopen]
  rfl

/-- A closed store knows no transaction. -/
theorem transactionExists_of_closed (s : Store) (hclosed : s.isOpen = false) (id : String) :
    s.transactionExists id = .error .closed := by
  rw [transactionExists, contents, hclosed]
  rfl

/-- An account is inserted into an open store that takes accounts and has none under the id, and it
is one row behind the others then. -/
theorem insertAccount_eq_ok_iff {s next : Store} {id : String} {data : Data} :
    s.insertAccount id data = .ok next ↔ s.isOpen = true ∧ .accounts ∉ s.refused ∧
      (s.tables.account? id).isNone = true ∧
      next = { s with tables := s.tables.withAccount id data } := by
  unfold insertAccount insertAccountRow
  by_cases hopen : s.isOpen = true
  · by_cases haccounts : Table.accounts ∈ s.refused
    · rw [bind_of_eq_error (contentsForInsert_eq_error hopen haccounts)]
      simp [haccounts]
    · rw [bind_of_eq_ok (contentsForInsert_eq_ok hopen haccounts)]
      by_cases h : (s.tables.account? id).isSome = true
      · have hpresent : s.tables.account? id ≠ none := Option.isSome_iff_ne_none.mp h
        simp [h, hpresent]
      · rw [if_neg h]
        refine ⟨fun hok => ⟨hopen, haccounts, by simpa using h, (Except.ok.inj hok).symm⟩, ?_⟩
        rintro ⟨-, -, -, rfl⟩
        rfl
  · rw [bind_of_eq_error (contentsForInsert_closed (by simpa using hopen))]
    simp [hopen]

/-- Replacing the data of an account tells how many rows it touched. -/
theorem updateAccountData_eq (s : Store) (id : String) (data : Data) :
    s.updateAccountData id data =
      if s.isOpen = true then
        .ok ((s.tables.accounts.filter fun r => r.id = id).length,
          { s with tables := s.tables.withAccountData id data })
      else .error .closed := by
  unfold updateAccountData contents
  split_ifs <;> rfl

/-- Replacing the data of a transaction tells how many rows it touched. -/
theorem updateTransactionData_eq (s : Store) (id : String) (data : Data) :
    s.updateTransactionData id data =
      if s.isOpen = true then
        .ok ((s.tables.headers.filter fun r => r.id = id).length,
          { s with tables := s.tables.withHeaderData id data })
      else .error .closed := by
  unfold updateTransactionData contents
  split_ifs <;> rfl

end Store

/-! ## Submissions -/

namespace Submission

/-- A comparison with lines in the store creates nothing. -/
theorem verdict_ne_created (stored submitted : List Line) :
    verdict stored submitted ≠ .created := by
  unfold verdict
  split_ifs <;> simp

/-- A submission under a known id leaves the store as it is. -/
theorem settle_known_cases (clock : Clock) (t : Transaction) (l : Ledger) :
    (settle clock t .known l).1 ≠ .ok .created ∧ (settle clock t .known l).2.store = l.store := by
  rw [settle]
  unfold step
  cases l.store.linesOf t.id with
  | error fault => simp [settle]
  | ok stored =>
    refine ⟨?_, by simp [settle, finish, Ledger.count]⟩
    simpa [settle, finish] using verdict_ne_created stored t.lines

/-- Past its check a submission leaves the store as it is or creates its transaction. -/
theorem settle_fresh_cases (clock : Clock) (t : Transaction) (l : Ledger) :
    ((settle clock t .fresh l).1 ≠ .ok .created ∧ (settle clock t .fresh l).2.store = l.store) ∨
      ((l.store.tables.header? t.id).isNone = true ∧ (settle clock t .fresh l).1 = .ok .created ∧
        (settle clock t .fresh l).2.store = { l.store with
          tables := l.store.tables.withTransaction t (t.timestamp.getD clock.now) }) := by
  rw [settle]
  rcases l.store.commit_cases t (t.timestamp.getD clock.now) with
    ⟨fault, h⟩ | ⟨-, -, h⟩ | ⟨habsent, -, -, h⟩
  · refine .inl ⟨?_, ?_⟩ <;> simp [step, settle, h, Ledger.count]
  · simp only [step, h]
    exact .inl (settle_known_cases clock t _)
  · refine .inr ⟨habsent, ?_, ?_⟩ <;> simp [step, settle, finish, h, Ledger.count]

end Submission

namespace Ledger

variable {l : Ledger}

/-- A transaction that is not valid is rejected with a fault of its input. -/
theorem submit_of_not_valid (clock : Clock) {t : Transaction} (h : ¬ t.Valid) :
    ∃ fault, l.submit clock t =
      (.error (.input fault), l.count (Metrics.recordOutcome "rejected")) := by
  obtain ⟨fault, hfault⟩ := Transaction.exists_validate_eq_error h
  exact ⟨fault, by rw [submit, hfault]⟩

/-- A valid transaction is taken through its steps. -/
theorem submit_of_valid (clock : Clock) {t : Transaction} (h : t.Valid) :
    l.submit clock t = Submission.settle clock t .arrived l := by
  rw [submit, (Transaction.validate_eq_ok_iff t).mpr h]

/-- Nothing can be submitted to a closed store. -/
theorem submit_of_closed (clock : Clock) {t : Transaction} (h : t.Valid)
    (hclosed : l.store.isOpen = false) : l.submit clock t = (.error (.store .closed), l) := by
  rw [submit_of_valid clock h]
  simp only [Submission.settle, Submission.step, Store.transactionExists_of_closed _ hclosed]

/-- A submission under a known id is compared with the lines in the store. -/
theorem submit_of_present (clock : Clock) {t : Transaction} (h : t.Valid)
    (hopen : l.store.isOpen = true) (hpresent : (l.store.tables.header? t.id).isSome = true) :
    l.submit clock t =
      let outcome := Submission.verdict (l.store.tables.linesOf t.id) t.lines
      (.ok outcome, l.count (Metrics.recordOutcome outcome.name)) := by
  rw [submit_of_valid clock h]
  simp only [Submission.settle, Submission.step, Store.transactionExists_eq _ hopen, hpresent,
    Store.linesOf_eq _ hopen, Submission.finish]

/-- A submission under a new id is handed to the commit unit. -/
theorem submit_of_absent (clock : Clock) {t : Transaction} (h : t.Valid)
    (hopen : l.store.isOpen = true) (habsent : (l.store.tables.header? t.id).isNone = true) :
    l.submit clock t = Submission.settle clock t .fresh l := by
  have hnot : (l.store.tables.header? t.id).isSome = false := by simpa using habsent
  rw [submit_of_valid clock h, Submission.settle]
  simp only [Submission.step, Store.transactionExists_eq _ hopen, hnot]

/-- A new transaction is created when none of its rows is refused. -/
theorem submit_of_accepted (clock : Clock) {t : Transaction} (h : t.Valid)
    (hopen : l.store.isOpen = true) (habsent : (l.store.tables.header? t.id).isNone = true)
    (hrefused : ¬ l.store.RefusesRows t) :
    l.submit clock t =
      (.ok .created, ({ l with store := { l.store with
        tables := l.store.tables.withTransaction t (t.timestamp.getD clock.now) } }.count
          (Metrics.recordOutcome "created")).count (Metrics.recordDuration clock.elapsed)) := by
  rw [submit_of_absent clock h hopen habsent, Submission.settle]
  simp only [Submission.step, Store.commit_of_fresh _ hopen habsent hrefused, Submission.finish,
    Submission.settle, Outcome.name]

/-- A new transaction fails, and leaves nothing behind, when one of its rows is refused. -/
theorem submit_of_refused (clock : Clock) {t : Transaction} (h : t.Valid)
    (hopen : l.store.isOpen = true) (habsent : (l.store.tables.header? t.id).isNone = true)
    (hrefused : l.store.RefusesRows t) :
    ∃ fault, l.submit clock t = (.error (.commit t.id fault), l.count Metrics.recordFailure) := by
  obtain ⟨fault, hfault⟩ :=
    Store.exists_commit_eq_error (t.timestamp.getD clock.now) habsent hrefused
  refine ⟨fault, ?_⟩
  rw [submit_of_absent clock h hopen habsent, Submission.settle]
  simp only [Submission.step, hfault, Submission.settle]

/-- A submission leaves the store as it is or creates its transaction. -/
theorem submit_cases (clock : Clock) (t : Transaction) (l : Ledger) :
    ((l.submit clock t).1 ≠ .ok .created ∧ (l.submit clock t).2.store = l.store) ∨
      (t.Valid ∧ (l.store.tables.header? t.id).isNone = true ∧
        (l.submit clock t).1 = .ok .created ∧
        (l.submit clock t).2.store = { l.store with
          tables := l.store.tables.withTransaction t (t.timestamp.getD clock.now) }) := by
  by_cases h : t.Valid
  · by_cases hopen : l.store.isOpen = true
    · by_cases hpresent : (l.store.tables.header? t.id).isSome = true
      · rw [submit_of_present clock h hopen hpresent]
        exact .inl ⟨by simpa using Submission.verdict_ne_created _ _, rfl⟩
      · rw [submit_of_absent clock h hopen (by simpa using hpresent)]
        exact (Submission.settle_fresh_cases clock t l).imp_right fun hcreated => ⟨h, hcreated⟩
    · rw [submit_of_closed clock h (by simpa using hopen)]
      exact .inl ⟨by simp, rfl⟩
  · obtain ⟨fault, hfault⟩ := submit_of_not_valid (l := l) clock h
    rw [hfault]
    exact .inl ⟨by simp, rfl⟩

/-! ## Accounts and data -/

/-- Creating an account fails and leaves the ledger as it is, or adds the account. -/
theorem createAccount_cases (id : String) (data : Data) (l : Ledger) :
    (∃ fault, l.createAccount id data = (.error fault, l)) ∨
      (Text.isBlankText id = false ∧ (∀ key ∈ data.keys, DataKey.Matches key) ∧
        (l.store.tables.account? id).isNone = true ∧
        l.createAccount id data = (.ok (), { l with store := { l.store with
          tables := l.store.tables.withAccount id data } })) := by
  unfold createAccount Creation.check
  by_cases hid : Text.isBlankText id = true
  · rw [if_pos hid]
    exact .inl ⟨_, rfl⟩
  · rw [if_neg hid]
    cases hcheck : DataKey.check data with
    | error fault => exact .inl ⟨_, rfl⟩
    | ok u =>
      have hkeys := (DataKey.check_eq_ok_iff data).mp hcheck
      cases hexists : l.store.accountExists id with
      | error fault =>
        exact .inl ⟨.store fault, by simp [Creation.settle, Creation.step, hexists]⟩
      | ok there =>
        cases there with
        | true =>
          exact .inl ⟨.conflict (.account id), by simp [Creation.settle, Creation.step, hexists]⟩
        | false =>
          cases hinsert : l.store.insertAccount id data with
          | error fault =>
            exact .inl ⟨Creation.insertFault id fault,
              by simp [Creation.settle, Creation.step, hexists, hinsert]⟩
          | ok next =>
            obtain ⟨-, -, habsent, rfl⟩ := Store.insertAccount_eq_ok_iff.mp hinsert
            exact .inr ⟨by simpa using hid, hkeys, habsent,
              by simp [Creation.settle, Creation.step, hexists, hinsert]⟩

/-- Replacing data fails and leaves the ledger as it is, or makes its update of the store. -/
theorem replaceData_cases (entity : Entity) (data : Data)
    (update : Store → Except StoreFault (Nat × Store)) (l : Ledger) :
    (∃ fault, l.replaceData entity data update = (.error fault, l)) ∨
      ∃ n s, n ≠ 0 ∧ (∀ key ∈ data.keys, DataKey.Matches key) ∧ update l.store = .ok (n, s) ∧
        l.replaceData entity data update = (.ok (), { l with store := s }) := by
  unfold replaceData
  cases hcheck : DataKey.check data with
  | error fault => exact .inl ⟨_, rfl⟩
  | ok u =>
    cases hupdate : update l.store with
    | error fault => exact .inl ⟨_, rfl⟩
    | ok result =>
      obtain ⟨n, s⟩ := result
      cases n with
      | zero => exact .inl ⟨_, rfl⟩
      | succ n => exact .inr ⟨n + 1, s, n.succ_ne_zero, (DataKey.check_eq_ok_iff data).mp hcheck,
          rfl, rfl⟩

/-- Replacing the data of an account fails and leaves the ledger as it is, or replaces them where the
account is there. -/
theorem updateAccount_cases (id : String) (data : Data) (l : Ledger) :
    (∃ fault, l.updateAccount id data = (.error fault, l)) ∨
      ((l.store.tables.account? id).isSome = true ∧ (∀ key ∈ data.keys, DataKey.Matches key) ∧
        l.updateAccount id data = (.ok (), { l with store := { l.store with
          tables := l.store.tables.withAccountData id data } })) := by
  unfold updateAccount
  rcases l.replaceData_cases (.account id) data fun s => s.updateAccountData id data with
    herror | ⟨n, s, hn, hkeys, hupdate, hok⟩
  · exact .inl herror
  · rw [Store.updateAccountData_eq] at hupdate
    split_ifs at hupdate
    obtain ⟨rfl, rfl⟩ := Prod.mk.inj (Except.ok.inj hupdate)
    exact .inr ⟨Tables.account?_isSome_iff_length.mpr hn, hkeys, hok⟩

/-- Replacing the data of a transaction fails and leaves the ledger as it is, or replaces them where
the transaction is there. -/
theorem updateTransaction_cases (id : String) (data : Data) (l : Ledger) :
    (∃ fault, l.updateTransaction id data = (.error fault, l)) ∨
      ((l.store.tables.header? id).isSome = true ∧ (∀ key ∈ data.keys, DataKey.Matches key) ∧
        l.updateTransaction id data = (.ok (), { l with store := { l.store with
          tables := l.store.tables.withHeaderData id data } })) := by
  unfold updateTransaction
  rcases l.replaceData_cases (.transaction id) data fun s => s.updateTransactionData id data with
    herror | ⟨n, s, hn, hkeys, hupdate, hok⟩
  · exact .inl herror
  · rw [Store.updateTransactionData_eq] at hupdate
    split_ifs at hupdate
    obtain ⟨rfl, rfl⟩ := Prod.mk.inj (Except.ok.inj hupdate)
    exact .inr ⟨Tables.header?_isSome_iff_length.mpr hn, hkeys, hok⟩

end Ledger

end DoubleEntry
