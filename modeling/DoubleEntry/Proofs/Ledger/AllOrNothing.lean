import DoubleEntry.Proofs.Ledger.Operations

/-!
# Writes happen as a whole or not at all

A write that does not succeed leaves the store it started from, whichever insert of it failed and
however many had succeeded before. A transaction that is created adds its rows behind the old ones
and changes none of these. Writes of one row succeed under conditions that are all checked before the
row is touched, and make one change then.
-/

namespace DoubleEntry

open Time (Timestamp)

/-- What the commit of a transaction adds to tables. -/
structure Tables.IsCommit (before : Tables) (t : Transaction) (at_ : Timestamp) (after : Tables) :
    Prop where
  /-- Each account that a line names and that was not there is added once, with empty data. -/
  accounts : ∃ names : List String, names.Nodup ∧
    (∀ name, name ∈ names ↔
      (∃ line ∈ t.lines, line.account = name) ∧ name ∉ before.accounts.map AccountRow.id) ∧
    after.accounts = before.accounts ++ names.map fun name => ⟨name, AccountRow.emptyData⟩
  /-- One header is added. -/
  headers : after.headers = before.headers ++ [⟨t.id, at_.render, some t.data.stored⟩]
  /-- The lines are added in the order in which they were submitted. -/
  lines : ∃ rows : List LineRow, rows.map LineRow.line = t.lines ∧
    (∀ row ∈ rows, row.transaction = t.id) ∧ after.lines = before.lines ++ rows

/-- The tables with a transaction are those before with what its commit adds. -/
theorem Tables.isCommit_withTransaction (before : Tables) (t : Transaction) (at_ : Timestamp) :
    before.IsCommit t at_ (before.withTransaction t at_) where
  accounts := by
    refine ⟨before.missing (Line.accounts t.lines), (Line.nodup_accounts t.lines).filter _, ?_, rfl⟩
    intro name
    rw [missing, List.mem_filter, Line.mem_accounts, ← account?_isSome_iff]
    simp
  headers := rfl
  lines := ⟨numbered t.id before.nextLine t.lines, map_line_numbered _ _ _,
    fun _ hrow => (mem_numbered hrow).1, rfl⟩

/-! ## Accounts after a write -/

namespace Tables

/-- Rows behind those of a table are found under the ids that have none in it. -/
theorem account?_append (t : Tables) (rows : List AccountRow) (id : String) :
    ({ t with accounts := t.accounts ++ rows } : Tables).account? id =
      (t.account? id).or (rows.find? fun r => r.id = id) := List.find?_append

/-- A new account is found under its id unless another one was. -/
theorem account?_withAccount (t : Tables) (id : String) (data : Data) (other : String) :
    (t.withAccount id data).account? other =
      (t.account? other).or (if id = other then some ⟨id, data.stored⟩ else none) := by
  refine (t.account?_append [⟨id, data.stored⟩] other).trans ?_
  rw [List.find?_singleton]
  simp only [decide_eq_true_eq]

/-- When the data of an account are replaced, the accounts are found as before, that one with its new
data. -/
theorem account?_withAccountData (t : Tables) (id : String) (data : Data) (other : String) :
    (t.withAccountData id data).account? other = (t.account? other).map fun row =>
      if row.id = id then { row with data := data.stored } else row := by
  rw [account?, withAccountData, List.find?_map]
  congr 2
  funext row
  rw [Function.comp_apply]
  split_ifs <;> rfl

/-- An id is found among new rows for ids when it is one of them. -/
theorem find?_map_emptyData (names : List String) (id : String) :
    (names.map fun name => AccountRow.mk name AccountRow.emptyData).find? (fun r => r.id = id) =
      if id ∈ names then some ⟨id, AccountRow.emptyData⟩ else none := by
  induction names with
  | nil => rfl
  | cons name rest ih =>
    by_cases hname : name = id
    · subst hname
      rw [List.map_cons, List.find?_cons_of_pos (by simp), if_pos List.mem_cons_self]
    · rw [List.map_cons, List.find?_cons_of_neg (by simpa using hname), ih]
      simp only [List.mem_cons, Ne.symm hname, false_or]

namespace IsCommit

variable {before after : Tables} {t : Transaction} {at_ : Timestamp}

/-- The accounts of a transaction that is committed are found with empty data unless they were
there. -/
theorem account?_eq (h : before.IsCommit t at_ after) (id : String) :
    after.account? id = (before.account? id).or
      (if id ∈ Line.accounts t.lines then some ⟨id, AccountRow.emptyData⟩ else none) := by
  obtain ⟨names, -, hnames, haccounts⟩ := h.accounts
  have hfind : after.account? id = (before.account? id).or
      (if id ∈ names then some ⟨id, AccountRow.emptyData⟩ else none) := by
    rw [← find?_map_emptyData, ← account?_append, ← haccounts]
    rfl
  rw [hfind]
  cases hrow : before.account? id with
  | some row => rfl
  | none =>
    have hnew : id ∉ before.accounts.map AccountRow.id := by
      rw [← account?_isSome_iff, hrow]
      exact Bool.false_ne_true
    simp only [hnames, Line.mem_accounts, hnew, not_false_iff, and_true]

/-- The amounts of a transaction that is committed are booked behind those that were booked. -/
theorem deltasOf_eq (h : before.IsCommit t at_ after) (id : String) :
    after.deltasOf id = before.deltasOf id ++
      (t.lines.filter fun line => line.account = id).map Line.delta := by
  obtain ⟨rows, hlines, -, hafter⟩ := h.lines
  rw [deltasOf, hafter, List.filter_append, List.map_append, ← hlines, List.filter_map, List.map_map]
  rfl

end IsCommit

/-- The accounts of a new transaction are found with empty data unless they were there. -/
theorem account?_withTransaction (before : Tables) (t : Transaction) (at_ : Timestamp)
    (id : String) : (before.withTransaction t at_).account? id =
      (before.account? id).or
        (if id ∈ Line.accounts t.lines then some ⟨id, AccountRow.emptyData⟩ else none) :=
  (before.isCommit_withTransaction t at_).account?_eq id

end Tables

/-! ## Writes of the store -/

namespace Store

/-- A commit unit that does not commit leaves the store as it is; one that does adds the
transaction. -/
theorem commit_all_or_nothing (s : Store) (t : Transaction) (at_ : Timestamp) :
    ((s.commit t at_).1 ≠ .ok .committed → (s.commit t at_).2 = s) ∧
      ((s.commit t at_).1 = .ok .committed →
        s.tables.IsCommit t at_ (s.commit t at_).2.tables) := by
  rcases s.commit_cases t at_ with ⟨fault, h⟩ | ⟨-, -, h⟩ | ⟨-, -, -, h⟩
  · rw [h]
    exact ⟨fun _ => rfl, fun hok => absurd hok (by simp)⟩
  · rw [h]
    exact ⟨fun _ => rfl, fun hok => absurd hok (by simp)⟩
  · rw [h]
    exact ⟨fun hnot => absurd rfl hnot, fun _ => s.tables.isCommit_withTransaction t at_⟩

variable {s next : Store} {id : String} {data : Data} {touched : Nat}

/-- The data of an account are replaced in an open store, and wherever the row has the id. -/
theorem updateAccountData_eq_ok_iff : s.updateAccountData id data = .ok (touched, next) ↔
    s.isOpen = true ∧ touched = (s.tables.accounts.filter fun r => r.id = id).length ∧
      next = { s with tables := s.tables.withAccountData id data } := by
  rw [updateAccountData_eq]
  by_cases hopen : s.isOpen = true
  · simp [hopen, eq_comm]
  · simp [hopen]

/-- The data of a transaction are replaced in an open store, and wherever the row has the id. -/
theorem updateTransactionData_eq_ok_iff : s.updateTransactionData id data = .ok (touched, next) ↔
    s.isOpen = true ∧ touched = (s.tables.headers.filter fun r => r.id = id).length ∧
      next = { s with tables := s.tables.withHeaderData id data } := by
  rw [updateTransactionData_eq]
  by_cases hopen : s.isOpen = true
  · simp [hopen, eq_comm]
  · simp [hopen]

/-- A replacement of account data that touches no row leaves the store as it is. -/
theorem eq_of_updateAccountData_zero (h : s.updateAccountData id data = .ok (0, next)) :
    next = s := by
  obtain ⟨-, hzero, rfl⟩ := updateAccountData_eq_ok_iff.mp h
  rw [Tables.withAccountData_of_length_eq_zero data hzero.symm]

/-- A replacement of transaction data that touches no row leaves the store as it is. -/
theorem eq_of_updateTransactionData_zero (h : s.updateTransactionData id data = .ok (0, next)) :
    next = s := by
  obtain ⟨-, hzero, rfl⟩ := updateTransactionData_eq_ok_iff.mp h
  rw [Tables.withHeaderData_of_length_eq_zero data hzero.symm]

/-- The step of a creation that inserts the account leaves the store as it is or adds the account. -/
theorem step_absent_all_or_nothing (s : Store) (id : String) (data : Data) :
    ((Creation.step id data s .absent).1 ≠ .finished (.ok ()) →
        (Creation.step id data s .absent).2 = s) ∧
      ((Creation.step id data s .absent).1 = .finished (.ok ()) →
        (Creation.step id data s .absent).2.tables = s.tables.withAccount id data) := by
  unfold Creation.step
  cases hinsert : s.insertAccount id data with
  | error fault => exact ⟨fun _ => rfl, fun hok => absurd hok (by simp)⟩
  | ok next =>
    obtain ⟨-, -, -, rfl⟩ := insertAccount_eq_ok_iff.mp hinsert
    exact ⟨fun hnot => absurd rfl hnot, fun _ => rfl⟩

end Store

namespace Ledger

/-- A submission that leaves the store as it is or adds its transaction does so as a whole. -/
private theorem all_or_nothing_of_cases {l after : Ledger} {t : Transaction} {at_ : Timestamp}
    {answer : Except LedgerFault Outcome}
    (h : (answer ≠ .ok .created ∧ after.store = l.store) ∨ (answer = .ok .created ∧
      after.store = { l.store with tables := l.store.tables.withTransaction t at_ })) :
    (answer ≠ .ok .created → after.store = l.store) ∧
      (answer = .ok .created → l.store.tables.IsCommit t at_ after.store.tables) := by
  rcases h with ⟨hnot, hstore⟩ | ⟨hcreated, hstore⟩
  · exact ⟨fun _ => hstore, fun hcreated => absurd hcreated hnot⟩
  · rw [hstore]
    exact ⟨fun hnot => absurd hcreated hnot, fun _ => Tables.isCommit_withTransaction _ _ _⟩

/-- A submission that creates nothing leaves the store as it is; one that creates its transaction
adds what its commit adds. -/
theorem submit_all_or_nothing (l : Ledger) (clock : Clock) (t : Transaction) :
    ((l.submit clock t).1 ≠ .ok .created → (l.submit clock t).2.store = l.store) ∧
      ((l.submit clock t).1 = .ok .created →
        l.store.tables.IsCommit t (t.timestamp.getD clock.now)
          (l.submit clock t).2.store.tables) :=
  all_or_nothing_of_cases ((submit_cases clock t l).imp_right fun h => h.2.2)

/-- The same holds when the id of a submission is taken after its check. -/
theorem settle_fresh_all_or_nothing (l : Ledger) (clock : Clock) (t : Transaction) :
    ((Submission.settle clock t .fresh l).1 ≠ .ok .created →
        (Submission.settle clock t .fresh l).2.store = l.store) ∧
      ((Submission.settle clock t .fresh l).1 = .ok .created →
        l.store.tables.IsCommit t (t.timestamp.getD clock.now)
          (Submission.settle clock t .fresh l).2.store.tables) :=
  all_or_nothing_of_cases ((Submission.settle_fresh_cases clock t l).imp_right fun h => h.2)

/-- A change that succeeds unless it leaves the ledger as it is leaves it so whenever it fails. -/
private theorem snd_eq_of_error {l : Ledger} {result : Except LedgerFault Unit × Ledger}
    (h : (∃ fault, result = (.error fault, l)) ∨ result.1 = .ok ()) {fault : LedgerFault}
    (herror : result.1 = .error fault) : result.2 = l := by
  rcases h with ⟨other, hresult⟩ | hok
  · rw [hresult]
  · rw [hok] at herror
    exact absurd herror (by simp)

/-- An account that cannot be created leaves the ledger as it is. -/
theorem createAccount_of_error {id : String} {data : Data} {l : Ledger} {fault : LedgerFault}
    (h : (l.createAccount id data).1 = .error fault) : (l.createAccount id data).2 = l :=
  snd_eq_of_error ((createAccount_cases id data l).imp_right fun hok => by rw [hok.2.2.2]) h

/-- Account data that cannot be replaced leave the ledger as it is. -/
theorem updateAccount_of_error {id : String} {data : Data} {l : Ledger} {fault : LedgerFault}
    (h : (l.updateAccount id data).1 = .error fault) : (l.updateAccount id data).2 = l :=
  snd_eq_of_error ((updateAccount_cases id data l).imp_right fun hok => by rw [hok.2.2]) h

/-- Transaction data that cannot be replaced leave the ledger as it is. -/
theorem updateTransaction_of_error {id : String} {data : Data} {l : Ledger} {fault : LedgerFault}
    (h : (l.updateTransaction id data).1 = .error fault) :
    (l.updateTransaction id data).2 = l :=
  snd_eq_of_error ((updateTransaction_cases id data l).imp_right fun hok => by rw [hok.2.2]) h

/-- Every write leaves all tables as they are unless it succeeds, whatever the store holds, refuses
and whether it is open. A commit that succeeds adds its transaction and nothing else. A write of one
row succeeds exactly when the store is open, and for an insert takes accounts and has none under the
id; it makes its one change then, and none when it touches no row. -/
theorem writes_all_or_nothing (l : Ledger) :
    (∀ t at_,
      ((l.store.commit t at_).1 ≠ .ok .committed → (l.store.commit t at_).2 = l.store) ∧
        ((l.store.commit t at_).1 = .ok .committed →
          l.store.tables.IsCommit t at_ (l.store.commit t at_).2.tables)) ∧
    (∀ clock t,
      ((l.submit clock t).1 ≠ .ok .created → (l.submit clock t).2.store = l.store) ∧
        ((l.submit clock t).1 = .ok .created →
          l.store.tables.IsCommit t (t.timestamp.getD clock.now)
            (l.submit clock t).2.store.tables)) ∧
    (∀ clock t,
      ((Submission.settle clock t .fresh l).1 ≠ .ok .created →
          (Submission.settle clock t .fresh l).2.store = l.store) ∧
        ((Submission.settle clock t .fresh l).1 = .ok .created →
          l.store.tables.IsCommit t (t.timestamp.getD clock.now)
            (Submission.settle clock t .fresh l).2.store.tables)) ∧
    (∀ id data fault,
      ((l.createAccount id data).1 = .error fault → (l.createAccount id data).2 = l) ∧
      ((l.updateAccount id data).1 = .error fault → (l.updateAccount id data).2 = l) ∧
      ((l.updateTransaction id data).1 = .error fault → (l.updateTransaction id data).2 = l)) ∧
    (∀ id data,
      ((Creation.step id data l.store .absent).1 ≠ .finished (.ok ()) →
          (Creation.step id data l.store .absent).2 = l.store) ∧
        ((Creation.step id data l.store .absent).1 = .finished (.ok ()) →
          (Creation.step id data l.store .absent).2.tables = l.store.tables.withAccount id data)) ∧
    (∀ id data next, l.store.insertAccount id data = .ok next ↔
      l.store.isOpen = true ∧ .accounts ∉ l.store.refused ∧
        (l.store.tables.account? id).isNone = true ∧
        next = { l.store with tables := l.store.tables.withAccount id data }) ∧
    (∀ id data touched next,
      (l.store.updateAccountData id data = .ok (touched, next) ↔
        l.store.isOpen = true ∧
          touched = (l.store.tables.accounts.filter fun r => r.id = id).length ∧
          next = { l.store with tables := l.store.tables.withAccountData id data }) ∧
      (l.store.updateTransactionData id data = .ok (touched, next) ↔
        l.store.isOpen = true ∧
          touched = (l.store.tables.headers.filter fun r => r.id = id).length ∧
          next = { l.store with tables := l.store.tables.withHeaderData id data })) ∧
    (∀ id data next,
      (l.store.updateAccountData id data = .ok (0, next) → next = l.store) ∧
      (l.store.updateTransactionData id data = .ok (0, next) → next = l.store)) :=
  ⟨l.store.commit_all_or_nothing, l.submit_all_or_nothing, l.settle_fresh_all_or_nothing,
    fun _ _ _ => ⟨createAccount_of_error, updateAccount_of_error, updateTransaction_of_error⟩,
    l.store.step_absent_all_or_nothing, fun _ _ _ => Store.insertAccount_eq_ok_iff,
    fun _ _ _ _ => ⟨Store.updateAccountData_eq_ok_iff, Store.updateTransactionData_eq_ok_iff⟩,
    fun _ _ _ => ⟨Store.eq_of_updateAccountData_zero, Store.eq_of_updateTransactionData_zero⟩⟩

end Ledger

end DoubleEntry
