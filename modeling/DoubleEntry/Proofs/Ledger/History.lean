import DoubleEntry.Proofs.Ledger.Operations
import DoubleEntry.Proofs.Search.Constraints

/-!
# Histories of a ledger

A history is a sequence of events: operations that are called, tables that stop or begin again to
take inserts, and the store being closed and opened. A run keeps every event with its answer. An
event that creates a transaction adds it to the tables, and every other event makes one of few
edits, so what these preserve holds in every state that a history leads to.
-/

namespace DoubleEntry

open Search (Results)
open Time (Timestamp)

/-- Something that happens to a ledger. -/
inductive Event where
  | submit (clock : Clock) (t : Transaction)
  | createAccount (id : String) (data : Data)
  | updateAccount (id : String) (data : Data)
  | updateTransaction (id : String) (data : Data)
  | account (id : String)
  | balanceAt (id : String) (on : Timestamp)
  | search (collection text : String)
  /-- Inserts into a table fail from now on. -/
  | refuse (table : Table)
  /-- Inserts into a table succeed again. -/
  | allow (table : Table)
  | close
  | reopen

/-- What an event is answered with. -/
inductive Answer where
  | outcome (answer : Except LedgerFault Outcome)
  | done (answer : Except LedgerFault Unit)
  | account (answer : Except LedgerFault Account)
  | balance (answer : Except LedgerFault Amount)
  | results (answer : Except LedgerFault Results)
  | nothing

namespace Ledger

/-- The answer to an event and the ledger after it. -/
def respond (l : Ledger) : Event → Answer × Ledger
  | .submit clock t => (.outcome (l.submit clock t).1, (l.submit clock t).2)
  | .createAccount id data => (.done (l.createAccount id data).1, (l.createAccount id data).2)
  | .updateAccount id data => (.done (l.updateAccount id data).1, (l.updateAccount id data).2)
  | .updateTransaction id data =>
    (.done (l.updateTransaction id data).1, (l.updateTransaction id data).2)
  | .account id => (.account (l.account id), l)
  | .balanceAt id on => (.balance (l.balanceAt id on), l)
  | .search collection text =>
    (.results (l.searchIn collection text).1, (l.searchIn collection text).2)
  | .refuse table => (.nothing, l.onStore (Store.refuse table))
  | .allow table => (.nothing, l.onStore (Store.allow table))
  | .close => (.nothing, l.onStore Store.close)
  | .reopen => (.nothing, l.onStore Store.reopen)

/-- The events of a history with their answers, and the ledger at its end. -/
def run (l : Ledger) : List Event → List (Event × Answer) × Ledger
  | [] => ([], l)
  | e :: rest =>
    let next := l.respond e
    let later := next.2.run rest
    ((e, next.1) :: later.1, later.2)

/-- The first event of a history is answered first. -/
theorem run_cons_fst (l : Ledger) (e : Event) (rest : List Event) :
    (l.run (e :: rest)).1 = (e, (l.respond e).1) :: ((l.respond e).2.run rest).1 := rfl

/-- After its first event a history goes on. -/
theorem run_cons_snd (l : Ledger) (e : Event) (rest : List Event) :
    (l.run (e :: rest)).2 = ((l.respond e).2.run rest).2 := rfl

/-- A history that goes on is answered as before and then from where it had come to. -/
theorem run_append (l : Ledger) (first later : List Event) :
    l.run (first ++ later) =
      ((l.run first).1 ++ ((l.run first).2.run later).1, ((l.run first).2.run later).2) := by
  induction first generalizing l with
  | nil => rfl
  | cons e rest ih =>
    rw [List.cons_append, run, ih (l.respond e).2]
    rfl

/-- What every event preserves holds at the end of a history if it holds at its beginning. -/
theorem run_induction {P : Ledger → Prop} (hstep : ∀ l e, P l → P (l.respond e).2) {l : Ledger}
    (h : P l) (events : List Event) : P (l.run events).2 := by
  induction events generalizing l with
  | nil => exact h
  | cons e rest ih => exact ih (hstep l e h)

end Ledger

/-- A ledger to which a history of a new one leads. -/
def Ledger.Reachable (l : Ledger) : Prop :=
  ∃ metrics events, l = (run ⟨.empty, metrics⟩ events).2

/-- What an event that creates no transaction can do to the tables. -/
inductive Tables.Edit (t : Tables) : Tables → Prop where
  | none : Edit t t
  | account {id : String} {data : Data} (hid : Text.isBlankText id = false)
      (hkeys : ∀ key ∈ data.keys, DataKey.Matches key)
      (habsent : (t.account? id).isNone = true) : Edit t (t.withAccount id data)
  | accountData (id : String) {data : Data} (hkeys : ∀ key ∈ data.keys, DataKey.Matches key) :
      Edit t (t.withAccountData id data)
  | headerData (id : String) {data : Data} (hkeys : ∀ key ∈ data.keys, DataKey.Matches key) :
      Edit t (t.withHeaderData id data)

/-- Replacing the data of an account changes no id. -/
theorem Tables.map_id_withAccountData (t : Tables) (id : String) (data : Data) :
    (t.withAccountData id data).accounts.map AccountRow.id = t.accounts.map AccountRow.id := by
  rw [withAccountData, List.map_map]
  refine List.map_congr_left fun row _ => ?_
  simp only [Function.comp_apply]
  split_ifs <;> rfl

/-- Replacing the data of a transaction changes no id. -/
theorem Tables.map_id_withHeaderData (t : Tables) (id : String) (data : Data) :
    (t.withHeaderData id data).headers.map Header.id = t.headers.map Header.id := by
  rw [withHeaderData, List.map_map]
  refine List.map_congr_left fun header _ => ?_
  simp only [Function.comp_apply]
  split_ifs <;> rfl

/-- An edit gives no transaction a header and takes none away. -/
theorem Tables.Edit.map_headers_id {t after : Tables} (h : t.Edit after) :
    after.headers.map Header.id = t.headers.map Header.id := by
  cases h with
  | none | account | accountData => rfl
  | headerData id hkeys => exact t.map_id_withHeaderData id _

namespace Ledger

/-- A search leaves the store as it is. -/
theorem store_searchIn (collection text : String) (l : Ledger) :
    (l.searchIn collection text).2.store = l.store := by
  unfold searchIn search
  split
  · split <;> rfl
  · rfl

/-- A search that succeeds has found a collection of its name and run on the store. -/
theorem exists_run_of_searchIn {l : Ledger} {collection text : String} {results : Results}
    (h : (l.searchIn collection text).1 = .ok results) :
    ∃ space, Search.Namespace.ofName collection = .ok space ∧
      Search.run space text l.store = .ok results := by
  unfold searchIn at h
  cases hspace : Search.Namespace.ofName collection with
  | error fault =>
    rw [hspace] at h
    exact absurd h (by simp)
  | ok space =>
    rw [hspace] at h
    refine ⟨space, rfl, Search.run_of_answer ?_⟩
    simp only [search] at h
    split at h <;> simp_all

/-- An event creates the transaction that it submits, or it edits the tables. -/
theorem respond_cases (l : Ledger) (e : Event) :
    (∃ clock t, e = .submit clock t ∧ t.Valid ∧ (l.store.tables.header? t.id).isNone = true ∧
      (l.respond e).1 = .outcome (.ok .created) ∧
      (l.respond e).2.store.tables =
        l.store.tables.withTransaction t (t.timestamp.getD clock.now)) ∨
    ((∀ clock t, e = .submit clock t → (l.respond e).1 ≠ .outcome (.ok .created)) ∧
      l.store.tables.Edit (l.respond e).2.store.tables) := by
  cases e with
  | submit clock t =>
    change (∃ clock' t', _ ∧ _ ∧ _ ∧ Answer.outcome (l.submit clock t).1 = _ ∧
      (l.submit clock t).2.store.tables = _) ∨ ((∀ clock' t', _ →
        Answer.outcome (l.submit clock t).1 ≠ _) ∧ Tables.Edit _ (l.submit clock t).2.store.tables)
    rcases submit_cases clock t l with ⟨hnot, h⟩ | ⟨hvalid, habsent, hcreated, h⟩
    · rw [h]
      exact .inr ⟨fun _ _ _ hcreated => hnot (Answer.outcome.inj hcreated), .none⟩
    · rw [h, hcreated]
      exact .inl ⟨clock, t, rfl, hvalid, habsent, rfl, rfl⟩
  | createAccount id data =>
    refine .inr ⟨fun _ _ h => Event.noConfusion h, ?_⟩
    change Tables.Edit _ (l.createAccount id data).2.store.tables
    rcases createAccount_cases id data l with ⟨fault, h⟩ | ⟨hid, hkeys, habsent, h⟩
    · rw [h]
      exact .none
    · rw [h]
      exact .account hid hkeys habsent
  | updateAccount id data =>
    refine .inr ⟨fun _ _ h => Event.noConfusion h, ?_⟩
    change Tables.Edit _ (l.updateAccount id data).2.store.tables
    rcases updateAccount_cases id data l with ⟨fault, h⟩ | ⟨-, hkeys, h⟩
    · rw [h]
      exact .none
    · rw [h]
      exact .accountData id hkeys
  | updateTransaction id data =>
    refine .inr ⟨fun _ _ h => Event.noConfusion h, ?_⟩
    change Tables.Edit _ (l.updateTransaction id data).2.store.tables
    rcases updateTransaction_cases id data l with ⟨fault, h⟩ | ⟨-, hkeys, h⟩
    · rw [h]
      exact .none
    · rw [h]
      exact .headerData id hkeys
  | search collection text =>
    refine .inr ⟨fun _ _ h => Event.noConfusion h, ?_⟩
    change Tables.Edit _ (l.searchIn collection text).2.store.tables
    rw [store_searchIn]
    exact .none
  | account | balanceAt | refuse | allow | close | reopen =>
    exact .inr ⟨fun _ _ h => Event.noConfusion h, .none⟩

/-- What edits and new transactions preserve holds in every state that a history leads to. -/
theorem run_tables_induction {P : Tables → Prop} (hedit : ∀ t t', t.Edit t' → P t → P t')
    (hcreate : ∀ (t : Tables) (txn : Transaction) (at_ : Timestamp), txn.Valid →
      (t.header? txn.id).isNone = true → P t → P (t.withTransaction txn at_))
    {l : Ledger} (h : P l.store.tables) (events : List Event) :
    P (l.run events).2.store.tables := by
  refine run_induction (P := fun l => P l.store.tables) (fun l e hl => ?_) h events
  rcases l.respond_cases e with ⟨clock, t, -, hvalid, habsent, -, htables⟩ | ⟨-, hchange⟩
  · rw [htables]
    exact hcreate _ t _ hvalid habsent hl
  · exact hedit _ _ hchange hl

end Ledger

end DoubleEntry
