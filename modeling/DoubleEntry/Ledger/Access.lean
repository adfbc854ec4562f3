import DoubleEntry.Ledger.Basic
import DoubleEntry.Search.Listing
import DoubleEntry.Search.Namespace

/-!
# Changing data and reading

Data of accounts and transactions is replaced as a whole. Reads leave the ledger as it is, searches
apart, which are counted.
-/

namespace DoubleEntry

open Search (Namespace Results)
open Time (Timestamp)

namespace Ledger

/-- Replaces data by an update of the store that tells how many rows it touched. -/
def replaceData (entity : Entity) (data : Data)
    (update : Store → Except StoreFault (Nat × Store)) (l : Ledger) :
    Except LedgerFault Unit × Ledger :=
  match DataKey.check data with
  | .error fault => (.error (.input fault), l)
  | .ok () =>
    match update l.store with
    | .error fault => (.error (.store fault), l)
    | .ok (0, _) => (.error (.notFound entity), l)
    | .ok (_, s) => (.ok (), { l with store := s })

/-- Replaces the data of an account. -/
def updateAccount (id : String) (data : Data) (l : Ledger) : Except LedgerFault Unit × Ledger :=
  l.replaceData (.account id) data fun s => s.updateAccountData id data

/-- Replaces the data of a transaction. -/
def updateTransaction (id : String) (data : Data) (l : Ledger) :
    Except LedgerFault Unit × Ledger :=
  l.replaceData (.transaction id) data fun s => s.updateTransactionData id data

/-- An account with its balance. -/
def account (id : String) (l : Ledger) : Except LedgerFault Account := do
  match ← l.store.account? id with
  | some account => return account
  | none => throw (.notFound (.account id))

/-- The balance of an account at a time; zero when nothing was booked up to then. -/
def balanceAt (id : String) (on : Timestamp) (l : Ledger) : Except LedgerFault Amount :=
  (l.store.balanceAt id on).mapError .store

/-- Searches a collection. -/
def search (space : Namespace) (text : String) (l : Ledger) :
    Except LedgerFault Results × Ledger :=
  match Search.answer space text l.store with
  | .ok results => (.ok results, l.count (Metrics.recordSearch space.name))
  | .error fault => (.error fault, l.count (Metrics.recordSearchError space.name))

/-- Searches the collection with the given name. -/
def searchIn (name text : String) (l : Ledger) : Except LedgerFault Results × Ledger :=
  match Namespace.ofName name with
  | .ok space => l.search space text
  | .error fault => (.error fault, l)

end Ledger

end DoubleEntry
