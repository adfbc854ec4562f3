import DoubleEntry.Json.Reader
import DoubleEntry.Json.Writer
import DoubleEntry.Time.Text
import DoubleEntry.Transaction

/-!
# The store

Three tables: accounts, transaction headers, and lines in the order in which they were added. Data
maps and timestamps are kept as text. A store may be closed, and inserts into a table may be
refused for a time; both are part of its state, so a run of a store is a plain list of states.
-/

namespace DoubleEntry

/-- A row of the accounts table. -/
structure AccountRow where
  id : String
  data : String
  deriving DecidableEq

/-- A row of the transactions table. Older rows may have no data. -/
structure Header where
  id : String
  timestamp : String
  data : Option String
  deriving DecidableEq

/-- A row of the lines table. -/
structure LineRow where
  id : Nat
  transaction : String
  line : Line
  deriving DecidableEq

/-- The contents of the store. -/
structure Tables where
  accounts : List AccountRow
  headers : List Header
  lines : List LineRow
  deriving DecidableEq

namespace Tables

/-- Tables without rows. -/
def empty : Tables := ⟨[], [], []⟩

/-- The row of an account. -/
def account? (t : Tables) (id : String) : Option AccountRow := t.accounts.find? fun r => r.id = id

/-- The header of a transaction. -/
def header? (t : Tables) (id : String) : Option Header := t.headers.find? fun r => r.id = id

/-- The lines of a transaction, in the order in which they were added. -/
def linesOf (t : Tables) (transaction : String) : List Line :=
  (t.lines.filter fun r => r.transaction = transaction).map LineRow.line

/-- The amounts booked on an account, in the order in which they were added. -/
def deltasOf (t : Tables) (account : String) : List Amount :=
  (t.lines.filter fun r => r.line.account = account).map fun r => r.line.delta

/-- The balance of an account: the running total of its amounts. -/
def balance? (t : Tables) (account : String) : Option Amount := Amount.total? (t.deltasOf account)

/-- Whether the transaction of a line has a timestamp text up to `limit`. -/
def isUpTo (t : Tables) (limit : String) (row : LineRow) : Bool :=
  match t.header? row.transaction with
  | some header => decide (header.timestamp ≤ limit)
  | none => false

/-- The amounts booked on an account by transactions with a timestamp text up to `limit`. -/
def deltasUpTo (t : Tables) (account limit : String) : List Amount :=
  (t.lines.filter fun r => r.line.account = account && t.isUpTo limit r).map fun r => r.line.delta

/-- The id of the next line: one more than the last. -/
def nextLine (t : Tables) : Nat := t.lines.foldl (fun n r => max n r.id) 0 + 1

end Tables

/-- The text in which a data map is stored. -/
def Data.stored (data : Data) : String := (Json.object data).render

/-- Reads a stored data map; nothing and `null` stand for an empty one. -/
def Data.ofStored (text : Option String) : Except LedgerFault Data :=
  match text with
  | none => .ok []
  | some s =>
    match Json.parse? s with
    | some .null => .ok []
    | some (.object fields) => .ok fields
    | _ => .error (.serialization "not a data map")

/-- A store with its tables. -/
structure Store where
  tables : Tables
  /-- The tables into which nothing can be inserted at the moment. -/
  refused : List Table
  isOpen : Bool
  deriving DecidableEq

namespace Store

/-- A new store. -/
def empty : Store := ⟨.empty, [], true⟩

/-- The store closed. -/
def close (s : Store) : Store := { s with isOpen := false }

/-- The store open again. -/
def reopen (s : Store) : Store := { s with isOpen := true }

/-- Refuses all further inserts into a table. -/
def refuse (table : Table) (s : Store) : Store := { s with refused := table :: s.refused }

/-- Allows inserts into a table again. -/
def allow (table : Table) (s : Store) : Store :=
  { s with refused := s.refused.filter fun t => t ≠ table }

/-- The tables of an open store. -/
def contents (s : Store) : Except StoreFault Tables :=
  if s.isOpen then .ok s.tables else .error .closed

/-- The tables of an open store into one of which a row is to be inserted. -/
def contentsForInsert (s : Store) (table : Table) : Except StoreFault Tables := do
  let t ← s.contents
  if table ∈ s.refused then .error (.insertRefused table) else .ok t

/-! ## Reading -/

/-- Whether an account exists. -/
def accountExists (s : Store) (id : String) : Except StoreFault Bool := do
  let t ← s.contents
  return (t.account? id).isSome

/-- Whether a transaction exists. -/
def transactionExists (s : Store) (id : String) : Except StoreFault Bool := do
  let t ← s.contents
  return (t.header? id).isSome

/-- The lines of a transaction. -/
def linesOf (s : Store) (transaction : String) : Except StoreFault (List Line) := do
  let t ← s.contents
  return t.linesOf transaction

/-- An account with its balance, if it exists. -/
def account? (s : Store) (id : String) : Except LedgerFault (Option Account) := do
  let t ← s.contents.mapError .store
  match t.account? id with
  | none => return none
  | some row =>
    match t.balance? id with
    | none => throw (.store .totalOverflow)
    | some balance => return some ⟨row.id, balance, ← Data.ofStored (some row.data)⟩

/-- The balance of an account from all transactions with a timestamp text up to that of `on`. -/
def balanceAt (s : Store) (account : String) (on : Time.Timestamp) : Except StoreFault Amount := do
  let t ← s.contents
  match Amount.total? (t.deltasUpTo account on.render) with
  | some total => return total
  | none => throw .totalOverflow

/-! ## Writing -/

/-- Adds an account row. -/
def insertAccountRow (s : Store) (row : AccountRow) : Except StoreFault Store := do
  let t ← s.contentsForInsert .accounts
  if (t.account? row.id).isSome then .error (.keyTaken .accounts row.id)
  else .ok { s with tables := { t with accounts := t.accounts ++ [row] } }

/-- Adds a header row. -/
def insertHeader (s : Store) (row : Header) : Except StoreFault Store := do
  let t ← s.contentsForInsert .transactions
  if (t.header? row.id).isSome then .error (.keyTaken .transactions row.id)
  else .ok { s with tables := { t with headers := t.headers ++ [row] } }

/-- Adds an account with a data map. -/
def insertAccount (s : Store) (id : String) (data : Data) : Except StoreFault Store :=
  s.insertAccountRow ⟨id, data.stored⟩

/-- Replaces the data of an account; gives the number of rows touched. -/
def updateAccountData (s : Store) (id : String) (data : Data) :
    Except StoreFault (Nat × Store) := do
  let t ← s.contents
  let touched := (t.accounts.filter fun r => r.id = id).length
  let accounts := t.accounts.map fun r => if r.id = id then { r with data := data.stored } else r
  return (touched, { s with tables := { t with accounts } })

/-- Replaces the data of a transaction; gives the number of rows touched. -/
def updateTransactionData (s : Store) (id : String) (data : Data) :
    Except StoreFault (Nat × Store) := do
  let t ← s.contents
  let touched := (t.headers.filter fun r => r.id = id).length
  let headers := t.headers.map fun r =>
    if r.id = id then { r with data := some data.stored } else r
  return (touched, { s with tables := { t with headers } })

end Store

end DoubleEntry
