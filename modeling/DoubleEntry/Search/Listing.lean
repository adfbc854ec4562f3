import DoubleEntry.Body
import DoubleEntry.Search.Evaluation
import DoubleEntry.Search.Stored
import DoubleEntry.Store.Basic

/-!
# Running a search

The result of a search is the list of rows that meet its conditions, in the order of the collection
and cut to the part that is asked for. Accounts are in order of their ids, transactions in order of
their stored timestamps and then their ids, both compared by code points. Only the rows of the
result are turned into accounts and transactions, so a row that cannot be read spoils only those
searches that would return it or have to look into its data. The lines of a transaction come with
its row in two JSON arrays, one of accounts and one of amounts, which are paired again.
-/

namespace DoubleEntry.Search

open Time (Timestamp)

/-- A transaction as a search returns it. -/
structure PostedTransaction where
  id : String
  timestamp : Timestamp
  data : Data
  lines : List Line

/-- The rows that a search returns. -/
inductive Results where
  | accounts (rows : List Account)
  | transactions (rows : List PostedTransaction)

/-- How many rows there are. -/
def Results.length : Results → Nat
  | accounts rows => rows.length
  | transactions rows => rows.length

/-- The ids of the rows. -/
def Results.ids : Results → List String
  | accounts rows => rows.map Account.id
  | transactions rows => rows.map PostedTransaction.id

/-- The columns of a collection that its table has itself. -/
def Namespace.ownColumns : Namespace → List Column
  | accounts => [.id]
  | transactions => [.id, .timestamp]

namespace Plan

/-- Cuts rows to the part that is asked for. -/
def page {α : Type} (p : Plan) (rows : List α) : List α :=
  let rest := rows.drop (p.offset.getD 0)
  match p.limit with
  | some n => rest.take n
  | none => rest

/-- The conditions of a plan, taken apart. -/
def conjuncts (p : Plan) : List Condition := Condition.conjunctsOf p.conditions

/-- The conditions of a plan in the order in which a row is held against them. Those come first that
look at columns only, which for accounts are those on the id, and those last that scan arrays. What
is left is taken from its end when accounts are searched, since it goes into the view of their
balances piece by piece. -/
def inOrder (space : Namespace) (p : Plan) : List Condition :=
  let (first, rest) := p.conjuncts.partition fun c => c.readsOnly space.ownColumns
  let (last, middle) := rest.partition Condition.opensScan
  match space with
  | .accounts => first ++ (middle.reverse ++ last)
  | .transactions => first ++ (middle ++ last)

/-- Whether a row with the given columns and data text is in the result. -/
def admits (space : Namespace) (p : Plan) (column : Column → Value) (data : Option String) :
    Except StoreFault Bool :=
  match storedValue? data with
  | some value => .ok (Condition.allMet ⟨column, value⟩ p.conditions)
  | none =>
    match Condition.allOfColumns? column (p.inOrder space) with
    | some verdict => .ok verdict
    | none => .error .dataNotJson

/-- Whether the plan asks for no rows at all. -/
def isEmpty (p : Plan) : Bool := p.limit = some 0

end Plan

/-! ## Accounts -/

/-- The columns of an account. Before its balance is known that column is missing. -/
def accountColumn (row : AccountRow) (balance : Option Amount) : Column → Value
  | .id => .text row.id
  | .balance =>
    match balance with
    | some b => .integer b.toInt
    | none => .null
  | .timestamp => .null

/-- Whether those conditions that need no more than the id admit an account. The balance of an
account that they do not admit is not computed. -/
def Plan.admitsId (p : Plan) (row : AccountRow) : Bool :=
  (p.conjuncts.filter fun c => c.readsOnly [.id]).all fun c =>
    (c.truthOfColumns? (accountColumn row none)).getD true

/-- Accounts in order of their ids. -/
def accountsInOrder (t : Tables) : List AccountRow :=
  t.accounts.mergeSort fun a b => decide (a.id ≤ b.id)

/-- An account row with its balance. -/
def withBalance (t : Tables) (row : AccountRow) : Except StoreFault (AccountRow × Amount) :=
  match t.balance? row.id with
  | some balance => .ok (row, balance)
  | none => .error .totalOverflow

/-- The account rows of the result. -/
def Plan.accountRows (p : Plan) (t : Tables) : Except StoreFault (List (AccountRow × Amount)) :=
  if p.isEmpty then .ok []
  else do
    let rows ← ((accountsInOrder t).filter p.admitsId).mapM (withBalance t)
    let admitted ← rows.filterM fun (row, balance) =>
      p.admits .accounts (accountColumn row (some balance)) (some row.data)
    return p.page admitted

/-- An account row as an account. -/
def readAccount (row : AccountRow × Amount) : Except LedgerFault Account := do
  return ⟨row.1.id, row.2, ← Data.ofStored (some row.1.data)⟩

/-! ## Transactions -/

/-- The columns of a transaction. -/
def headerColumn (row : Header) : Column → Value
  | .id => .text row.id
  | .timestamp => .text row.timestamp
  | .balance => .null

/-- Whether a header comes before another or is the same. -/
def comesFirst (a b : Header) : Bool :=
  if a.timestamp = b.timestamp then decide (a.id ≤ b.id) else decide (a.timestamp ≤ b.timestamp)

/-- Transactions in order of their timestamps and ids. -/
def headersInOrder (t : Tables) : List Header := t.headers.mergeSort comesFirst

/-- The headers of the result. -/
def Plan.headers (p : Plan) (t : Tables) : Except StoreFault (List Header) :=
  if p.isEmpty then .ok []
  else do
    let admitted ← (headersInOrder t).filterM fun row =>
      p.admits .transactions (headerColumn row) row.data
    return p.page admitted

/-- A header with the accounts and the amounts of its lines, each gathered into the text of one JSON
array. -/
structure TransactionRow where
  header : Header
  accounts : String
  deltas : String

/-- The row of a header. Both arrays are in the order in which the lines were added. -/
def transactionRow (t : Tables) (header : Header) : TransactionRow :=
  let lines := t.linesOf header.id
  ⟨header, (Json.array (lines.map fun line => .text line.account)).render,
    (Json.array (lines.map fun line => .ofAmount line.delta)).render⟩

/-- The items of a gathered array. -/
def gathered {α : Type} (item? : Json → Option α) (text : String) : Except LedgerFault (List α) :=
  match Json.parse? text with
  | some (.array items) =>
    match items.mapM item? with
    | some values => .ok values
    | none => .error (.serialization "an item has the wrong type")
  | _ => .error (.serialization "not an array")

/-- A row as a transaction. Each line has the account and the amount at one place of the arrays. -/
def readTransaction (row : TransactionRow) : Except LedgerFault PostedTransaction := do
  let accounts ← gathered Json.text? row.accounts
  let deltas ← gathered Json.amount? row.deltas
  if accounts.length = deltas.length then
    match Timestamp.parse? row.header.timestamp with
    | none => throw (.row (.unreadableTimestamp row.header.id row.header.timestamp))
    | some timestamp =>
      return ⟨row.header.id, timestamp, ← Data.ofStored row.header.data,
        List.zipWith Line.mk accounts deltas⟩
  else throw (.row (.unevenLines row.header.id accounts.length deltas.length))

/-! ## Both -/

/-- The result of a plan. -/
def Plan.run (space : Namespace) (p : Plan) (s : Store) : Except LedgerFault Results := do
  let t ← s.contents.mapError .store
  match space with
  | .accounts =>
    let rows ← (p.accountRows t).mapError .store
    return .accounts (← rows.mapM readAccount)
  | .transactions =>
    let rows ← (p.headers t).mapError .store
    return .transactions (← rows.mapM fun header => readTransaction (transactionRow t header))

/-- The result of a query document, whatever patterns it has. A fault of the document comes before any
of the store. -/
def run (space : Namespace) (text : String) (s : Store) : Except LedgerFault Results := do
  let query ← (Query.ofText text).mapError .query
  let plan ← (query.plan space).mapError .query
  plan.run space s

/-! ## Patterns that are too long -/

/-- An account as the conditions see it. -/
def accountRow (t : Tables) (row : AccountRow) : Row :=
  ⟨accountColumn row (t.balance? row.id), (storedValue? (some row.data)).getD .null⟩

/-- A transaction as the conditions see it. -/
def headerRow (header : Header) : Row :=
  ⟨headerColumn header, (storedValue? header.data).getD .null⟩

/-- The rows of a collection with their ids, in order. -/
def Namespace.rows (t : Tables) : Namespace → List (String × Row)
  | accounts => (accountsInOrder t).map fun row => (row.id, accountRow t row)
  | transactions => (headersInOrder t).map fun header => (header.id, headerRow header)

/-- Whether some row comes to a pattern that is too long. -/
def Plan.triesLong (space : Namespace) (p : Plan) (t : Tables) : Bool :=
  !p.isEmpty && (space.rows t).any fun row => Condition.allTryLong row.2 [] (p.inOrder space)

/-- The answer to a query document: its result, unless a row comes to a pattern that is too long. -/
def answer (space : Namespace) (text : String) (s : Store) : Except LedgerFault Results := do
  let query ← (Query.ofText text).mapError .query
  let plan ← (query.plan space).mapError .query
  let t ← s.contents.mapError .store
  if plan.triesLong space t then throw (.store .patternTooLong)
  plan.run space s

end DoubleEntry.Search
