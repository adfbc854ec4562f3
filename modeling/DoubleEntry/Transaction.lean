import DoubleEntry.Amount
import DoubleEntry.DataKey
import DoubleEntry.Text.Blank
import DoubleEntry.Time.Timestamp

/-!
# Transactions

A transaction moves amounts between accounts: every line adds a signed amount to one account, and
the lines of a valid transaction add up to zero. Two line lists are the same when one is a
rearrangement of the other.
-/

namespace DoubleEntry

open Time (Timestamp)

/-- One line of a transaction. -/
structure Line where
  account : String
  delta : Amount
  deriving DecidableEq

namespace Line

/-- Lines are ordered by account and then by amount. -/
def le (a b : Line) : Bool :=
  if a.account = b.account then decide (a.delta.toInt ≤ b.delta.toInt)
  else decide (a.account < b.account)

/-- Whether two lists hold the same lines, each equally often: sorted, they are equal. -/
def same (left right : List Line) : Bool :=
  decide (left.length = right.length ∧ left.mergeSort le = right.mergeSort le)

/-- The accounts of lines, each once, in the order in which they first occur. -/
def accounts (lines : List Line) : List String := (lines.map account).eraseDups

end Line

/-- A transaction as it is submitted. The ledger supplies a missing timestamp. -/
structure Transaction where
  id : String
  timestamp : Option Timestamp
  data : Data
  lines : List Line

namespace Transaction

/-- Whether the lines add up to zero, without any limit on partial sums. -/
def isBalanced (t : Transaction) : Bool := Amount.sum (t.lines.map Line.delta) == 0

/-- Finds the first fault of a transaction: a blank id, a blank account, lines that do not add up,
an invalid key. -/
def validate (t : Transaction) : Except InputFault Unit :=
  if Text.isBlankText t.id then .error .transactionIdMissing
  else if t.lines.any fun line => Text.isBlankText line.account then
    .error (.lineWithoutAccount t.id)
  else if !t.isBalanced then .error (.unbalanced t.id)
  else DataKey.check t.data

end Transaction

/-- What became of a submitted transaction that was valid. -/
inductive Outcome where
  /-- It was committed. -/
  | created
  /-- The same lines were committed under its id before. -/
  | duplicate
  /-- Other lines were committed under its id before. -/
  | conflict
  deriving DecidableEq

/-- The name of an outcome. -/
def Outcome.name : Outcome → String
  | created => "created"
  | duplicate => "duplicate"
  | conflict => "conflict"

/-- An account with its balance. -/
structure Account where
  id : String
  balance : Amount
  data : Data

end DoubleEntry
