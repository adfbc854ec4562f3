import DoubleEntry.Fault

/-!
# What can be searched

Searches run over accounts or over transactions, and a search names which.
-/

namespace DoubleEntry.Search

/-- A searchable collection. -/
inductive Namespace where
  | accounts
  | transactions
  deriving DecidableEq

namespace Namespace

/-- The name of a collection. -/
def name : Namespace → String
  | accounts => "accounts"
  | transactions => "transactions"

/-- The collection with the given name. -/
def ofName (name : String) : Except LedgerFault Namespace :=
  if name = accounts.name then .ok accounts
  else if name = transactions.name then .ok transactions
  else .error (.namespace name)

end Namespace

end DoubleEntry.Search
