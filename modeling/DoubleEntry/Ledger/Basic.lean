import DoubleEntry.Metrics.Basic
import DoubleEntry.Store.Basic

/-!
# The ledger

A ledger is a store with counters, which may be left off. What time it is, and how long an operation
took, is told to an operation and not asked by it, so every operation is a function of the ledger.
-/

namespace DoubleEntry

open Number (Binary64)
open Time (Timestamp)

/-- A store with its counters. -/
structure Ledger where
  store : Store
  metrics : Option Metrics
  deriving DecidableEq

/-- What a clock shows: the time of the day, and the seconds that an operation took. -/
structure Clock where
  now : Timestamp
  elapsed : Binary64

namespace Ledger

/-- A new ledger that counts. -/
def empty : Ledger := ⟨.empty, some .empty⟩

/-- A new ledger that does not count. -/
def uncounted : Ledger := ⟨.empty, none⟩

/-- Changes the counters, if there are any. -/
def count (record : Metrics → Metrics) (l : Ledger) : Ledger :=
  { l with metrics := l.metrics.map record }

/-- Changes the store. -/
def onStore (change : Store → Store) (l : Ledger) : Ledger := { l with store := change l.store }

end Ledger

end DoubleEntry
