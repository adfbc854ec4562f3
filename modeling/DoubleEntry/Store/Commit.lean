import DoubleEntry.Store.Basic

/-!
# The commit unit

A transaction is committed by a sequence of inserts: its accounts where they are missing, its header
and its lines. The inserts work on a copy of the store that replaces the store only when all of them
succeed, so a unit that fails half way, or finds its header taken, leaves nothing behind.
-/

namespace DoubleEntry

open Time (Timestamp)

/-- The result of a commit unit that did not fail. -/
inductive CommitStatus where
  /-- Header and lines are in the store. -/
  | committed
  /-- A transaction with this id was there before; nothing was written. -/
  | alreadyExists
  deriving DecidableEq

/-- The data text of an account that a transaction brings with it. -/
def AccountRow.emptyData : String := "\x7b\x7d"

namespace Store

/-- Adds an account unless it is there. -/
def ensureAccount (s : Store) (id : String) : Except StoreFault Store := do
  let t ← s.contentsForInsert .accounts
  if (t.account? id).isSome then .ok s
  else s.insertAccountRow ⟨id, AccountRow.emptyData⟩

/-- Adds a line of a transaction. -/
def insertLine (transaction : String) (s : Store) (line : Line) : Except StoreFault Store := do
  let t ← s.contentsForInsert .lines
  .ok { s with tables := { t with lines := t.lines ++ [⟨t.nextLine, transaction, line⟩] } }

/-- The inserts of a commit unit, one after another. -/
def commitInserts (s : Store) (t : Transaction) (at_ : Timestamp) : Except StoreFault Store := do
  let s ← (Line.accounts t.lines).foldlM ensureAccount s
  let s ← s.insertHeader ⟨t.id, at_.render, some t.data.stored⟩
  t.lines.foldlM (insertLine t.id) s

/-- The commit unit: the answer, and the store afterwards. -/
def commit (s : Store) (t : Transaction) (at_ : Timestamp) :
    Except StoreFault CommitStatus × Store :=
  if !s.isOpen then (.error .closed, s)
  else match s.commitInserts t at_ with
    | .ok next => (.ok .committed, next)
    | .error (.keyTaken .transactions _) => (.ok .alreadyExists, s)
    | .error fault => (.error fault, s)

end Store

end DoubleEntry
