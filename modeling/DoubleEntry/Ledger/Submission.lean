import DoubleEntry.Ledger.Basic
import DoubleEntry.Store.Commit

/-!
# Submitting a transaction

A valid submission reaches the store in up to three steps: whether its id is known, then either the
lines under that id or the commit unit, and the lines again when another submission took the id in
between. Each step is one action of the store, so submissions that run side by side are interleaved
steps. `Ledger.submit` takes the steps of one submission without interruption.
-/

namespace DoubleEntry

open Time (Timestamp)

/-- How far a valid submission has come. -/
inductive Submission where
  /-- Nothing is known yet. -/
  | arrived
  /-- The id is in the store, and the lines are to be compared. -/
  | known
  /-- The id was not in the store, and the commit unit is to be run. -/
  | fresh
  | finished (answer : Except LedgerFault Outcome)

namespace Submission

/-- What a submission under a known id amounts to, given the lines in the store. -/
def verdict (stored submitted : List Line) : Outcome :=
  if Line.same stored submitted then .duplicate else .conflict

/-- The submission at its end with an outcome, which is counted. -/
def finish (outcome : Outcome) (l : Ledger) : Submission × Ledger :=
  (.finished (.ok outcome), l.count (Metrics.recordOutcome outcome.name))

/-- One step of a submission. -/
def step (clock : Clock) (t : Transaction) (l : Ledger) : Submission → Submission × Ledger
  | arrived =>
    match l.store.transactionExists t.id with
    | .error fault => (finished (.error (.store fault)), l)
    | .ok true => (known, l)
    | .ok false => (fresh, l)
  | known =>
    match l.store.linesOf t.id with
    | .error fault => (finished (.error (.store fault)), l)
    | .ok stored => finish (verdict stored t.lines) l
  | fresh =>
    match l.store.commit t (t.timestamp.getD clock.now) with
    | (.ok .committed, s) =>
      let (phase, l) := finish .created { l with store := s }
      (phase, l.count (Metrics.recordDuration clock.elapsed))
    | (.ok .alreadyExists, s) => (known, { l with store := s }.count Metrics.recordRace)
    | (.error fault, s) =>
      (finished (.error (.commit t.id fault)), { l with store := s }.count Metrics.recordFailure)
  | finished answer => (finished answer, l)

/-- How many steps a submission may still take. -/
def remaining : Submission → Nat
  | arrived => 3
  | fresh => 2
  | known => 1
  | finished _ => 0

/-- Every step brings a submission closer to its end. -/
theorem remaining_step_lt (clock : Clock) (t : Transaction) (l : Ledger) (phase : Submission)
    (h : phase.remaining ≠ 0) : (step clock t l phase).1.remaining < phase.remaining := by
  cases phase with
  | arrived => simp only [step]; split <;> simp [remaining]
  | known => simp only [step]; split <;> simp [remaining, finish]
  | fresh => simp only [step]; split <;> simp [remaining, finish]
  | finished answer => simp [remaining] at h

/-- Takes a submission to its end. -/
def settle (clock : Clock) (t : Transaction) (phase : Submission) (l : Ledger) :
    Except LedgerFault Outcome × Ledger :=
  match phase with
  | finished answer => (answer, l)
  | arrived =>
    let next := step clock t l arrived
    settle clock t next.1 next.2
  | known =>
    let next := step clock t l known
    settle clock t next.1 next.2
  | fresh =>
    let next := step clock t l fresh
    settle clock t next.1 next.2
termination_by phase.remaining
decreasing_by all_goals exact remaining_step_lt _ _ _ _ (by simp [remaining])

end Submission

namespace Ledger

/-- Submits a transaction: it is checked, and then taken through its steps. -/
def submit (clock : Clock) (t : Transaction) (l : Ledger) : Except LedgerFault Outcome × Ledger :=
  match t.validate with
  | .error fault => (.error (.input fault), l.count (Metrics.recordOutcome "rejected"))
  | .ok () => Submission.settle clock t .arrived l

/-- Submits transactions one after another. -/
def submitAll (clock : Clock) (ts : List Transaction) (l : Ledger) :
    List (Except LedgerFault Outcome) × Ledger :=
  match ts with
  | [] => ([], l)
  | t :: rest =>
    let (answer, l) := l.submit clock t
    let (answers, l) := l.submitAll clock rest
    (answer :: answers, l)

end Ledger

end DoubleEntry
