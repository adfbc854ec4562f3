import DoubleEntry.Number.Binary64

/-!
# Counters of a ledger

What a ledger counts while it serves requests: submissions by outcome, failed and contested commits,
how long commits took, and searches by namespace. A tally keeps one counter for each label that was
ever recorded, in increasing order of the labels.
-/

namespace DoubleEntry

open Number (Binary64)

/-- Counters by label, in increasing order of the labels. -/
abbrev Tally := List (String × Nat)

namespace Tally

/-- Counts one more occurrence of a label. -/
def record (label : String) : Tally → Tally
  | [] => [(label, 1)]
  | (l, n) :: rest =>
    if label = l then (l, n + 1) :: rest
    else if label < l then (label, 1) :: (l, n) :: rest
    else (l, n) :: record label rest

/-- How often a label was recorded. -/
def count (label : String) : Tally → Nat
  | [] => 0
  | (l, n) :: rest => if label = l then n else count label rest

end Tally

/-- Observed durations: how many there were up to each bound and in all, and their sum. -/
structure Histogram where
  upTo : List (Binary64 × Nat)
  total : Nat
  sum : Binary64
  deriving DecidableEq

namespace Histogram

/-- A histogram without observations. -/
def ofBounds (bounds : List Binary64) : Histogram := ⟨bounds.map (·, 0), 0, Binary64.zero false⟩

/-- Counts one more observation: at every bound that it does not exceed, and in all. -/
def observe (x : Binary64) (h : Histogram) : Histogram :=
  { upTo := h.upTo.map fun (bound, n) => (bound, if x.cmp bound = .gt then n else n + 1)
    total := h.total + 1
    sum := h.sum.add x }

end Histogram

/-- The counters of a ledger. -/
structure Metrics where
  /-- Submissions by outcome. -/
  outcomes : Tally
  /-- Commit units rolled back. -/
  failures : Nat
  /-- Commits that found their header taken between the existence check and the insert. -/
  races : Nat
  /-- Seconds that successful commits took. -/
  durations : Histogram
  /-- Searches executed, by namespace. -/
  searches : Tally
  /-- Searches rejected or failed, by namespace. -/
  searchErrors : Tally
  deriving DecidableEq

namespace Metrics

/-- The bounds of the duration buckets, in seconds. -/
def durationBounds : List Binary64 :=
  [1, 5, 10, 25, 50, 100, 250, 500, 1000].map fun ms => Binary64.ofRatio false ms 1000

/-- Counters at zero. -/
def empty : Metrics := ⟨[], 0, 0, .ofBounds durationBounds, [], []⟩

/-- Counts a submission with the given outcome. -/
def recordOutcome (label : String) (m : Metrics) : Metrics :=
  { m with outcomes := m.outcomes.record label }

/-- Counts a commit unit that was rolled back. -/
def recordFailure (m : Metrics) : Metrics := { m with failures := m.failures + 1 }

/-- Counts a commit that lost the race for its header. -/
def recordRace (m : Metrics) : Metrics := { m with races := m.races + 1 }

/-- Counts a commit that took the given number of seconds. -/
def recordDuration (seconds : Binary64) (m : Metrics) : Metrics :=
  { m with durations := m.durations.observe seconds }

/-- Counts a search in a namespace. -/
def recordSearch (label : String) (m : Metrics) : Metrics :=
  { m with searches := m.searches.record label }

/-- Counts a search in a namespace that was rejected or failed. -/
def recordSearchError (label : String) (m : Metrics) : Metrics :=
  { m with searchErrors := m.searchErrors.record label }

end Metrics

end DoubleEntry
