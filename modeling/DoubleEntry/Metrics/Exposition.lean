import DoubleEntry.Metrics.Basic
import DoubleEntry.Number.Shortest

/-!
# The text of counters

The line format in which counters are collected: a family opens with its help and its type, and
every sample is a name, labels in braces, and a number. Families stand in increasing order of their
names. A tally without labels has no samples and is no family.
-/

namespace DoubleEntry.Metrics

open Number (Binary64 Layout)

/-- One line of a family: what follows the name of the family, labels, and the value. -/
structure Sample where
  ending : String
  labels : List (String × String)
  value : Binary64

/-- Samples of one kind under one name. -/
structure Family where
  name : String
  help : String
  kind : String
  samples : List Sample

/-- Numbers are written positionally whatever their size. -/
def numberLayout : Layout := ⟨none, none, ""⟩

/-- A character inside a label. -/
def labelChar (c : Char) : List Char :=
  if c = '\\' then ['\\', '\\']
  else if c = '"' then ['\\', '"']
  else if c = '\n' then ['\\', 'n']
  else [c]

/-- A label with its value between double quotes. -/
def labelText (label : String × String) : String :=
  label.1 ++ "=\"" ++ String.ofList (label.2.toList.flatMap labelChar) ++ "\""

/-- Labels between braces; nothing when there are none. -/
def labelsText (labels : List (String × String)) : String :=
  if labels.isEmpty then ""
  else "\x7b" ++ ",".intercalate (labels.map labelText) ++ "\x7d"

namespace Family

/-- The line of a sample. -/
def line (f : Family) (s : Sample) : String :=
  f.name ++ s.ending ++ labelsText s.labels ++ " " ++ numberLayout.render s.value

/-- The lines of a family. -/
def lines (f : Family) : List String :=
  ["# HELP " ++ f.name ++ " " ++ f.help, "# TYPE " ++ f.name ++ " " ++ f.kind] ++
    f.samples.map f.line

/-- The family of a single counter. -/
def ofCounter (name help : String) (n : Nat) : Family :=
  ⟨name, help, "counter", [⟨"", [], .ofInt n⟩]⟩

/-- The family of a tally, with one sample for each value of the label. -/
def ofTally (name help label : String) (t : Tally) : Family :=
  ⟨name, help, "counter", t.map fun (value, n) => ⟨"", [(label, value)], .ofInt n⟩⟩

/-- The family of a histogram: its buckets, the last of which has no bound, its sum and its count. -/
def ofHistogram (name help : String) (h : Histogram) : Family :=
  ⟨name, help, "histogram",
    (h.upTo.map fun (bound, n) =>
      ⟨"_bucket", [("le", numberLayout.render bound)], .ofInt n⟩) ++
    [⟨"_bucket", [("le", "+Inf")], .ofInt h.total⟩, ⟨"_sum", [], h.sum⟩,
      ⟨"_count", [], .ofInt h.total⟩]⟩

end Family

/-- The families with samples, in increasing order of their names. -/
def families (m : Metrics) : List Family :=
  [.ofHistogram "ledger_commit_duration_seconds" "Histogram of commit latencies" m.durations,
    .ofCounter "ledger_commit_failures_total" "Total number of rolled back commit units"
      m.failures,
    .ofCounter "ledger_commit_races_total"
      "Concurrent commits of the same transaction ID resolved by re-read" m.races,
    .ofTally "ledger_search_errors_total" "Failed search queries by namespace" "namespace"
      m.searchErrors,
    .ofTally "ledger_search_queries_total" "Search queries by namespace" "namespace" m.searches,
    .ofTally "ledger_transactions_total" "Transaction submissions by outcome" "outcome"
      m.outcomes].filter fun f => !f.samples.isEmpty

/-- The lines of all families. -/
def lines (m : Metrics) : List String := m.families.flatMap Family.lines

/-- The text of all families, every line ended. -/
def render (m : Metrics) : String := String.join (m.lines.map fun line => line ++ "\n")

end DoubleEntry.Metrics
