import DoubleEntry.Amount
import DoubleEntry.Body
import DoubleEntry.Config.Ledger
import DoubleEntry.Config.Leniency
import DoubleEntry.Config.Service
import DoubleEntry.Config.Setting
import DoubleEntry.Config.Source
import DoubleEntry.Cutoff
import DoubleEntry.DataKey
import DoubleEntry.Fault
import DoubleEntry.Http.Message
import DoubleEntry.Http.Problem
import DoubleEntry.Http.Route
import DoubleEntry.Http.Service
import DoubleEntry.Http.Url
import DoubleEntry.Json.Reader
import DoubleEntry.Json.Relaxed
import DoubleEntry.Json.RelaxedToken
import DoubleEntry.Json.Token
import DoubleEntry.Json.Value
import DoubleEntry.Json.Word
import DoubleEntry.Json.Writer
import DoubleEntry.Ledger.Access
import DoubleEntry.Ledger.Basic
import DoubleEntry.Ledger.Creation
import DoubleEntry.Ledger.Open
import DoubleEntry.Ledger.Submission
import DoubleEntry.Metrics.Basic
import DoubleEntry.Metrics.Exposition
import DoubleEntry.Number.Binary64
import DoubleEntry.Number.Numeral
import DoubleEntry.Number.Rounding
import DoubleEntry.Number.Shortest
import DoubleEntry.Search.Condition
import DoubleEntry.Search.Evaluation
import DoubleEntry.Search.Listing
import DoubleEntry.Search.Namespace
import DoubleEntry.Search.Pattern
import DoubleEntry.Search.Plan
import DoubleEntry.Search.Predicate
import DoubleEntry.Search.Query
import DoubleEntry.Search.Statement
import DoubleEntry.Search.Stored
import DoubleEntry.Search.Truth
import DoubleEntry.Search.Value
import DoubleEntry.Store.Address
import DoubleEntry.Store.Basic
import DoubleEntry.Store.Commit
import DoubleEntry.Store.Disk
import DoubleEntry.Text.Blank
import DoubleEntry.Text.Percent
import DoubleEntry.Text.Quoted
import DoubleEntry.Text.Reader
import DoubleEntry.Text.Split
import DoubleEntry.Text.Unprintable
import DoubleEntry.Text.Utf8
import DoubleEntry.Time.Date
import DoubleEntry.Time.Text
import DoubleEntry.Time.Timestamp
import DoubleEntry.Toml.Document
import DoubleEntry.Toml.Scalar
import DoubleEntry.Toml.Tree
import DoubleEntry.Transaction
import DoubleEntry.Proofs.Text.Digits
import DoubleEntry.Proofs.Time.ReadBack
import DoubleEntry.Proofs.Json.Scanning
import DoubleEntry.Proofs.Json.ReadBack
import DoubleEntry.Proofs.Json.Integers
import DoubleEntry.Proofs.Amount.Totals
import DoubleEntry.Proofs.Answers
import DoubleEntry.Proofs.Keyed
import DoubleEntry.Proofs.Store.Commit
import DoubleEntry.Proofs.Transaction.Validity
import DoubleEntry.Proofs.Ledger.Operations
import DoubleEntry.Proofs.Ledger.AllOrNothing
import DoubleEntry.Proofs.Ledger.History
import DoubleEntry.Proofs.Store.Data
import DoubleEntry.Proofs.Ledger.Integrity
import DoubleEntry.Proofs.Ledger.Idempotence
import DoubleEntry.Proofs.Ledger.Serial
import DoubleEntry.Proofs.Ledger.Interleaving
import DoubleEntry.Proofs.Search.Rows
import DoubleEntry.Proofs.Ledger.Journal
import DoubleEntry.Proofs.Time.Order
import DoubleEntry.Proofs.Ledger.Permanence
import DoubleEntry.Proofs.Ledger.Balances
import DoubleEntry.Proofs.Ledger.TrialBalance
import DoubleEntry.Proofs.Search.Translation
import DoubleEntry.Proofs.Search.Lookup
import DoubleEntry.Proofs.Search.Constraints
import DoubleEntry.Proofs.Ledger.Agreement
import DoubleEntry.Proofs.Json.Covering
import DoubleEntry.Proofs.Search.Columns
import DoubleEntry.Proofs.Search.Readable
import DoubleEntry.Proofs.Search.Outline
import DoubleEntry.Proofs.Search.Structure
import DoubleEntry.Proofs.Search.Skeleton
import DoubleEntry.Proofs.Text.ByteOrder
import DoubleEntry.Proofs.Search.Pages
import DoubleEntry.Proofs.Ledger.Metering
import DoubleEntry.Proofs.Http.Routing
import DoubleEntry.Proofs.Http.Segments
import DoubleEntry.Proofs.Http.Refusal
import DoubleEntry.Proofs.Number.Rounding
import DoubleEntry.Proofs.Number.Comparison
import DoubleEntry.Proofs.Number.Nearest
import DoubleEntry.Proofs.Number.Scaling
import DoubleEntry.Proofs.Number.Shortest
import DoubleEntry.Proofs.Json.Numerals
import DoubleEntry.Proofs.Json.Reals
import DoubleEntry.Proofs.Json.Reading
import DoubleEntry.Proofs.Json.Documents
import DoubleEntry.Proofs.Json.Ordered
import DoubleEntry.Proofs.Search.Paths
import DoubleEntry.Proofs.Ledger.Availability
import DoubleEntry.Proofs.Http.Intake
import DoubleEntry.Proofs.Http.Status
import DoubleEntry.Proofs.Http.Exchanges
import DoubleEntry.Proofs.Http.Accounts
import DoubleEntry.Proofs.Search.Language
import DoubleEntry.Proofs.Ledger.Metadata
import DoubleEntry.Proofs.Text.Words
import DoubleEntry.Proofs.Text.Parts
import DoubleEntry.Proofs.Text.Escapes
import DoubleEntry.Proofs.Search.Scopes
import DoubleEntry.Proofs.Search.ScanWords
import DoubleEntry.Proofs.Search.Pieces
import DoubleEntry.Proofs.Search.Hygiene
import DoubleEntry.Proofs.Search.Order
import DoubleEntry.Proofs.Search.Verdicts
import DoubleEntry.Proofs.Search.Comparisons
import DoubleEntry.Proofs.Search.Membership
import DoubleEntry.Proofs.Number.Extended
import DoubleEntry.Proofs.Search.StoredValues
import DoubleEntry.Proofs.Search.Integers
import DoubleEntry.Proofs.Json.Parts
import DoubleEntry.Proofs.Search.Containment
import DoubleEntry.Proofs.Search.Spelling
import DoubleEntry.Proofs.Json.Repeated
import DoubleEntry.Proofs.Search.Shapes
import DoubleEntry.Proofs.Ledger.Timestamps
import DoubleEntry.Proofs.Search.ColumnPlans
import DoubleEntry.Proofs.Ledger.Chronology
import DoubleEntry.Proofs.Time.Calendar
import DoubleEntry.Proofs.Time.Offsets
import DoubleEntry.Proofs.Text.Utf8
import DoubleEntry.Proofs.Transaction.NormalForm
import DoubleEntry.Proofs.Ledger.Creations
import DoubleEntry.Proofs.Store.Address
import DoubleEntry.Proofs.Store.Disk
import DoubleEntry.Proofs.Ledger.Opening
